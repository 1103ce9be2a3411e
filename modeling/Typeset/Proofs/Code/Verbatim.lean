import Typeset.Proofs.Layout.Deeper
import Typeset.Proofs.Markup.Fence
import Typeset.Proofs.Text.Trim
import Typeset.Text.Blank
import Typeset.Token.Normal

/-! Code blocks read back from the page. A reader counts the backticks that open the block, takes
the rest of their line for the tag, and looks for as many backticks again. The fence is longer than
every run in the code, but the tag is written straight behind it: a tag that begins with a backtick
makes the opening longer than the closing, and the block has no end. -/

namespace Typeset.Code

open Render Markup

variable {cs tag tail : List Char} {info code : String} {level : Int}

/-- The character that fences are made of. -/
def isTick (c : Char) : Bool := c == '`'

/-- A raw block as a reader finds it: the tag behind the opening fence, the code in the lines below,
and what is left behind the closing fence. -/
structure RawBlock where
  tag : String
  code : String
  behind : String
  deriving DecidableEq, Repr

/-- What stands before the first run of at least so many backticks, and behind that run. -/
def cutAtRun? (count : Nat) : List Char → Option (List Char × List Char)
  | [] => none
  | c :: rest =>
    if count ≤ ((c :: rest).takeWhile isTick).length then
      some ([], (c :: rest).dropWhile isTick)
    else (cutAtRun? count rest).map fun (before, behind) => (c :: before, behind)

/-- A raw block at the beginning of a text. The line end before the closing fence is not part of the
code. -/
def rawBlock? (text : List Char) : Option RawBlock :=
  let count := (text.takeWhile isTick).length
  if count < 3 then none
  else (Text.cut? ['\n'] (text.dropWhile isTick)).bind fun (tag, body) =>
    (cutAtRun? count body).map fun (content, behind) =>
      { tag := String.ofList tag
        code := String.ofList (Token.dropLastNewline content)
        behind := String.ofList behind }

/-- A text without the margin of a level, if each of its rows has it. -/
def outdent? (text : String) (level : Int) : Option String :=
  ((textRows text).mapM (Text.after? (margin level.toNat))).map joined

/-- A raw block at a level of indentation. -/
def readBlock? (text : String) (level : Int) : Option RawBlock :=
  (outdent? text level).bind fun text => rawBlock? text.toList

example : readBlock? "  ````lean\n  a ```\n  \n  ````" 1 =
    some { tag := "lean", code := "a ```\n", behind := "" } := by decide

/-- The word that the normal form of a code block keeps of its info string. -/
def infoWord (info : String) : String := (Text.words info).head?.getD ""

/-- A fenced code block as the reader of Markdown leaves it. -/
def fenced (info code : String) : Value :=
  .object
    [("type", .str "block_code"), ("attrs", .object [("info", .str info)]), ("raw", .str code)]

/-- A code block in its normal form. -/
def codeToken (info code : String) : Value :=
  .object [("type", .str "block_code"), ("attrs", .object [("info", Token.firstWord info)]),
    ("raw", .str code)]

theorem joined_textRows (text : String) : joined (textRows text) = text := by
  rw [joined, textRows, List.intercalate_splitOn, String.ofList_toList]

theorem outdent?_indent (text : String) (level : Int) :
    outdent? (indent text level) level = some text := by
  have hrows (rows : List (List Char)) :
      (rows.map (margin level.toNat ++ ·)).mapM (Text.after? (margin level.toNat)) = some rows := by
    induction rows with
    | nil => rfl
    | cons row rest ih => simp [Text.after?_append, ih]
  rw [outdent?, textRows_indent, hrows, Option.map_some, joined_textRows]

theorem le_longestRun_tick {n : Nat} :
    n ≤ longestRun isTick cs ↔ List.replicate n '`' <:+: cs :=
  le_longestRun_iff

theorem longestRun_le_cons (c : Char) (rest : List Char) :
    longestRun isTick rest ≤ longestRun isTick (c :: rest) :=
  le_longestRun_tick.mpr
    ((le_longestRun_tick.mp (Nat.le_refl _)).trans (List.suffix_cons c rest).isInfix)

theorem length_takeWhile_le (cs : List Char) :
    (cs.takeWhile isTick).length ≤ longestRun isTick cs := by
  have hticks : cs.takeWhile isTick = List.replicate (cs.takeWhile isTick).length '`' :=
    List.eq_replicate_of_mem fun c hc => by simpa [isTick] using List.mem_takeWhile_imp hc
  rw [le_longestRun_tick, ← hticks]
  exact (List.takeWhile_prefix isTick).isInfix

theorem takeWhile_newline (cs tail : List Char) :
    (cs ++ '\n' :: tail).takeWhile isTick = cs.takeWhile isTick := by
  induction cs with
  | nil => rfl
  | cons c rest ih => rw [List.cons_append, List.takeWhile_cons, List.takeWhile_cons, ih]

/-- Lines whose runs are too short are passed over. -/
theorem cutAtRun?_lines {count : Nat} (h : longestRun isTick cs < count) (tail : List Char) :
    cutAtRun? count (cs ++ '\n' :: tail) =
      (cutAtRun? count tail).map fun (before, behind) => (cs ++ '\n' :: before, behind) := by
  induction cs with
  | nil =>
    have hrun : ¬count ≤ (('\n' :: tail).takeWhile isTick).length := by
      rw [List.takeWhile_cons_of_neg (by decide)]
      exact Nat.not_le.mpr (Nat.zero_lt_of_lt h)
    rw [List.nil_append, cutAtRun?, if_neg hrun]
    rfl
  | cons c rest ih =>
    have hrun : ¬count ≤ ((c :: rest ++ '\n' :: tail).takeWhile isTick).length := by
      have hle := length_takeWhile_le (c :: rest)
      rw [takeWhile_newline]
      omega
    rw [List.cons_append] at hrun ⊢
    rw [cutAtRun?, if_neg hrun, ih (Nat.lt_of_le_of_lt (longestRun_le_cons c rest) h),
      Option.map_map]
    rfl

theorem takeWhile_ticks {rest : List Char} (count : Nat) (h : rest.head? ≠ some '`') :
    (List.replicate count '`' ++ rest).takeWhile isTick = List.replicate count '`' :=
  Text.takeWhile_run count h

theorem dropWhile_ticks {rest : List Char} (count : Nat) (h : rest.head? ≠ some '`') :
    (List.replicate count '`' ++ rest).dropWhile isTick = rest :=
  Text.dropWhile_run count h

/-- A run ends the code if it is long enough. -/
theorem cutAtRun?_run {count : Nat} (h : 0 < count) (length : Nat) :
    cutAtRun? count (List.replicate length '`') =
      if count ≤ length then some ([], []) else none := by
  induction length with
  | zero => rw [if_neg (Nat.not_le.mpr h)]; rfl
  | succ length ih =>
    have htake := @takeWhile_ticks [] (length + 1) (by simp)
    have hdrop := @dropWhile_ticks [] (length + 1) (by simp)
    rw [List.append_nil] at htake hdrop
    rw [List.replicate_succ] at htake hdrop ⊢
    rw [cutAtRun?, htake, hdrop, ih, List.length_cons, List.length_replicate]
    split
    · rfl
    · rw [if_neg (by omega)]
      rfl

theorem dropLastNewline_concat (cs : List Char) : Token.dropLastNewline (cs ++ ['\n']) = cs := by
  simp [Token.dropLastNewline]

theorem cut?_newline (h : '\n' ∉ tag) (body : List Char) :
    Text.cut? ['\n'] (tag ++ '\n' :: body) = some (tag, body) := by
  induction tag with
  | nil => rfl
  | cons c rest ih =>
    obtain ⟨hc, hrest⟩ := List.ne_and_not_mem_of_not_mem_cons h
    rw [List.cons_append, Text.cut?, Text.after?, if_neg hc]
    simp only [ih hrest, Option.map_some]

/-- Code between two fences, with a tag behind the first that is no part of it: the block is read
as it was written if the second is as long as the first, and else has no end. -/
theorem rawBlock?_between {opening closing : Nat} (hopening : 3 ≤ opening)
    (htag : tag.head? ≠ some '`') (hline : '\n' ∉ tag) (hcode : longestRun isTick cs < opening) :
    rawBlock? (List.replicate opening '`' ++ tag ++ '\n' :: (cs ++ '\n' ::
      List.replicate closing '`')) =
        if opening ≤ closing then
          some { tag := String.ofList tag, code := String.ofList cs, behind := "" }
        else none := by
  have hstop : (tag ++ '\n' :: (cs ++ '\n' :: List.replicate closing '`')).head? ≠ some '`' := by
    cases tag with
    | nil => simp
    | cons d rest => simpa using htag
  have hcut : cutAtRun? opening (cs ++ '\n' :: List.replicate closing '`') =
      if opening ≤ closing then some (cs ++ ['\n'], []) else none := by
    rw [cutAtRun?_lines hcode, cutAtRun?_run (by omega)]
    split <;> rfl
  rw [List.append_assoc, rawBlock?]
  simp only [takeWhile_ticks opening hstop, dropWhile_ticks opening hstop, List.length_replicate]
  rw [if_neg (by omega), cut?_newline hline, Option.bind_some]
  dsimp only
  rw [hcut]
  split
  · rw [Option.map_some, dropLastNewline_concat]
  · rfl

/-- No word holds a blank. -/
theorem not_mem_pieces (p : Char → Bool) (cs : List Char) :
    ∀ piece ∈ Text.pieces p cs, ∀ c ∈ piece, p c = false := by
  fun_induction Text.pieces p cs with
  | case1 => simp
  | case2 c rest hc ih => exact ih
  | case3 c hc => simpa using hc
  | case4 c hc d more hd ih => exact List.forall_mem_cons.mpr ⟨by simpa using hc, ih⟩
  | case5 c hc d more hd hnone ih =>
    rw [hnone]
    simpa using hc
  | case6 c hc d more hd word words hwords ih =>
    rw [hwords, List.forall_mem_cons] at ih
    rw [hwords]
    refine List.forall_mem_cons.mpr ⟨?_, ih.2⟩
    exact List.forall_mem_cons.mpr ⟨by simpa using hc, ih.1⟩

theorem not_blank_infoWord (info : String) :
    ∀ c ∈ (infoWord info).toList, Text.isBlank c = false := by
  unfold infoWord Text.words
  cases hw : Text.pieces Text.isBlank info.toList with
  | nil => simp
  | cons word words =>
    have hword := not_mem_pieces Text.isBlank info.toList word (by simp [hw])
    simpa using hword

theorem strip_of_not_blank {s : String} (h : ∀ c ∈ s.toList, Text.isBlank c = false) :
    Text.strip s = s := by
  have hdrop (cs : List Char) (hcs : ∀ c ∈ cs, Text.isBlank c = false) :
      cs.dropWhile Text.isBlank = cs := by
    cases cs with
    | nil => rfl
    | cons c rest => exact List.dropWhile_cons_of_neg (by simp [hcs c List.mem_cons_self])
  rw [Text.strip, Text.trim, Text.trimRight, hdrop _ h, hdrop _ (by simpa using h),
    List.reverse_reverse, String.ofList_toList]

/-- Backticks at the beginning of a text, and what stands behind them. -/
theorem exists_ticks (cs : List Char) :
    ∃ count tag, cs = List.replicate count '`' ++ tag ∧ tag.head? ≠ some '`' :=
  Text.exists_run '`' cs

theorem text_orElse (s : String) : ((Value.str s).orElse (.str "")).asText = .ok s := by
  by_cases h : s = ""
  · subst h
    rfl
  · rw [Value.orElse, if_pos (by simpa [Value.truthy] using h)]
    rfl

theorem firstWord_asText (info : String) :
    ((Token.firstWord info).orElse (.str "")).asText = .ok (infoWord info) := by
  unfold Token.firstWord infoWord
  cases (Text.words info).head? with
  | none => rfl
  | some word => exact text_orElse word

theorem block_codeToken (env : Environment) (active : List String) (info code : String)
    (level : Int) :
    (block env active (codeToken info code) level).outcome =
      .ok (some (indent (lines [fence code ++ infoWord info, code, fence code]) level)) := by
  have hcode := @Layout.codeBlock_of_text (codeToken info code) code (infoWord info)
    (Token.firstWord info) rfl rfl (firstWord_asText info) level
  rw [strip_of_not_blank (not_blank_infoWord info)] at hcode
  rw [block_eq_some_iff rfl rfl, blockOf, hcode]
  rfl

theorem codeBlock_fenced (info code : String) :
    Token.codeBlock (fenced info (code ++ "\n")) = .ok (codeToken info code) := by
  have hattrs : Token.checkedAttrs (fenced info (code ++ "\n")) =
      .ok (.object [("info", .str info)]) := rfl
  have hraw : (fenced info (code ++ "\n")).field "raw" (.str "") = .ok (.str (code ++ "\n")) := rfl
  have hinfo : ((Value.object [("info", .str info)]).orElse (.object [])).field "info" .null =
      .ok (.str info) := rfl
  have hcode : String.ofList (Token.dropLastNewline (code ++ "\n").toList) = code := by
    rw [String.toList_append]
    exact (congrArg String.ofList (dropLastNewline_concat code.toList)).trans String.ofList_toList
  have hasText : (Value.str (code ++ "\n")).asText = .ok (code ++ "\n") := rfl
  simp only [Token.codeBlock, hattrs, hraw, hasText, hinfo, text_orElse, hcode, bind, Except.bind,
    pure, Except.pure]
  rfl

/-- The normal form keeps the code without its last line end, and the first word of the info
string. -/
theorem normalize_fenced (info code : String) :
    Token.normalize (fenced info (code ++ "\n")) = .ok [codeToken info code] := by
  have hkind : Token.kind (fenced info (code ++ "\n")) = .ok (.str "block_code") := rfl
  rw [Token.normalize, hkind]
  simp only [bind, Except.bind, Token.kindKey_str, codeBlock_fenced]
  rfl

/-- Code between its fences, read back: backticks at the beginning of the word are taken for part of
the opening fence, and no run behind them is as long. -/
theorem readBlock?_fences {word : String} {ticks : Nat}
    (hword : word.toList = List.replicate ticks '`' ++ tag) (htag : tag.head? ≠ some '`')
    (hline : '\n' ∉ tag) (code : String) (level : Int) :
    readBlock? (indent (lines [fence code ++ word, code, fence code]) level) level =
      if ticks = 0 then some { tag := String.ofList tag, code := code, behind := "" }
      else none := by
  let closing := max 3 (longestRun isTick code.toList + 1)
  have hfence : (fence code).toList = List.replicate closing '`' := String.toList_ofList
  have htext : (lines [fence code ++ word, code, fence code]).toList =
      List.replicate (closing + ticks) '`' ++ tag ++
        '\n' :: (code.toList ++ '\n' :: List.replicate closing '`') := by
    simp only [lines, String.intercalate_cons_cons, String.intercalate_singleton,
      String.toList_append, hfence, hword, ← List.replicate_append_replicate, List.append_assoc]
    rfl
  have hlong : longestRun isTick code.toList < closing + ticks := by omega
  rw [readBlock?, outdent?_indent, Option.bind_some, htext,
    rawBlock?_between (by omega) htag hline hlong, String.ofList_toList]
  by_cases hticks : ticks = 0
  · rw [if_pos (by omega), if_pos hticks]
  · rw [if_neg (by omega), if_neg hticks]

/-- Every code block that the normal form allows is laid out, at every level, and is read back as it
was written exactly if its info word does not begin with a backtick. If it does, the block that is
read has no end. -/
theorem readBlock_codeToken_iff (env : Environment) (active : List String) (info code : String)
    (level : Int) :
    Token.normalize (fenced info (code ++ "\n")) = .ok [codeToken info code] ∧
    ∃ text, (block env active (codeToken info code) level).outcome = .ok (some text) ∧
      (readBlock? text level = some { tag := infoWord info, code := code, behind := "" } ↔
        (infoWord info).toList.head? ≠ some '`') ∧
      ((infoWord info).toList.head? = some '`' → readBlock? text level = none) := by
  obtain ⟨ticks, tag, hword, htag⟩ := exists_ticks (infoWord info).toList
  have hline : '\n' ∉ tag := fun hmem => by
    have hblank := not_blank_infoWord info '\n' (by simp [hword, hmem])
    exact absurd hblank (by decide)
  have hread := readBlock?_fences hword htag hline code level
  refine ⟨normalize_fenced info code, _, block_codeToken env active info code level, ?_⟩
  rw [hread, hword]
  cases ticks with
  | zero =>
    have hsame : String.ofList tag = infoWord info := by
      rw [← String.toList_inj, hword, String.toList_ofList]
      rfl
    rw [if_pos rfl, hsame]
    simpa using htag
  | succ ticks =>
    rw [if_neg (Nat.succ_ne_zero ticks)]
    simp [List.replicate_succ]

/-- A backtick at the beginning of the word lengthens the opening fence, and the closing one no
longer matches it. -/
theorem tickWord_unread :
    Token.normalize (fenced "`x" "a\n") = .ok [codeToken "`x" "a"] ∧
      (block { convertMath := .ok } [] (codeToken "`x" "a") 0).outcome =
        .ok (some "````x\na\n```") ∧
      readBlock? "````x\na\n```" 0 = none :=
  ⟨normalize_fenced "`x" "a", block_codeToken { convertMath := .ok } [] "`x" "a" 0, by decide⟩

end Typeset.Code
