import Typeset.Proofs.Bracket.Render
import Typeset.Proofs.Header.Reading
import Typeset.Proofs.Render.Unresolved

/-! Tables, read back from their calls at every level of indentation: the columns, their alignments,
the header and then every other cell stand where the rows had them. -/

namespace Typeset.Table

open Markup Render Rendering Scan Token Typeset.Bracket
open Header (Standing)
open Text (isBlank)

section Indented

variable {s t : State} {c : Char} {cs held opening : List Char} {parts : List (List Char)}

theorem indented_append (levels : Nat) (xs ys : List Char) :
    indented levels (xs ++ ys) = indented levels xs ++ indented levels ys := List.flatMap_append

theorem indented_concat (levels : Nat) (h : c ≠ '\n') (xs : List Char) :
    indented levels (xs ++ [c]) = indented levels xs ++ [c] := by
  rw [indented_append, indented_of_ne levels h]
  rfl

theorem indented_eq_nil_iff {levels : Nat} : indented levels cs = [] ↔ cs = [] := by
  cases cs with
  | nil => simp [indented]
  | cons c cs =>
    by_cases hc : c = '\n'
    · simp [hc, indented_newline]
    · simp [indented_of_ne levels hc]

theorem isBlank_of_mem_margin {levels : Nat} (h : c ∈ margin levels) : isBlank c = true := by
  obtain ⟨part, hpart, hc⟩ := List.mem_flatten.mp h
  rw [(List.mem_replicate.mp hpart).2, Markup.unit] at hc
  rcases List.mem_pair.mp hc with rfl | rfl <;> rfl

theorem isBlank_of_mem_indented {levels : Nat} (h : ∀ c ∈ cs, isBlank c = true) :
    ∀ c ∈ indented levels cs, isBlank c = true := by
  intro c hc
  obtain ⟨d, hd, hc⟩ := List.mem_flatMap.mp hc
  split at hc
  · rcases List.mem_cons.mp hc with rfl | hc
    · rfl
    · exact isBlank_of_mem_margin hc
  · rw [List.mem_singleton.mp hc]
    exact h d hd

/-- A text that begins with no white space still does when it is indented. -/
theorem head?_indented {levels : Nat} (h : ∀ c ∈ cs.head?, isBlank c = false)
    (hc : c ∈ (indented levels cs).head?) : c ∈ cs.head? := by
  cases cs with
  | nil => exact hc
  | cons d cs =>
    have hd : d ≠ '\n' := by
      rintro rfl
      exact absurd (h '\n' rfl) (by decide)
    rwa [indented_of_ne levels hd] at hc

/-- Neither does a text that ends with none. -/
theorem getLast?_indented {levels : Nat} (h : ∀ c ∈ cs.getLast?, isBlank c = false)
    (hc : c ∈ (indented levels cs).getLast?) : c ∈ cs.getLast? := by
  rcases List.eq_nil_or_concat' cs with rfl | ⟨init, d, rfl⟩
  · exact hc
  · rw [List.getLast?_concat] at h ⊢
    have hd : d ≠ '\n' := by
      rintro rfl
      exact absurd (h '\n' rfl) (by decide)
    rwa [indented_concat levels hd, List.getLast?_concat] at hc

/-- What is trimmed off may as well be indented, and what is left begins and ends as before. -/
theorem trim_indented (levels : Nat) (cs : List Char) :
    Text.trim isBlank (indented levels cs) = indented levels (Text.trim isBlank cs) := by
  obtain ⟨lead, trail, hcs, hlead, htrail⟩ := Text.exists_trim cs
  have hself : Text.trim isBlank (indented levels (Text.trim isBlank cs)) =
      indented levels (Text.trim isBlank cs) :=
    Text.trim_eq_self (fun c hc => Text.head?_trim (head?_indented (fun d => Text.head?_trim) hc))
      fun c hc => Text.getLast?_trim (getLast?_indented (fun d => Text.getLast?_trim) hc)
  calc Text.trim isBlank (indented levels cs)
      = Text.trim isBlank (indented levels lead ++
          (indented levels (Text.trim isBlank cs) ++ indented levels trail)) := by
        rw [← indented_append, ← indented_append, ← hcs]
    _ = Text.trim isBlank (indented levels (Text.trim isBlank cs)) := by
        rw [Text.trim_append_of_head (isBlank_of_mem_indented hlead),
          Text.trim_append_of_last (isBlank_of_mem_indented htrail)]
    _ = indented levels (Text.trim isBlank cs) := hself

theorem argumentStep_of_other (hcomma : c ≠ ',') (hclose : c ≠ ')') :
    argumentStep s c = step s c := if_neg (by simp [hcomma, hclose])

theorem run_argument_margin (hs : s.Settled) (levels : Nat) :
    run argumentStep s (margin levels) = some s := by
  induction levels with
  | zero => rfl
  | succ levels ih =>
    have hblank : argumentStep s ' ' = some s :=
      (argumentStep_of_other (by decide) (by decide)).trans hs
    have hunit : run argumentStep s Markup.unit = some s := by simp [Markup.unit, hblank]
    rw [margin, List.replicate_succ, List.flatten_cons, run_append_of_eq hunit]
    exact ih

/-- An indented call has the indented arguments. -/
theorem argumentsFrom_indented (levels : Nat) (s : State) (held cs : List Char) :
    argumentsFrom s (indented levels held) (indented levels cs) =
      (argumentsFrom s held cs).map fun (parts, after) =>
        (parts.map (indented levels), indented levels after) := by
  induction cs generalizing s held with
  | nil => rfl
  | cons c cs ih =>
    by_cases hc : c = '\n'
    · -- A line break settles the scan, so the margin behind it changes nothing but what is held.
      subst hc
      rw [indented_newline, argumentsFrom, argumentsFrom,
        argumentStep_of_other (by decide) (by decide)]
      cases hstep : step s '\n' with
      | none => simp
      | some t =>
        have hheld : indented levels held ++ ['\n'] ++ margin levels =
            indented levels (held ++ ['\n']) := by
          rw [indented_append, List.append_assoc]
          simp [indented]
        dsimp only
        rw [argumentsFrom_of_run (run_argument_margin (settled_of_newline hstep) levels), hheld, ih]
    · rw [indented_of_ne levels hc, argumentsFrom, argumentsFrom]
      cases argumentStep s c with
      | some t =>
        dsimp only
        rw [← indented_concat levels hc, ih]
      | none =>
        have hmore : argumentsFrom inCall [] (indented levels cs) = _ := ih inCall []
        dsimp only
        rw [trim_indented, hmore]
        split_ifs
        · rw [Option.map_map, Option.map_map]
          rfl
        · rfl
        · rfl

theorem after?_indented (levels : Nat) (h : '\n' ∉ opening) (cs : List Char) :
    Text.after? opening (indented levels cs) =
      (Text.after? opening cs).map (indented levels) := by
  induction opening generalizing cs with
  | nil => simp [Text.after?]
  | cons d opening ih =>
    obtain ⟨hd, hopening⟩ := not_or.mp (mt List.mem_cons.mpr h)
    cases cs with
    | nil => rfl
    | cons c cs =>
      by_cases hc : c = '\n'
      · subst hc
        rw [indented_newline, Text.after?, Text.after?, if_neg (Ne.symm hd), if_neg (Ne.symm hd)]
        rfl
      · rw [indented_of_ne levels hc, Text.after?, Text.after?]
        split
        · exact ih hopening cs
        · rfl

/-- Arguments without an empty one at the end, which is none: a comma may follow the last. -/
def settled (parts : List (List Char)) : List (List Char) :=
  if parts.getLast? = some [] then parts.dropLast else parts

theorem settled_append (hne : parts ≠ []) (h : ∀ p ∈ parts, p ≠ []) (lead : List (List Char)) :
    settled (lead ++ parts) = lead ++ parts := by
  rw [settled, List.getLast?_append_of_ne_nil _ hne, if_neg]
  exact fun hlast => h [] (List.mem_of_getLast? hlast) rfl

theorem settled_indented (levels : Nat) (parts : List (List Char)) :
    settled (parts.map (indented levels)) = (settled parts).map (indented levels) := by
  have hlast : (parts.map (indented levels)).getLast? = some [] ↔ parts.getLast? = some [] := by
    rw [List.getLast?_map]
    simp [indented_eq_nil_iff]
  rw [settled, settled]
  split_ifs with hleft hright hright
  · exact List.map_dropLast.symm
  · exact absurd (hlast.mp hleft) hright
  · exact absurd (hlast.mpr hright) hleft
  · rfl

/-- The arguments between an opening and the parenthesis at the end of a text. -/
def argumentsIn (opening : String) (text : List Char) : Option (List (List Char)) :=
  match (Text.after? opening.toList text).bind arguments with
  | some (parts, []) => some (settled parts)
  | _ => none

theorem argumentsIn_indented {opening : String} (levels : Nat) (h : '\n' ∉ opening.toList)
    (text : List Char) :
    argumentsIn opening (indented levels text) =
      (argumentsIn opening text).map (List.map (indented levels)) := by
  have hread (rest : List Char) : arguments (indented levels rest) = _ :=
    argumentsFrom_indented levels inCall [] rest
  rw [argumentsIn, argumentsIn, after?_indented levels h]
  cases Text.after? opening.toList text with
  | none => rfl
  | some rest =>
    rw [Option.map_some, Option.bind_some, Option.bind_some, hread, arguments]
    cases argumentsFrom inCall [] rest with
    | none => rfl
    | some found =>
      obtain ⟨parts, after⟩ := found
      cases after with
      | nil => exact congrArg some (settled_indented levels parts)
      | cons c after =>
        have hne : indented levels (c :: after) ≠ [] :=
          indented_eq_nil_iff.not.mpr (List.cons_ne_nil c after)
        obtain ⟨d, more, hmore⟩ := List.exists_cons_of_ne_nil hne
        rw [Option.map_some]
        dsimp only
        rw [hmore]
        rfl

end Indented

section Call

variable {p gap rest cell : List Char} {parts columns align head cells : List (List Char)}
  {rows : List (List (List Char))}

/-- A table is called with its columns, their alignments and the cells of its header, each in
parentheses of their own, and then with all other cells. -/
def IsTableCall (call : List Char) (columns align head cells : List (List Char)) : Prop :=
  ∃ first second third, argumentsIn "#table(" call = some (first :: second :: third :: cells) ∧
    argumentsIn "columns: (" first = some columns ∧ argumentsIn "align: (" second = some align ∧
    argumentsIn "table.header(" third = some head

theorem isTableCall_indented {call : List Char} (h : IsTableCall call columns align head cells)
    (levels : Nat) :
    IsTableCall (indented levels call) (columns.map (indented levels)) (align.map (indented levels))
      (head.map (indented levels)) (cells.map (indented levels)) := by
  obtain ⟨first, second, third, hcall, hcolumns, halign, hhead⟩ := h
  refine ⟨_, _, _, (argumentsIn_indented levels (by decide) call).trans (congrArg _ hcall), ?_, ?_,
    ?_⟩
  · rw [argumentsIn_indented levels (by decide), hcolumns]
    rfl
  · rw [argumentsIn_indented levels (by decide), halign]
    rfl
  · rw [argumentsIn_indented levels (by decide), hhead]
    rfl

/-- A cell as an argument. -/
def bracketed (cell : List Char) : List Char := '[' :: (cell ++ [']'])

/-- A cell of the header as an argument: it is shown strong. -/
def starred (cell : List Char) : List Char := bracketed ('*' :: (cell ++ ['*']))

theorem standing_bracketed (h : Balanced .content cell) : Standing (bracketed cell) :=
  .enclosed (by decide) (by decide) (.bracketed h)

theorem Balanced.starred (h : Balanced .content cell) :
    Balanced .content ('*' :: (cell ++ ['*'])) := by
  have hstar : Balanced .content ['*'] := @closed_inert .content "*" rfl
  exact hstar.append (h.append hstar)

theorem nested_bracketed (h : Balanced .content cell) : Nested (bracketed cell) := by
  have hopen : argumentStep ⟨[.call, .call], .plain⟩ '[' =
      some ⟨[.content, .call, .call], .plain⟩ := by decide
  have hdeep : 2 ≤ [Frame.content, .call, .call].length := by decide
  have hinside : run argumentStep ⟨[.content, .call, .call], .plain⟩ cell =
      some ⟨[.content, .call, .call], .plain⟩ := run_argument_append rfl hdeep (h [] rfl)
  rw [Nested, bracketed, run_cons, hopen, Option.bind_some, run_append_of_eq hinside]
  rfl

theorem standing_starred (h : Balanced .content cell) : Standing (starred cell) :=
  standing_bracketed (Balanced.starred h)

theorem nested_starred (h : Balanced .content cell) : Nested (starred cell) :=
  nested_bracketed (Balanced.starred h)

/-- Parts with a comma and a blank between them. -/
def listedText (parts : List (List Char)) : List Char := [',', ' '].intercalate parts

/-- Parts behind an opening, with a parenthesis after them. -/
def enclosedText (opening : String) (parts : List (List Char)) : List Char :=
  opening.toList ++ (listedText parts ++ [')'])

theorem argumentsIn_enclosedText (opening : String) (hne : parts ≠ [])
    (h : ∀ p ∈ parts, Standing p) :
    argumentsIn opening (enclosedText opening parts) = some parts := by
  have hparts : arguments (listedText parts ++ ([] ++ [')'])) = some (parts, []) := by
    rw [listedText, arguments_written Header.isGap_blank Header.isGap_nil hne
      (fun p hp => (h p hp).whole) [], Header.map_trim h]
  rw [argumentsIn, enclosedText, Text.after?_append, Option.bind_some, ← List.nil_append [')'],
    hparts]
  exact congrArg some (settled_append hne (fun p hp => (h p hp).nonempty) [])

/-- Whether a character may stand anywhere in a word. -/
def isWordChar (c : Char) : Bool := isInert c && c != ',' && !isBlank c

theorem standing_word (hne : p ≠ []) (h : p.all isWordChar) : Standing p := by
  have hchar : ∀ c ∈ p, (isInert c ∧ c ≠ ',') ∧ isBlank c = false := by
    simpa [isWordChar] using h
  exact ⟨hne, .of_inert fun c hc => (hchar c hc).1,
    fun c hc => (hchar c (List.mem_of_mem_head? hc)).2,
    fun c hc => (hchar c (List.mem_of_getLast? hc)).2⟩

theorem nested_word (h : p.all isWordChar) : Nested p := by
  refine .of_inert fun c hc => ?_
  have hchar := List.all_eq_true.mp h c hc
  simp only [isWordChar, Bool.and_eq_true] at hchar
  exact hchar.1.1

/-- Parts in parentheses behind a label are one argument. -/
theorem standing_enclosedText {c : Char} {label : List Char} {opening : String}
    (hopening : opening.toList = c :: (label ++ ['('])) (hc : isWordChar c) (hlabel : Whole label)
    (h : ∀ p ∈ parts, Nested p) : Standing (enclosedText opening parts) := by
  simp only [isWordChar, Bool.and_eq_true, bne_iff_ne, Bool.not_eq_true'] at hc
  have hcomma : Nested [',', ' '] := by decide
  have hfirst : Whole [c] := .of_inert (List.forall_mem_singleton.mpr hc.1)
  have hwhole := (hfirst.append hlabel).append (Whole.grouped (.intercalate hcomma h))
  have hform : enclosedText opening parts = c :: ((label ++ '(' :: listedText parts) ++ [')']) := by
    simp [enclosedText, hopening]
  rw [hform]
  refine .enclosed hc.2 (by decide) ?_
  simpa [listedText] using hwhole

theorem arguments_line (hgap : IsGap gap) (h : Standing p) (rest : List Char) :
    arguments (gap ++ (p ++ ',' :: rest)) =
      (arguments rest).map fun (more, after) => (p :: more, after) := by
  rw [arguments_gap hgap, arguments_comma h.whole, h.trim]

/-- A row that others follow. -/
theorem arguments_row (hne : parts ≠ []) (h : ∀ p ∈ parts, Standing p) (rest : List Char) :
    arguments (listedText parts ++ ',' :: rest) =
      (arguments rest).map fun (more, after) => (parts ++ more, after) := by
  induction parts with
  | nil => exact absurd rfl hne
  | cons p parts ih =>
    obtain ⟨hp, hmore⟩ := List.forall_mem_cons.mp h
    cases parts with
    | nil =>
      rw [listedText, List.intercalate_singleton]
      exact arguments_line Header.isGap_nil hp rest
    | cons next parts =>
      have hnext := ih (List.cons_ne_nil next parts) hmore
      rw [listedText, List.intercalate_cons_cons, List.append_assoc, List.append_assoc,
        List.cons_append, arguments_comma hp.whole, hp.trim, arguments_gap Header.isGap_blank]
      rw [listedText] at hnext
      rw [hnext, Option.map_map]
      rfl

/-- Rows on lines of their own. -/
theorem arguments_rows (hne : rows ≠ []) (h : ∀ row ∈ rows, row ≠ [] ∧ ∀ p ∈ row, Standing p) :
    arguments ([',', '\n'].intercalate (rows.map fun row => ' ' :: ' ' :: listedText row) ++
      ['\n', ')']) = some (rows.flatten, []) := by
  have hmargin : IsGap [' ', ' '] := by decide
  have hbreak : IsGap ['\n'] := by decide
  induction rows with
  | nil => exact absurd rfl hne
  | cons row rows ih =>
    obtain ⟨⟨hrow, hstanding⟩, hmore⟩ := List.forall_mem_cons.mp h
    cases rows with
    | nil =>
      have hlast := arguments_written Header.isGap_blank hbreak hrow
        (fun p hp => (hstanding p hp).whole) []
      rw [Header.map_trim hstanding] at hlast
      rw [List.map_singleton, List.intercalate_singleton, List.flatten_singleton]
      exact (arguments_gap hmargin _).trans hlast
    | cons next rows =>
      have hnext := ih (List.cons_ne_nil next rows) hmore
      rw [List.map_cons] at hnext
      rw [List.map_cons, List.map_cons, List.intercalate_cons_cons, List.append_assoc,
        List.append_assoc]
      refine (arguments_gap hmargin _).trans ((arguments_row hrow hstanding _).trans ?_)
      exact congrArg _ ((arguments_gap hbreak _).trans hnext)

theorem toList_cellRow (cells : List String) :
    (cellRow cells).toList = listedText (cells.map String.toList) := String.toList_intercalate

/-- The rows of a table that have cells, as arguments. -/
def shownRows (body : List (List String)) : List (List (List Char)) :=
  (body.filter fun row => !row.isEmpty).map fun row => row.map fun cell => bracketed cell.toList

theorem flatten_shownRows (body : List (List String)) :
    (shownRows body).flatten = body.flatten.map fun cell => bracketed cell.toList := by
  rw [shownRows, ← List.map_flatten, List.flatten_filter_not_isEmpty]

/-- What follows the header: rows, if there are any. -/
def tailText (rows : List (List (List Char))) : List Char :=
  if rows = [] then ['\n', ')']
  else '\n' :: ([',', '\n'].intercalate (rows.map fun row => ' ' :: ' ' :: listedText row) ++
    ['\n', ')'])

/-- An argument on a line of its own, with more behind it. -/
def lineText (opening : String) (parts : List (List Char)) (rest : List Char) : List Char :=
  '\n' :: ' ' :: ' ' :: (enclosedText opening parts ++ ',' :: rest)

theorem arguments_lineText {opening : String} (h : Standing (enclosedText opening parts))
    (rest : List Char) :
    arguments (lineText opening parts rest) =
      (arguments rest).map fun (more, after) => (enclosedText opening parts :: more, after) := by
  have hgap : IsGap ['\n', ' ', ' '] := by decide
  exact arguments_line hgap h rest

theorem arguments_tailText (h : ∀ row ∈ rows, row ≠ [] ∧ ∀ p ∈ row, Standing p) :
    ∃ parts, arguments (tailText rows) = some (parts, []) ∧
      ∀ lead, settled (lead ++ parts) = lead ++ rows.flatten := by
  rw [tailText]
  split_ifs with hrows
  · -- Without rows the comma behind the header is the last, and the argument after it is empty.
    subst hrows
    refine ⟨[[]], by decide, fun lead => ?_⟩
    simp [settled]
  · have hbreak : IsGap ['\n'] := by decide
    have hread := (arguments_gap hbreak _).trans (arguments_rows hrows h)
    refine ⟨rows.flatten, hread, settled_append ?_ fun p hp => ?_⟩
    · obtain ⟨row, hrow⟩ := List.exists_mem_of_ne_nil rows hrows
      exact fun hnone => (h row hrow).1 (List.flatten_eq_nil_iff.mp hnone row hrow)
    · obtain ⟨row, hrow, hp⟩ := List.mem_flatten.mp hp
      exact ((h row hrow).2 p hp).nonempty

theorem toList_tableMarkup (align head : List String) (body : List (List String)) :
    (tableMarkup align head body).toList = "#table(".toList ++
      lineText "columns: (" (head.map fun _ => "1fr".toList)
        (lineText "align: (" (align.map String.toList)
          (lineText "table.header(" (head.map fun cell => starred cell.toList)
            (tailText (shownRows body)))) := by
  have hheader : (head.map fun cell => "[*" ++ cell ++ "*]").map String.toList =
      head.map fun cell => starred cell.toList := by
    rw [List.map_map]
    refine List.map_congr_left fun cell _ => ?_
    simp [starred, bracketed]
  have hrows (kept : List (List String)) : (String.intercalate ",\n" (kept.map fun row =>
      "  " ++ cellRow (row.map fun cell => "[" ++ cell ++ "]"))).toList =
        [',', '\n'].intercalate ((kept.map fun row => row.map fun cell => bracketed cell.toList).map
          fun row => ' ' :: ' ' :: listedText row) := by
    rw [String.toList_intercalate, List.map_map, List.map_map]
    refine congrArg _ (List.map_congr_left fun row _ => ?_)
    simp [toList_cellRow, bracketed, Function.comp_def]
  rw [tableMarkup]
  generalize hkept : (body.filter fun row => !row.isEmpty) = kept
  rw [shownRows, hkept]
  cases kept with
  | nil => simp [lines, lineText, enclosedText, toList_cellRow, tailText, hheader]
  | cons row kept =>
    have hsome : (row :: kept).map (fun row => row.map fun cell => bracketed cell.toList) ≠ [] :=
      List.cons_ne_nil _ _
    have hfirst := hrows (row :: kept)
    rw [tailText, if_neg hsome, ← hfirst]
    simp [lines, lineText, enclosedText, toList_cellRow, hheader]

/-- The call of a table is read back as what it was made of. -/
theorem isTableCall_tableMarkup {align head : List String} {body : List (List String)}
    (halign : align ≠ []) (hwords : ∀ name ∈ align, name.toList ≠ [] ∧ name.toList.all isWordChar)
    (hne : head ≠ []) (hhead : ∀ cell ∈ head, Closed .content cell)
    (hbody : ∀ row ∈ body, ∀ cell ∈ row, Closed .content cell) :
    IsTableCall (tableMarkup align head body).toList (head.map fun _ => "1fr".toList)
      (align.map String.toList) (head.map fun cell => starred cell.toList)
      (body.flatten.map fun cell => bracketed cell.toList) := by
  have hrows : ∀ row ∈ shownRows body, row ≠ [] ∧ ∀ p ∈ row, Standing p := by
    refine List.forall_mem_map.mpr fun row hrow => ?_
    obtain ⟨hmem, hsome⟩ := List.mem_filter.mp hrow
    refine ⟨by simpa using hsome, List.forall_mem_map.mpr fun cell hcell => ?_⟩
    exact standing_bracketed (hbody row hmem cell hcell)
  have hcolumns := List.forall_mem_map.mpr fun (cell : String) (_ : cell ∈ head) =>
    (nested_word (by decide) : Nested "1fr".toList)
  have haligns := List.forall_mem_map.mpr fun name hname => nested_word (hwords name hname).2
  have hheads := List.forall_mem_map.mpr fun cell hcell =>
    nested_starred (hhead cell hcell)
  have hfirst : "columns: (".toList = 'c' :: ("olumns: ".toList ++ ['(']) := rfl
  have hsecond : "align: (".toList = 'a' :: ("lign: ".toList ++ ['(']) := rfl
  have hthird : "table.header(".toList = 't' :: ("able.header".toList ++ ['(']) := rfl
  obtain ⟨parts, hparts, hsettled⟩ := arguments_tailText hrows
  refine ⟨_, _, _, ?_, argumentsIn_enclosedText "columns: (" ?_ ?_,
    argumentsIn_enclosedText "align: (" ?_ ?_, argumentsIn_enclosedText "table.header(" ?_ ?_⟩
  · rw [toList_tableMarkup, argumentsIn, Text.after?_append, Option.bind_some,
      arguments_lineText (standing_enclosedText hfirst (by decide) (by decide) hcolumns),
      arguments_lineText (standing_enclosedText hsecond (by decide) (by decide) haligns),
      arguments_lineText (standing_enclosedText hthird (by decide) (by decide) hheads), hparts,
      ← flatten_shownRows]
    exact congrArg some (hsettled [_, _, _])
  · simpa using hne
  · exact List.forall_mem_map.mpr fun _ _ => standing_word (by decide) (by decide)
  · simpa using halign
  · exact List.forall_mem_map.mpr fun name hname => standing_word (hwords name hname).1
      (hwords name hname).2
  · simpa using hne
  · exact List.forall_mem_map.mpr fun cell hcell => standing_starred (hhead cell hcell)

end Call

section Cells

variable {env : Environment} {active : List String} {definitions : Targets Definition}
  {indent : Int} {token header cell : Value} {tokens body : List Value} {texts : List String}
  {align head : List String} {shownBody : List (List String)} {call : List Char} {columns : Nat}

/-- An inline that may stand in a cell: neither a formula nor a reference to a footnote. -/
def Tabular (token : Value) : Prop :=
  ∃ kind ∈ inlineTypes, nameOf token = some kind ∧ kind ∉ ["footnote_ref", "inline_math"]

/-- A table of cells of such inlines, with a header that has cells. -/
structure Filled (token header : Value) (body : List Value) : Prop where
  tree : Tree Finished token
  kind : nameOf token = some "table"
  rows : listed token = header :: body
  columns : listed header ≠ []
  cells : ∀ row ∈ header :: body, ∀ cell ∈ listed row, ∀ t ∈ listed cell, t.Everywhere Tabular

/-- What a cell is rendered to. -/
def ShownAs (env : Environment) (active : List String) (cell : Value) (text : String) : Prop :=
  (inlinesBelow env active cell).outcome = .ok text

theorem shown_of_tabular (htree : Tree Finished token) (h : token.Everywhere Tabular) :
    Shown definitions token := by
  have hother : ∀ kind ∈ inlineTypes, kind ≠ "paragraph" ∧ kind ≠ "table" := by decide
  refine ⟨htree, fun t ht => ?_⟩
  obtain ⟨kind, hkind, hname, hplain⟩ := h t ht
  rw [List.mem_pair, not_or] at hplain
  refine ⟨?_, ?_, ?_⟩ <;> rw [hname]
  · exact fun he => hplain.1 (Option.some.inj he)
  · exact fun he => absurd (Option.some.inj he) (hother kind hkind).1
  · exact fun he => absurd (Option.some.inj he) (hother kind hkind).2

theorem bracketable_of_tabular (htree : Tree Finished token) (h : token.Everywhere Tabular) :
    token.Everywhere Bracketable := by
  have hother : ∀ kind ∈ inlineTypes, kind ≠ "block_math" ∧ kind ≠ "block_code" := by decide
  intro t ht
  obtain ⟨kind, hkind, hname, hplain⟩ := h t ht
  have hhere := (htree.everywhere_tree t ht).regular
  rw [List.mem_pair, not_or] at hplain
  refine ⟨kind, ?_, ?_, fun _ => ⟨_, hhere.raw_text⟩, fun hc => ?_⟩
  · rw [hhere.kind_text, hname]
    rfl
  · simp [hplain, (hother kind hkind).1]
  · exact absurd hc (hother kind hkind).2

/-- A cell is rendered to text that opens and closes nothing. -/
theorem exists_cell (hd : Addressed env.definitions) (htree : Tree Finished cell)
    (hname : nameOf cell = some "table_cell") (h : ∀ t ∈ listed cell, t.Everywhere Tabular) :
    ∃ text, ShownAs env active cell text ∧ Closed .content text := by
  have hshown : ∀ t ∈ listed cell, Shown env.definitions t :=
    fun t ht => shown_of_tabular (htree.listed t ht) (h t ht)
  obtain ⟨text, htext⟩ := ((telling_inductive hd).holds.inlines active _ hshown
    (htree.ofTypes hname rfl)).ends
  have hbracketable : ∀ t ∈ listed cell, t.Everywhere Bracketable :=
    fun t ht => bracketable_of_tabular (htree.listed t ht) (h t ht)
  refine ⟨text, ?_, (bracketing_inductive env).holds.inlines active _ hbracketable text htext⟩
  rw [ShownAs, inlinesBelow_of_children htree.children_eq]
  exact htext

/-- A row and what its cells are rendered to. -/
structure RowShown (env : Environment) (active : List String) (row : Value) (texts : List String) :
    Prop where
  tree : Tree Finished row
  shown : List.Forall₂ (ShownAs env active) (listed row) texts
  closed : ∀ text ∈ texts, Closed .content text

theorem Filled.exists_row {row : Value} (h : Filled token header body)
    (hd : Addressed env.definitions) (hrow : row ∈ header :: body) :
    ∃ texts, RowShown env active row texts := by
  rw [← h.rows] at hrow
  have htree := h.tree.listed row hrow
  have hcells := htree.ofTypes ((h.tree.ofTypes h.kind rfl).name_eq hrow) rfl
  have hall : ∀ cell ∈ listed row, ∃ text, ShownAs env active cell text ∧ Closed .content text := by
    intro cell hcell
    exact exists_cell hd (htree.listed cell hcell) (hcells.name_eq hcell)
      (h.cells row (h.rows ▸ hrow) cell hcell)
  obtain ⟨texts, htexts⟩ := exists_forall₂ hall
  refine ⟨texts, htree, htexts.imp fun _ _ hcell => hcell.1, fun text htext => ?_⟩
  obtain ⟨cell, -, hcell⟩ := exists_of_mem_right htexts htext
  exact hcell.2

theorem cells_outcome (h : List.Forall₂ (ShownAs env active) tokens texts) :
    (cells env active tokens).outcome = .ok texts := by
  induction h with
  | nil =>
    rw [cells]
    rfl
  | cons hcell _ ih =>
    rw [cells, Rendering.bind_of_ok hcell, Rendering.bind_of_ok ih]
    rfl

theorem RowShown.outcome (h : RowShown env active token texts) :
    (row env active token).outcome = .ok texts := by
  rw [row_eq h.tree]
  exact cells_outcome h.shown

theorem rows_outcome (h : List.Forall₂ (RowShown env active) tokens shownBody) :
    (rows env active tokens).outcome = .ok shownBody := by
  induction h with
  | nil =>
    rw [rows]
    rfl
  | cons hrow _ ih =>
    rw [rows, Rendering.bind_of_ok hrow.outcome, Rendering.bind_of_ok ih]
    rfl

/-- How the columns of a table are aligned. -/
def columnAligns (token : Value) (columns : Nat) : List String :=
  (List.range columns).map (columnAlign (listedAlign token))

theorem table_outcome (h : Filled token header body)
    (hhead : (row env active header).outcome = .ok head)
    (hbody : (rows env active body).outcome = .ok shownBody) :
    (table env active token indent).outcome = .ok (some (Markup.indent
      (tableMarkup (columnAligns token (listed header).length) head shownBody) indent)) := by
  have hheader := h.tree.listed header (h.rows ▸ List.mem_cons_self ..)
  have hcount : (Value.list (listed header)).count = .ok (listed header).length := rfl
  have hpos : (listed header).length ≠ 0 := List.length_eq_zero_iff.not.mpr h.columns
  rw [table_of_rows (h.tree.rowsOf_eq.trans (congrArg _ h.rows)),
    Rendering.lift_bind_of_ok hheader.childrenField_eq, Rendering.lift_bind_of_ok hcount,
    if_neg hpos, Rendering.lift_bind_of_ok (h.tree.alignments_eq hpos), Rendering.bind_of_ok hhead,
    Rendering.bind_of_ok hbody]
  rfl

theorem columnAlign_mem (declared : List Value) (column : Nat) :
    columnAlign declared column ∈ ["left", "center", "right"] := by
  unfold columnAlign
  split <;> decide

theorem columnAligns_words {columns : Nat} :
    ∀ name ∈ columnAligns token columns, name.toList ≠ [] ∧ name.toList.all isWordChar := by
  have hwords : ∀ name ∈ ["left", "center", "right"],
      name.toList ≠ [] ∧ name.toList.all isWordChar := by decide
  exact List.forall_mem_map.mpr fun column _ => hwords _ (columnAlign_mem _ column)

/-- None of the words of a table is changed by indentation. -/
theorem indented_word {levels : Nat} {name : String}
    (h : name ∈ ["1fr", "left", "center", "right"]) :
    indented levels name.toList = name.toList := by
  simp only [List.mem_cons, List.not_mem_nil, or_false] at h
  rcases h with rfl | rfl | rfl | rfl <;> rfl

theorem indented_bracketed (levels : Nat) (cell : List Char) :
    indented levels (bracketed cell) = bracketed (indented levels cell) := by
  rw [bracketed, indented_of_ne levels (by decide), indented_concat levels (by decide), bracketed]

theorem indented_starred (levels : Nat) (cell : List Char) :
    indented levels (starred cell) = starred (indented levels cell) := by
  rw [starred, indented_bracketed, indented_of_ne levels (by decide),
    indented_concat levels (by decide), starred]

theorem isTableCall_indented_words (hcall : IsTableCall call (head.map fun _ => "1fr".toList)
      ((columnAligns token columns).map String.toList) (head.map fun cell => starred cell.toList)
      (texts.map fun cell => bracketed cell.toList)) (levels : Nat) :
    IsTableCall (indented levels call) (List.replicate head.length "1fr".toList)
      ((columnAligns token columns).map String.toList)
      (head.map fun cell => starred (indented levels cell.toList))
      (texts.map fun cell => bracketed (indented levels cell.toList)) := by
  have hindented := isTableCall_indented hcall levels
  have hwidths : (head.map fun _ => "1fr".toList).map (indented levels) =
      List.replicate head.length "1fr".toList := by
    rw [List.map_map, ← List.map_const']
    exact List.map_congr_left fun _ _ => indented_word (by decide)
  have haligns : ((columnAligns token columns).map String.toList).map (indented levels) =
      (columnAligns token columns).map String.toList := by
    rw [List.map_map]
    refine List.map_congr_left fun name hname => ?_
    obtain ⟨column, -, rfl⟩ := List.mem_map.mp hname
    exact indented_word (List.mem_cons_of_mem _ (columnAlign_mem _ column))
  rw [hwidths, haligns, List.map_map, List.map_map] at hindented
  simpa only [Function.comp_def, indented_starred, indented_bracketed] using hindented

/-- A table keeps every cell in its place. Its call gives one width for each column, one alignment,
as declared or to the left, and then the cells, those of the header apart and strong, the others
row by row. At a level of indentation the lines of each cell are pushed in with the call. -/
theorem table_keeps_cells (hd : Addressed env.definitions) (h : Filled token header body) :
    (∀ name ∈ columnAligns token (listed header).length, name ∈ ["left", "center", "right"]) ∧
    ∃ head cells text call,
      List.Forall₂ (ShownAs env active) (listed header) head ∧
      List.Forall₂ (ShownAs env active) (body.flatMap listed) cells ∧
      (block env active token indent).outcome = .ok (some text) ∧
      text.toList = margin indent.toNat ++ call ∧
      IsTableCall call (List.replicate (listed header).length "1fr".toList)
        ((columnAligns token (listed header).length).map String.toList)
        (head.map fun cell => starred (indented indent.toNat cell.toList))
        (cells.map fun cell => bracketed (indented indent.toNat cell.toList)) := by
  have hrow : ∀ row ∈ header :: body, ∃ texts, RowShown env active row texts :=
    fun row => h.exists_row hd
  obtain ⟨⟨head, hhead⟩, hmore⟩ := List.forall_mem_cons.mp hrow
  obtain ⟨shownBody, hbody⟩ := exists_forall₂ hmore
  have hlength : (listed header).length = head.length := hhead.shown.length_eq
  have hne : head ≠ [] := by
    rw [← List.length_pos_iff, ← hlength]
    exact List.length_pos_iff.mpr h.columns
  have hcells : List.Forall₂ (ShownAs env active) (body.flatMap listed) shownBody.flatten := by
    rw [List.flatMap_def]
    exact List.rel_flatten (List.forall₂_map_left_iff.mpr (hbody.imp fun _ _ hr => hr.shown))
  have hclosed : ∀ row ∈ shownBody, ∀ cell ∈ row, Closed .content cell := by
    intro row hmem
    obtain ⟨_, -, hr⟩ := exists_of_mem_right hbody hmem
    exact hr.closed
  have hkind : Token.kind token = .ok (.str "table") := by
    rw [h.tree.regular.kind_text, h.kind]
    rfl
  have halign : columnAligns token (listed header).length ≠ [] := by
    simpa [columnAligns] using h.columns
  have hblock : (block env active token indent).outcome = .ok (some (Markup.indent
      (tableMarkup (columnAligns token (listed header).length) head shownBody) indent)) := by
    rw [block_eq_some_iff hkind rfl, blockOf]
    exact table_outcome h hhead.outcome (rows_outcome hbody)
  have hcall := isTableCall_tableMarkup halign columnAligns_words hne hhead.closed hclosed
  refine ⟨List.forall_mem_map.mpr fun column _ => columnAlign_mem _ column, head,
    shownBody.flatten, _, _, hhead.shown, hcells, hblock, toList_indent _ _, ?_⟩
  rw [hlength] at hcall ⊢
  exact isTableCall_indented_words hcall indent.toNat

/-- A cell of a word. -/
def wordCell (s : String) : Value := markedBranch "table_cell" [] [text s]

/-- A row of words. -/
def wordRow (cells : List String) : Value := markedBranch "table_row" [] (cells.map wordCell)

/-- A table of words, whose columns are aligned by declaration. -/
def wordTable (align : List Value) (rows : List (List String)) : Value :=
  markedBranch "table" [("align", .list align)] (rows.map wordRow)

theorem tree_wordCell (s : String) : Tree Finished (wordCell s) :=
  tree_markedBranch fit_nil (List.forall_mem_singleton.mpr ⟨"text", by decide, rfl⟩)
    (List.forall_mem_singleton.mpr (tree_leaf s rfl))

theorem tree_wordRow (words : List String) : Tree Finished (wordRow words) :=
  tree_markedBranch fit_nil
    (List.forall_mem_map.mpr fun _ _ => ⟨"table_cell", by decide, rfl⟩)
    (List.forall_mem_map.mpr fun s _ => tree_wordCell s)

theorem fit_align {declared : List Value} (h : ∀ a ∈ declared, Value.IsText? a) :
    Fit [("align", .list declared)] := by
  refine ⟨⟨?_, ?_, ?_⟩, ?_, ?_, ?_, ?_, ?_⟩ <;> simp
  exact h

theorem filled_wordTable {declared : List Value} (hdeclared : ∀ a ∈ declared, Value.IsText? a)
    {first : List String} (hne : first ≠ []) (more : List (List String)) :
    Filled (wordTable declared (first :: more)) (wordRow first) (more.map wordRow) where
  tree := tree_markedBranch (fit_align hdeclared)
    (List.forall_mem_map.mpr fun _ _ => ⟨"table_row", by decide, rfl⟩)
    (List.forall_mem_map.mpr fun words _ => tree_wordRow words)
  kind := rfl
  rows := rfl
  columns h := hne (List.map_eq_nil_iff.mp h)
  cells := by
    have hrow (words : List String) :
        ∀ cell ∈ words.map wordCell, ∀ t ∈ listed cell, t.Everywhere Tabular :=
      List.forall_mem_map.mpr fun s _ => List.forall_mem_singleton.mpr
        (Value.everywhere_leaf ⟨"text", by decide, rfl, by decide⟩)
    exact List.forall_mem_cons.mpr ⟨hrow first, List.forall_mem_map.mpr fun words _ => hrow words⟩

theorem shownAs_wordCell (s : String) : ShownAs env active (wordCell s) (Markup.escape s) := by
  have hchildren : (wordCell s).children = .ok [text s] := rfl
  rw [ShownAs, inlinesBelow_of_children hchildren]
  exact inlines_singleton (inline_literal (rfl : inlineKind? "text" = some .text) s)

theorem eq_escape_of_shownAs {words : List String}
    (h : List.Forall₂ (ShownAs env active) (words.map wordCell) texts) :
    texts = words.map Markup.escape := by
  induction words generalizing texts with
  | nil =>
    cases h
    rfl
  | cons s words ih =>
    obtain _ | ⟨hcell, hmore⟩ := h
    rw [List.map_cons, ih hmore, Except.ok.inj (hcell.symm.trans (shownAs_wordCell s))]

/-- A comma and brackets in cells, a row without cells and one that is too short. -/
theorem table_keeps_cells_uneven :
    ∃ call, (block { convertMath := .ok } [] (wordTable [.str "center", .str "middle"]
        [["a,", "b"], [], ["])"]]) 0).outcome = .ok (some (String.ofList call)) ∧
      IsTableCall call ["1fr".toList, "1fr".toList] ["center".toList, "left".toList]
        ["[*a,*]".toList, "[*b*]".toList] ["[\\])]".toList] := by
  have hd : Addressed [] := List.forall_mem_nil _
  have hdeclared : ∀ a ∈ [Value.str "center", .str "middle"], Value.IsText? a := by
    simp [Value.isText?_str]
  obtain ⟨-, head, cells, text, call, hhead, hcells, hblock, htext, hcall⟩ :=
    @table_keeps_cells { convertMath := .ok } [] 0 _ _ _ hd
      (filled_wordTable hdeclared (List.cons_ne_nil "a," ["b"]) [[], ["])"]])
  rw [eq_escape_of_shownAs hhead] at hcall
  rw [@eq_escape_of_shownAs _ _ _ ["])"] hcells] at hcall
  have hwhole : String.ofList call = text := by
    rw [← String.toList_inj, String.toList_ofList]
    exact htext.symm
  exact ⟨call, hwhole ▸ hblock, hcall⟩

end Cells

end Typeset.Table
