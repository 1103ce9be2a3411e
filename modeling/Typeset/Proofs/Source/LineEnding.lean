import Mathlib
import Typeset.Proofs.Conversion.Total
import Typeset.Proofs.Source.Parts
import Typeset.Proofs.Text.Lines
import Typeset.Proofs.Text.Trim

/-! A document whose lines end in a carriage return and a line feed is read as with line feeds
alone: only the text of its metadata block still shows which. -/

namespace Typeset.Text

variable {c : Char} {cs ds p : List Char} {ls : List (List Char)}

/-- A text with a carriage return before each line feed. -/
def withReturns (cs : List Char) : List Char :=
  cs.flatMap fun c => if c = '\n' then ['\r', '\n'] else [c]

@[simp] theorem withReturns_nil : withReturns [] = [] := rfl

@[simp] theorem withReturns_newline :
    withReturns ('\n' :: cs) = '\r' :: '\n' :: withReturns cs := rfl

theorem withReturns_cons (h : c ≠ '\n') : withReturns (c :: cs) = c :: withReturns cs := by
  rw [withReturns, List.flatMap_cons, if_neg h, List.singleton_append, ← withReturns]

theorem withReturns_append : withReturns (cs ++ ds) = withReturns cs ++ withReturns ds :=
  List.flatMap_append

theorem withReturns_flatten : withReturns ls.flatten = (ls.map withReturns).flatten := by
  induction ls with
  | nil => rfl
  | cons l ls ih => rw [List.flatten_cons, withReturns_append, ih, List.map_cons, List.flatten_cons]

theorem withReturns_eq_self (h : '\n' ∉ cs) : withReturns cs = cs := by
  induction cs with
  | nil => rfl
  | cons c cs ih =>
    rw [withReturns_cons (List.ne_of_not_mem_cons h).symm, ih (List.not_mem_of_not_mem_cons h)]

theorem newline_mem_withReturns (h : '\n' ∈ cs) : '\n' ∈ withReturns cs :=
  List.mem_flatMap.mpr ⟨'\n', h, by simp⟩

theorem withReturns_eq_iff (h : '\n' ∉ ds) : withReturns cs = ds ↔ cs = ds := by
  refine ⟨fun he => ?_, fun he => he ▸ withReturns_eq_self (he ▸ h)⟩
  by_cases hc : '\n' ∈ cs
  · exact absurd (he ▸ newline_mem_withReturns hc) h
  · rw [← he, withReturns_eq_self hc]

section Trim

theorem dropWhile_withReturns :
    (withReturns cs).dropWhile isBlank = withReturns (cs.dropWhile isBlank) := by
  induction cs with
  | nil => rfl
  | cons c cs ih =>
    by_cases hc : c = '\n'
    · subst hc
      exact ih
    · rw [withReturns_cons hc, List.dropWhile_cons, List.dropWhile_cons]
      split
      · exact ih
      · rw [withReturns_cons hc]

theorem trimRight_withReturns :
    trimRight isBlank (withReturns cs) = withReturns (trimRight isBlank cs) := by
  induction cs using List.reverseRecOn with
  | nil => rfl
  | append_singleton cs c ih =>
    rw [withReturns_append, trimRight_concat]
    by_cases hc : c = '\n'
    · subst hc
      have hends : withReturns ['\n'] = ['\r'] ++ ['\n'] := rfl
      have hr : isBlank '\r' = true := rfl
      have hn : isBlank '\n' = true := rfl
      rw [hends, ← List.append_assoc, trimRight_concat, if_pos hn, trimRight_concat, if_pos hr,
        if_pos hn, ih]
    · have hone : withReturns [c] = [c] := withReturns_cons hc
      rw [hone, trimRight_concat]
      split
      · exact ih
      · rw [withReturns_append, hone]

theorem trim_withReturns : trim isBlank (withReturns cs) = withReturns (trim isBlank cs) := by
  rw [trim, dropWhile_withReturns, trimRight_withReturns, trim]

end Trim

section Lines

theorem linesWithEnds_withReturns (h : '\r' ∉ cs) :
    linesWithEnds (withReturns cs) = (linesWithEnds cs).map withReturns := by
  induction cs with
  | nil => rfl
  | cons c cs ih =>
    have htail := ih (List.not_mem_of_not_mem_cons h)
    by_cases hc : c = '\n'
    · subst hc
      have hone : linesWithEnds ('\n' :: cs) = ['\n'] :: linesWithEnds cs :=
        @linesWithEnds_append_newline [] cs (List.forall_mem_nil _)
      rw [hone, List.map_cons, ← htail]
      rfl
    · have hr : c ≠ '\r' := (List.ne_of_not_mem_cons h).symm
      rw [withReturns_cons hc, linesWithEnds.eq_def, linesWithEnds.eq_def (c :: cs)]
      by_cases hb : isLineBreak c = true
      · simp [hr, hb, htail, withReturns_cons hc]
      · cases hl : linesWithEnds cs <;> simp [hr, hb, htail, hl, withReturns_cons hc]

theorem dropEnd_withReturns : dropEnd (withReturns cs) = dropEnd cs := by
  induction cs with
  | nil => rfl
  | cons c cs ih =>
    by_cases hc : c = '\n'
    · subst hc
      rfl
    · rw [withReturns_cons hc, dropEnd, dropEnd, ih]

theorem lines_withReturns (h : '\r' ∉ cs) : lines (withReturns cs) = lines cs := by
  rw [lines, linesWithEnds_withReturns h, List.map_map]
  exact List.map_congr_left fun l _ => dropEnd_withReturns

end Lines

/-- A line is met whole, whichever way it ends. -/
theorem startsWith_withReturns (hp : '\n' ∉ p) (hr : '\r' ∉ p) (h : '\r' ∉ cs) :
    startsWith (p ++ ['\n']) (withReturns cs) = false ∧
      startsWith (p ++ ['\r', '\n']) (withReturns cs) = startsWith (p ++ ['\n']) cs ∧
      startsWith (p ++ ['\r', '\n']) cs = false := by
  induction cs generalizing p with
  | nil => cases p <;> exact ⟨rfl, rfl, rfl⟩
  | cons c cs ih =>
    have hc : '\r' ≠ c := List.ne_of_not_mem_cons h
    cases p with
    | nil =>
      by_cases hn : c = '\n'
      · subst hn
        simp [startsWith, List.isPrefixOf]
      · have hne : ('\n' == c) = false := beq_eq_false_iff_ne.mpr (Ne.symm hn)
        have hre : ('\r' == c) = false := beq_eq_false_iff_ne.mpr hc
        simp [startsWith, withReturns_cons hn, hne, hre, List.isPrefixOf]
    | cons a p =>
      have ha : (a == '\n') = false := beq_eq_false_iff_ne.mpr (List.ne_of_not_mem_cons hp).symm
      have har : (a == '\r') = false := beq_eq_false_iff_ne.mpr (List.ne_of_not_mem_cons hr).symm
      obtain ⟨h1, h2, h3⟩ := ih (List.not_mem_of_not_mem_cons hp) (List.not_mem_of_not_mem_cons hr)
        (List.not_mem_of_not_mem_cons h)
      simp only [startsWith] at h1 h2 h3 ⊢
      by_cases hn : c = '\n'
      · subst hn
        simp [ha, har, List.isPrefixOf]
      · rw [withReturns_cons hn]
        simp [h1, h2, h3, List.isPrefixOf]

end Typeset.Text

namespace Typeset.Source

open Text Token Failure Rendering

variable {line source : List Char} {ls : List (List Char)}

theorem endsBlock_withReturns : endsBlock (withReturns line) = endsBlock line := by
  have hdashes := @withReturns_eq_iff (trim isBlank line) ['-', '-', '-'] (by decide)
  have hdots := @withReturns_eq_iff (trim isBlank line) ['.', '.', '.'] (by decide)
  rw [Bool.eq_iff_iff]
  simp only [endsBlock, trim_withReturns, Bool.or_eq_true, beq_iff_eq, hdashes, hdots]

theorem untilEnd_withReturns :
    untilEnd (ls.map withReturns) =
      (untilEnd ls).map fun (block, after) => (block.map withReturns, after.map withReturns) := by
  induction ls with
  | nil => rfl
  | cons l ls ih =>
    rw [List.map_cons, untilEnd, untilEnd, endsBlock_withReturns, ih]
    split
    · rfl
    · rw [Option.map_map, Option.map_map]
      rfl

theorem opensBlock_withReturns (h : '\r' ∉ source) :
    opensBlock (withReturns source) = opensBlock source := by
  obtain ⟨h1, h2, h3⟩ := @startsWith_withReturns source ['-', '-', '-'] (by decide) (by decide) h
  simp only [List.cons_append, List.nil_append] at h1 h2 h3
  rw [opensBlock, opensBlock, h1, h2, h3, Bool.false_or, Bool.or_false]

theorem splitFrontMatter_withReturns (h : '\r' ∉ source) :
    splitFrontMatter (withReturns source) =
      ((splitFrontMatter source).1.map withReturns, withReturns (splitFrontMatter source).2) := by
  rw [splitFrontMatter, splitFrontMatter, opensBlock_withReturns h, linesWithEnds_withReturns h,
    ← List.map_drop, untilEnd_withReturns]
  split
  · cases untilEnd ((linesWithEnds source).drop 1) with
    | none => rfl
    | some found => simp [withReturns_flatten]
  · rfl

theorem mem_of_mem_untilEnd {block after : List (List Char)}
    (h : untilEnd ls = some (block, after)) : ∀ l ∈ after, l ∈ ls := by
  induction ls generalizing block with
  | nil => cases h
  | cons m ls ih =>
    rw [untilEnd] at h
    split at h
    · cases h
      exact fun l hl => List.mem_cons_of_mem m hl
    · obtain ⟨found, hfound, he⟩ := Option.map_eq_some_iff.mp h
      cases he
      exact fun l hl => List.mem_cons_of_mem m (ih hfound l hl)

theorem mem_of_mem_splitFrontMatter {c : Char} (h : c ∈ (splitFrontMatter source).2) :
    c ∈ source := by
  rw [splitFrontMatter] at h
  split at h
  · split at h
    · next block after hend =>
      obtain ⟨l, hl, hc⟩ := List.mem_flatten.mp h
      rw [← flatten_linesWithEnds source]
      exact List.mem_flatten.mpr ⟨l, List.mem_of_mem_drop (mem_of_mem_untilEnd hend l hl), hc⟩
    · exact h
  · exact h

theorem liftDefinitions_withReturns (h : '\r' ∉ source) :
    liftDefinitions (withReturns source) = liftDefinitions source := by
  rw [liftDefinitions, lines_withReturns h, liftDefinitions]

/-- The tokens of what is left of a document and of what was taken out of it. -/
def Lifted.tokensBy (read : List Char → List Value) (lifted : Lifted) :
    Except Failure (List Value) := do
  let body ← canonical lifted.known (read lifted.text)
  let notes ← lifted.notes.mapM fun note =>
    return note.token (← canonical lifted.known (read note.body.toList))
  return body ++ (lifted.links.map LinkDefinition.token ++ notes)

theorem tokensBy_eq {read : List Char → List Value} :
    tokensBy read source =
      (liftedFrom source).tokensBy read >>= fun body => .ok (frontTokens source ++ body) := by
  rw [tokensBy, Lifted.tokensBy, frontTokens, liftedFrom]
  simp only [bind_assoc, pure_bind, List.append_assoc]
  rfl

/-- The token of a metadata block, if there is one. -/
def blockTokens (block : Option (List Char)) : List Value :=
  (block.map fun raw => leaf "frontmatter" (String.ofList raw)).toList

/-- Whatever the reader of Markdown, the tokens are those of the same text and the same definitions.
Only the token of the metadata block holds its lines as they are. -/
theorem tokens_withReturns (h : '\r' ∉ source) :
    ∃ block rest,
      splitFrontMatter source = (block, rest) ∧
      splitFrontMatter (withReturns source) = (block.map withReturns, withReturns rest) ∧
      liftDefinitions (withReturns rest) = liftDefinitions rest ∧
      ∀ read, ∃ outcome : Except Failure (List Value),
        tokensBy read source = outcome.map (blockTokens block ++ ·) ∧
        tokensBy read (withReturns source) =
          outcome.map (blockTokens (block.map withReturns) ++ ·) ∧
        (IsReader read → ∃ body, outcome = .ok body) := by
  have hsplit := splitFrontMatter_withReturns h
  have hlift := liftDefinitions_withReturns fun hc => h (mem_of_mem_splitFrontMatter hc)
  have hlifted : liftedFrom (withReturns source) = liftedFrom source := by
    rw [liftedFrom, hsplit, hlift, liftedFrom]
  refine ⟨_, _, rfl, hsplit, hlift, fun read => ⟨(liftedFrom source).tokensBy read, ?_, ?_, ?_⟩⟩
  · exact tokensBy_eq
  · rw [tokensBy_eq, hlifted, frontTokens, hsplit]
    rfl
  · intro hread
    obtain ⟨tokens, htokens, -⟩ := tokensBy_gives hread source
    rw [tokensBy_eq] at htokens
    obtain ⟨body, hbody, -⟩ := exists_of_bind htokens
    exact ⟨body, hbody⟩

/-- A document with a metadata block, a definition and a shortcut to it. -/
def titled : List Char := "---\ntitle: A\n---\n[a]: /u\n\nhi [a]\n".toList

theorem tokens_withReturns_titled :
    '\r' ∉ titled ∧ (splitFrontMatter titled).1 = some "title: A\n".toList ∧
    (liftedFrom titled).links = [⟨"a", "/u", none⟩] ∧
    ∃ block body, Source.tokens titled = .ok (blockTokens block ++ body) ∧
      Source.tokens (withReturns titled) = .ok (blockTokens (block.map withReturns) ++ body) := by
  have hfree : '\r' ∉ titled := by decide
  obtain ⟨block, rest, -, -, -, hread⟩ := tokens_withReturns hfree
  obtain ⟨outcome, htokens, hreturns, hbody⟩ := hread Markdown.tokens
  obtain ⟨body, rfl⟩ := hbody Markdown.tokens_isReader
  exact ⟨hfree, by cbv, by cbv, block, body, htokens, hreturns⟩

end Typeset.Source
