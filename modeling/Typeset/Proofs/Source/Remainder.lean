import Typeset.Proofs.Source.Written
import Typeset.Proofs.Text.Lines

/-! What is left of a document holds nothing to take out: read again, each line that was kept is met
in the state in which it was kept. -/

namespace Typeset.Source

variable {fence : Option Line} {afterBlank : Bool} {line : Line} {ks ls rest : List Line}

theorem liftFrom_nil : liftFrom fence afterBlank [] = {} := by rw [liftFrom]

section Step

theorem noteStart?_of_head? (h : line.head? ≠ some '[') : noteStart? line = none := by
  unfold noteStart?
  split
  · exact absurd rfl h
  · rfl

theorem link?_of_head? (h : line.head? ≠ some '[') : link? line = none := by
  unfold link?
  split
  · exact absurd rfl h
  · rfl

/-- A line inside a fence is kept. -/
theorem liftFrom_inside (f : Line) :
    liftFrom (some f) afterBlank (line :: rest) =
      let later := liftFrom (if closesFence f line then none else some f) afterBlank rest
      { later with kept := line :: later.kept } := by
  rw [liftFrom]

/-- A line that opens a fence is kept. -/
theorem liftFrom_of_fence {f : Line} (hf : fence? line = some f) :
    liftFrom none afterBlank (line :: rest) =
      let later := liftFrom (some f) false rest
      { later with kept := line :: later.kept } := by
  rw [liftFrom]
  simp only [hf]

theorem liftFrom_of_note {identifier text : Line} (hf : fence? line = none)
    (hn : noteStart? line = some (identifier, text)) :
    liftFrom none afterBlank (line :: rest) =
      let body := text :: (continuation rest).1
      let later := liftFrom none true (continuation rest).2
      { later with
        kept := [] :: later.kept
        notes := ⟨String.ofList identifier, String.ofList (['\n'].intercalate body)⟩ ::
          later.notes } := by
  rw [liftFrom]
  simp only [hf, hn]

theorem liftFrom_of_link {link : LinkDefinition} (hf : fence? line = none)
    (hn : noteStart? line = none) (hl : (if afterBlank then link? line else none) = some link) :
    liftFrom none afterBlank (line :: rest) =
      let later := liftFrom none afterBlank rest
      { later with kept := [] :: later.kept, links := link :: later.links } := by
  rw [liftFrom]
  simp only [hf, hn, hl]

/-- A link definition is only taken out behind a blank line. -/
theorem afterBlank_of_link {link : LinkDefinition}
    (hl : (if afterBlank then link? line else none) = some link) : afterBlank = true := by
  cases afterBlank with
  | true => rfl
  | false => cases hl

/-- A line that neither opens a fence nor holds a definition is kept. -/
theorem liftFrom_of_plain (hf : fence? line = none) (hn : noteStart? line = none)
    (hl : (if afterBlank then link? line else none) = none) :
    liftFrom none afterBlank (line :: rest) =
      let later := liftFrom none (line.all Text.isBlank) rest
      { later with kept := line :: later.kept } := by
  rw [liftFrom]
  simp only [hf, hn, hl]

/-- The empty line in the place of a definition leads to the state behind the definition. -/
theorem liftFrom_emptyLine :
    liftFrom none afterBlank ([] :: rest) =
      let later := liftFrom none true rest
      { later with kept := [] :: later.kept } := by
  refine liftFrom_of_plain rfl rfl ?_
  cases afterBlank <;> rfl

end Step

/-- The two readings go in step: both come to a kept line in the same state. Only the lines of a
footnote look ahead, and none of them is kept, so that a part of the kept lines is read like all. -/
theorem liftFrom_of_isPrefix_kept (h : ks <+: (liftFrom fence afterBlank ls).kept) :
    liftFrom fence afterBlank ks = { kept := ks } := by
  induction fence, afterBlank, ls using liftFrom.induct generalizing ks with
  | case1 fence afterBlank =>
    rw [liftFrom_nil] at h
    rw [List.prefix_nil.mp h, liftFrom_nil]
  | case2 afterBlank line rest f ih =>
    simp only [dite_eq_ite] at ih
    rw [liftFrom_inside] at h
    obtain rfl | ⟨ks, rfl, hk⟩ := List.prefix_cons_iff.mp h
    · exact liftFrom_nil
    · rw [liftFrom_inside, ih hk]
  | case3 afterBlank line rest f hf ih =>
    rw [liftFrom_of_fence hf] at h
    obtain rfl | ⟨ks, rfl, hk⟩ := List.prefix_cons_iff.mp h
    · exact liftFrom_nil
    · rw [liftFrom_of_fence hf, ih hk]
  | case4 afterBlank line rest hf identifier text hn ih =>
    rw [liftFrom_of_note hf hn] at h
    obtain rfl | ⟨ks, rfl, hk⟩ := List.prefix_cons_iff.mp h
    · exact liftFrom_nil
    · rw [liftFrom_emptyLine, ih hk]
  | case5 afterBlank line rest hf hn link hl ih =>
    rw [liftFrom_of_link hf hn hl] at h
    obtain rfl | ⟨ks, rfl, hk⟩ := List.prefix_cons_iff.mp h
    · exact liftFrom_nil
    · have hafter : afterBlank = true := afterBlank_of_link hl
      subst hafter
      rw [liftFrom_emptyLine, ih hk]
  | case6 afterBlank line rest hf hn hl ih =>
    rw [liftFrom_of_plain hf hn hl] at h
    obtain rfl | ⟨ks, rfl, hk⟩ := List.prefix_cons_iff.mp h
    · exact liftFrom_nil
    · rw [liftFrom_of_plain hf hn hl, ih hk]

theorem mem_of_mem_continuation (h : line ∈ (continuation ls).2) : line ∈ ls := by
  fun_induction continuation ls with
  | case1 => exact h
  | case2 first rest text ho body after hc ih =>
    rw [hc] at ih
    exact List.mem_cons_of_mem first (ih h)
  | case3 first rest ho hb body after hc ih =>
    rw [hc] at ih
    exact List.mem_cons_of_mem first (ih h)
  | case4 => exact h

/-- A line that is kept is one of the document, or empty. -/
theorem mem_of_mem_kept (h : line ∈ (liftFrom fence afterBlank ls).kept) :
    line = [] ∨ line ∈ ls := by
  induction fence, afterBlank, ls using liftFrom.induct with
  | case1 fence afterBlank =>
    rw [liftFrom_nil] at h
    cases h
  | case2 afterBlank first rest f ih =>
    rw [liftFrom_inside] at h
    obtain rfl | hm := List.mem_cons.mp h
    · exact .inr List.mem_cons_self
    · exact (ih hm).imp_right (List.mem_cons_of_mem first)
  | case3 afterBlank first rest f hf ih =>
    rw [liftFrom_of_fence hf] at h
    obtain rfl | hm := List.mem_cons.mp h
    · exact .inr List.mem_cons_self
    · exact (ih hm).imp_right (List.mem_cons_of_mem first)
  | case4 afterBlank first rest hf identifier text hn ih =>
    rw [liftFrom_of_note hf hn] at h
    obtain rfl | hm := List.mem_cons.mp h
    · exact .inl rfl
    · exact (ih hm).imp_right fun hm => List.mem_cons_of_mem first (mem_of_mem_continuation hm)
  | case5 afterBlank first rest hf hn link hl ih =>
    rw [liftFrom_of_link hf hn hl] at h
    obtain rfl | hm := List.mem_cons.mp h
    · exact .inl rfl
    · exact (ih hm).imp_right (List.mem_cons_of_mem first)
  | case6 afterBlank first rest hf hn hl ih =>
    rw [liftFrom_of_plain hf hn hl] at h
    obtain rfl | hm := List.mem_cons.mp h
    · exact .inr List.mem_cons_self
    · exact (ih hm).imp_right (List.mem_cons_of_mem first)

/-- What is left of a document comes apart into the lines that were kept, but for an empty one at
its end. -/
theorem lines_text (cs : List Char) :
    Text.lines (liftDefinitions cs).text = (liftDefinitions cs).kept ∨
      (liftDefinitions cs).kept = Text.lines (liftDefinitions cs).text ++ [[]] := by
  refine Text.lines_intercalate_unbroken fun line hline => ?_
  obtain rfl | hm := mem_of_mem_kept hline
  · exact List.forall_mem_nil _
  · exact Text.unbroken_of_mem_lines hm

/-- What is left of a document is left as it is when definitions are taken out again, but for one
line end behind it. -/
theorem lift_twice (cs : List Char) :
    (liftDefinitions (liftDefinitions cs).text).links = [] ∧
      (liftDefinitions (liftDefinitions cs).text).notes = [] ∧
      ((liftDefinitions cs).text = (liftDefinitions (liftDefinitions cs).text).text ∨
        (liftDefinitions cs).text =
          (liftDefinitions (liftDefinitions cs).text).text ++ ['\n']) := by
  have hlines := lines_text cs
  generalize hleft : (liftDefinitions cs).text = left at hlines ⊢
  have hprefix : Text.lines left <+: (liftDefinitions cs).kept := by
    obtain h | h := hlines
    · exact ⟨[], by rw [h, List.append_nil]⟩
    · exact ⟨[[]], h.symm⟩
  have hagain : liftDefinitions left = { kept := Text.lines left } :=
    liftFrom_of_isPrefix_kept hprefix
  have htext : (liftDefinitions left).text = ['\n'].intercalate (Text.lines left) := by
    rw [hagain, Lifted.text]
  refine ⟨by rw [hagain], by rw [hagain], ?_⟩
  rw [htext]
  rw [Lifted.text] at hleft
  obtain h | h := hlines
  · exact .inl (by rw [h, hleft])
  · rw [h] at hleft
    by_cases hne : Text.lines left = []
    · rw [hne] at hleft ⊢
      exact .inl hleft.symm
    · exact .inr (by rw [← Text.intercalate_append_emptyLine hne, hleft])

end Typeset.Source
