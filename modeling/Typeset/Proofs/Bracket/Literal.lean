import Typeset.Proofs.Bracket.Scan
import Typeset.Proofs.Markup.Rows
import Typeset.Render.Leaf

/-! Indentation opens and closes nothing, whatever it stands in: the blanks that it puts at the
beginning of a line are passed over in markup, raw text and string literals alike. -/

namespace Typeset.Bracket

section Indent

open Markup Scan

variable {s t : State} {frames : List Frame} {level : Int} {cs : List Char}

/-- Blanks change nothing here. -/
def State.Settled (s : State) : Prop := step s ' ' = some s

theorem settled_plain : State.Settled ⟨frames, .plain⟩ := step_inert rfl

theorem settled_of_newline (h : step s '\n' = some t) : t.Settled := by
  obtain ⟨frames, mode⟩ := s
  have hplain : step ⟨frames, .plain⟩ '\n' = some ⟨frames, .plain⟩ := step_inert rfl
  cases mode with
  | plain =>
    cases hplain.symm.trans h
    exact settled_plain
  | escaped =>
    cases h
    exact settled_plain
  | name =>
    cases hplain.symm.trans h
    exact settled_plain
  | ticks count =>
    by_cases hc : count = 2
    · subst hc
      cases hplain.symm.trans h
      exact settled_plain
    · simp only [step, Char.reduceEq, if_false, if_neg hc, Option.some.injEq] at h
      subst h
      rfl
  | raw count run =>
    cases h
    rfl
  | string =>
    cases h
    rfl
  | stringEscaped =>
    cases h
    rfl

theorem run_margin (hs : s.Settled) (levels : Nat) : run step s (margin levels) = some s := by
  induction levels with
  | zero => rfl
  | succ levels ih =>
    have hunit : run step s Markup.unit = some s := by
      unfold State.Settled at hs
      simp [Markup.unit, hs]
    rw [margin, List.replicate_succ, List.flatten_cons, run_append_of_eq hunit]
    exact ih

theorem run_newline_margin (levels : Nat) :
    run step s ('\n' :: (margin levels ++ cs)) = run step s ('\n' :: cs) := by
  rw [run_cons, run_cons]
  cases h : step s '\n' with
  | none => rfl
  | some t => exact run_append_of_eq (run_margin (settled_of_newline h) levels)

theorem run_indented (levels : Nat) : run step s (indented levels cs) = run step s cs := by
  induction cs generalizing s with
  | nil => rfl
  | cons c rest ih =>
    by_cases hc : c = '\n'
    · subst hc
      rw [indented_newline, run_newline_margin, run_cons, run_cons]
      simp only [ih]
    · rw [indented_of_ne levels hc, run_cons, run_cons]
      simp only [ih]

/-- Where blanks change nothing, indented text is read as if it were not indented. -/
theorem run_indent (hs : s.Settled) (text : String) (level : Int) :
    run step s (Markup.indent text level).toList = run step s text.toList := by
  rw [toList_indent, run_append_of_eq (run_margin hs _), run_indented]

theorem run_newline_indent (text : String) (level : Int) :
    run step s ('\n' :: (Markup.indent text level).toList) = run step s ('\n' :: text.toList) := by
  rw [toList_indent, run_newline_margin, run_cons, run_cons]
  simp only [run_indented]

theorem Closed.indent {frame : Frame} {text : String} (h : Closed frame text) (level : Int) :
    Closed frame (Markup.indent text level) := by
  intro frames hf
  rw [run_indent settled_plain]
  exact h frames hf

end Indent

/-! Literal text, string literals and raw text open and close nothing, whatever they are made of. -/

section Literal

open Scan

variable {s : State} {frames : List Frame} {c : Char} {cs : List Char}

theorem step_of_not_special (hf : frames.headD .content = .content) (h : ¬ Markup.isSpecial c) :
    step ⟨frames, .plain⟩ c = some ⟨frames, .plain⟩ := by
  simp only [Markup.isSpecial, Bool.or_eq_true, beq_iff_eq, not_or] at h
  obtain ⟨⟨⟨⟨⟨⟨⟨⟨⟨⟨⟨hslash, hhash⟩, _⟩, _⟩, htick⟩, hopen⟩, hclose⟩, _⟩, _⟩, _⟩, _⟩, _⟩ := h
  rcases frames with _ | ⟨_ | _, outer⟩
  · simp [step, read, *]
  · simp [step, read, *]
  · cases hf

theorem balanced_escapeChars (cs : List Char) : Balanced .content (Markup.escapeChars cs) := by
  intro frames hf
  induction cs with
  | nil => rfl
  | cons c rest ih =>
    rw [Markup.escapeChars]
    split
    · exact ih
    next h =>
      have hs : ¬ Markup.isSpecial c := fun hs => h (by simp [hs])
      rw [run_cons, step_of_not_special hf hs]
      exact ih

theorem closed_escape (text : String) : Closed .content (Markup.escape text) := by
  rw [Closed, Markup.escape, String.toList_ofList]
  exact balanced_escapeChars text.toList

theorem run_stringChar (c : Char) :
    run step ⟨frames, .string⟩ (Markup.stringChar c) = some ⟨frames, .string⟩ := by
  unfold Markup.stringChar
  split
  · rfl
  next hslash =>
    split
    · rfl
    next hquote =>
      split
      · rfl
      · simp [step, hslash, hquote]

theorem run_escapeString (cs : List Char) :
    run step ⟨frames, .string⟩ (cs.flatMap Markup.stringChar) = some ⟨frames, .string⟩ := by
  induction cs with
  | nil => rfl
  | cons c rest ih =>
    rw [List.flatMap_cons, run_append_of_eq (run_stringChar c)]
    exact ih

/-- A string literal may stand among the arguments of a call. -/
theorem balanced_literal (cs : List Char) :
    Balanced .call ('"' :: (cs.flatMap Markup.stringChar ++ ['"'])) := by
  intro frames hf
  rcases frames with _ | ⟨_ | _, outer⟩ <;> cases hf
  have hopen : step ⟨.call :: outer, .plain⟩ '"' = some ⟨.call :: outer, .string⟩ := rfl
  rw [run_cons, hopen, Option.bind_some, run_append_of_eq (run_escapeString cs)]
  rfl

theorem closed_literal (text : String) :
    Closed .call ("\"" ++ Markup.escapeString text ++ "\"") := by
  have h := balanced_literal text.toList
  simpa [Closed, Markup.escapeString] using h

/-- In raw text nothing but backticks matters. -/
theorem run_raw_of_not_mem {count : Nat} (h : '`' ∉ cs) :
    run step ⟨frames, .raw count 0⟩ cs = some ⟨frames, .raw count 0⟩ := by
  induction cs with
  | nil => rfl
  | cons c rest ih =>
    simp only [List.mem_cons, not_or] at h
    rw [run_cons, step_raw_of_ne (Ne.symm h.1)]
    exact ih h.2

/-- Raw text with a first character that is no backtick. -/
theorem run_ticks_of_not_mem {count : Nat} (hcount : count ≠ 2) (hne : cs ≠ []) (h : '`' ∉ cs) :
    run step ⟨frames, .ticks count⟩ cs = some ⟨frames, .raw count 0⟩ := by
  obtain ⟨c, rest, rfl⟩ := List.exists_cons_of_ne_nil hne
  simp only [List.mem_cons, not_or] at h
  have hfirst : step ⟨frames, .ticks count⟩ c = some ⟨frames, .raw count 0⟩ := by
    simp [step, Ne.symm h.1, hcount]
  rw [run_cons, hfirst]
  exact run_raw_of_not_mem h.2

/-- Code between single backticks is raw text. -/
theorem balanced_codeSpan (hne : cs ≠ []) (h : '`' ∉ cs) :
    Balanced .content ('`' :: (cs ++ ['`'])) := by
  intro frames _
  have hopen : step ⟨frames, .plain⟩ '`' = some ⟨frames, .ticks 1⟩ := rfl
  rw [run_cons, hopen, Option.bind_some,
    run_append_of_eq (run_ticks_of_not_mem (by decide) hne h), run_cons, step_raw_last]
  rfl

theorem closed_codeSpan {code : String} (hne : code ≠ "") (h : '`' ∉ code.toList) :
    Closed .content ("`" ++ code ++ "`") := by
  have hspan := balanced_codeSpan (by simpa using hne) h
  simpa [Closed] using hspan

theorem le_longestFrom {α : Type} (p : α → Bool) (before : Nat) (xs : List α) :
    before ≤ Markup.longestFrom p before xs := by
  induction xs generalizing before with
  | nil => exact Nat.le_refl before
  | cons x rest ih =>
    rw [Markup.longestFrom]
    split
    · exact Nat.le_of_succ_le (ih (before + 1))
    · exact Nat.le_max_left _ _

/-- Raw text goes on through code whose runs of backticks are shorter than those around it. -/
theorem run_raw_of_longest {count before : Nat}
    (h : Markup.longestFrom (· == '`') before cs < count) :
    ∃ after, run step ⟨frames, .raw count before⟩ cs = some ⟨frames, .raw count after⟩ := by
  induction cs generalizing before with
  | nil => exact ⟨before, rfl⟩
  | cons c rest ih =>
    rw [Markup.longestFrom] at h
    rw [run_cons]
    by_cases hc : c = '`'
    · subst hc
      rw [if_pos (beq_self_eq_true '`')] at h
      rw [step_raw_of_lt (Nat.lt_of_le_of_lt (le_longestFrom _ _ rest) h)]
      exact ih h
    · rw [if_neg (by simpa using hc)] at h
      rw [step_raw_of_ne hc]
      exact ih (Nat.lt_of_le_of_lt (Nat.le_max_right _ _) h)

theorem run_ticks (count more : Nat) :
    run step ⟨frames, .ticks count⟩ (List.replicate more '`') =
      some ⟨frames, .ticks (count + more)⟩ := by
  induction more generalizing count with
  | zero => rfl
  | succ more ih =>
    have hstep : step ⟨frames, .ticks count⟩ '`' = some ⟨frames, .ticks (count + 1)⟩ := rfl
    rw [List.replicate_succ, run_cons, hstep, Option.bind_some, ih,
      show count + 1 + more = count + (more + 1) by omega]

theorem run_closing (before more : Nat) :
    run step ⟨frames, .raw (before + more + 1) before⟩ (List.replicate (more + 1) '`') =
      some ⟨frames, .plain⟩ := by
  induction more generalizing before with
  | zero =>
    rw [List.replicate_succ, run_cons, Nat.add_zero, step_raw_last]
    rfl
  | succ more ih =>
    rw [List.replicate_succ, run_cons, step_raw_of_lt (by omega), Option.bind_some,
      show before + (more + 1) + 1 = before + 1 + more + 1 by omega]
    exact ih (before + 1)

/-- A fence opens raw text with the end of its line, whatever stands on the line but backticks. -/
theorem run_fence {count : Nat} (hcount : 2 < count) (h : '`' ∉ cs) :
    run step ⟨frames, .plain⟩ (List.replicate count '`' ++ cs ++ ['\n']) =
      some ⟨frames, .raw count 0⟩ := by
  obtain ⟨more, rfl⟩ : ∃ more, count = more + 1 := ⟨count - 1, by omega⟩
  have hopen : step ⟨frames, .plain⟩ '`' = some ⟨frames, .ticks 1⟩ := rfl
  rw [List.append_assoc, List.replicate_succ, List.cons_append, run_cons, hopen, Option.bind_some,
    run_append_of_eq (run_ticks 1 more), Nat.add_comm 1 more]
  exact run_ticks_of_not_mem (by omega) (by simp) (by simpa using h)

/-- The same fence closes it. -/
theorem run_fence_closing {count : Nat} (hcount : 0 < count) :
    run step ⟨frames, .raw count 0⟩ (List.replicate count '`') = some ⟨frames, .plain⟩ := by
  obtain ⟨more, rfl⟩ : ∃ more, count = more + 1 := ⟨count - 1, by omega⟩
  have h := @run_closing frames 0 more
  rwa [Nat.zero_add] at h

end Literal

end Typeset.Bracket
