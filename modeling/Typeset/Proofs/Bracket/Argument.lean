import Mathlib.Data.List.TakeWhile
import Mathlib.Tactic.SplitIfs
import Typeset.Proofs.Bracket.Literal
import Typeset.Proofs.Text.Trim

/-! The arguments of a call, read from behind its opening parenthesis: up to commas that stand in no
brackets, no parentheses and no string of their own. -/

namespace Typeset.Bracket

open Scan
open Text (isBlank)

variable {s t : State} {c : Char} {frames gs outer : List Frame} {mode next : Mode}
  {held lead p gap rest cs : List Char} {parts : List (List Char)}

/-- Right inside the parentheses of the call. -/
def inCall : State := ⟨[.call], .plain⟩

/-- One character of an argument; none where the character ends the argument, or cannot be read. -/
def argumentStep (s : State) (c : Char) : Option State :=
  if s = inCall ∧ (c = ',' ∨ c = ')') then none else step s c

/-- The arguments of a call, without the white space around them, and what stands behind the call.
None if the call is not closed, or cannot be read. -/
def argumentsFrom (s : State) (held : List Char) :
    List Char → Option (List (List Char) × List Char)
  | [] => none
  | c :: rest =>
    match argumentStep s c with
    | some t => argumentsFrom t (held ++ [c]) rest
    | none =>
      if s = inCall ∧ c = ',' then
        (argumentsFrom inCall [] rest).map fun (more, after) =>
          (Text.trim isBlank held :: more, after)
      else if s = inCall ∧ c = ')' then some ([Text.trim isBlank held], rest)
      else none

/-- The arguments of a call, read from behind its opening parenthesis. -/
def arguments (cs : List Char) : Option (List (List Char) × List Char) :=
  argumentsFrom inCall [] cs

/-- A text that is one argument wherever it stands: no comma and no parenthesis ends it inside, and
it closes what it opens. -/
def Whole (p : List Char) : Prop := run argumentStep inCall p = some inCall

instance : DecidablePred Whole := fun _ => inferInstanceAs (Decidable (_ = some inCall))

/-- A text that can stand inside parentheses in an argument. -/
def Nested (p : List Char) : Prop :=
  run argumentStep ⟨[.call, .call], .plain⟩ p = some ⟨[.call, .call], .plain⟩

instance : DecidablePred Nested := fun _ =>
  inferInstanceAs (Decidable (_ = some (State.mk [.call, .call] .plain)))

section Step

theorem argumentStep_of_ne (h : s ≠ inCall) (c : Char) : argumentStep s c = step s c :=
  if_neg fun hs => h hs.1

theorem argumentStep_of_inert (h : isInert c) (hc : c ≠ ',') :
    argumentStep ⟨frames, .plain⟩ c = some ⟨frames, .plain⟩ := by
  have hclose : c ≠ ')' := by
    rintro rfl
    cases h
  rw [argumentStep, if_neg (by simp [hc, hclose]), step_inert h]

/-- Inside parentheses of its own a comma ends nothing. -/
theorem argumentStep_of_nested (h : isInert c) :
    argumentStep ⟨[.call, .call], .plain⟩ c = some ⟨[.call, .call], .plain⟩ := by
  rw [argumentStep_of_ne (by decide), step_inert h]

/-- What encloses a place from further out does not matter for the reading there. -/
theorem read_append (ho : outer.headD .content = .content)
    (h : read frames c = some ⟨gs, next⟩) :
    read (frames ++ outer) c = some ⟨gs ++ outer, next⟩ := by
  unfold read at h ⊢
  rcases frames with _ | ⟨_ | _, frames⟩
  · -- Outside all frames is like inside content.
    rcases outer with _ | ⟨_ | _, outer⟩
    · simpa using h
    · dsimp only [List.nil_append] at h ⊢
      split_ifs at h ⊢ <;> cases h <;> rfl
    · cases ho
  · dsimp only [List.cons_append] at h ⊢
    split_ifs at h ⊢ <;> cases h <;> rfl
  · dsimp only [List.cons_append] at h ⊢
    split_ifs at h ⊢ <;> cases h <;> rfl

theorem step_append (ho : outer.headD .content = .content)
    (h : step ⟨frames, mode⟩ c = some ⟨gs, next⟩) :
    step ⟨frames ++ outer, mode⟩ c = some ⟨gs ++ outer, next⟩ := by
  cases mode with
  | plain => exact read_append ho h
  | escaped =>
    cases h
    rfl
  | name =>
    dsimp only [step] at h ⊢
    split_ifs at h ⊢
    · cases h
      rfl
    · cases h
      rfl
    · exact read_append ho h
  | ticks count =>
    dsimp only [step] at h ⊢
    split_ifs at h ⊢
    · cases h
      rfl
    · exact read_append ho h
    · cases h
      rfl
  | raw count met =>
    dsimp only [step] at h ⊢
    split_ifs at h ⊢ <;> cases h <;> rfl
  | string =>
    dsimp only [step] at h ⊢
    split_ifs at h ⊢ <;> cases h <;> rfl
  | stringEscaped =>
    cases h
    rfl

/-- Content that is read by itself is read inside an argument, and ends nothing there. -/
theorem run_argument_append (ho : outer.headD .content = .content) (hdeep : 2 ≤ outer.length)
    (h : run step ⟨frames, mode⟩ p = some ⟨gs, next⟩) :
    run argumentStep ⟨frames ++ outer, mode⟩ p = some ⟨gs ++ outer, next⟩ := by
  induction p generalizing frames mode with
  | nil =>
    cases h
    rfl
  | cons c p ih =>
    rw [run_cons] at h
    obtain ⟨⟨fs, m⟩, hc, h⟩ := Option.bind_eq_some_iff.mp h
    have hne : (⟨frames ++ outer, mode⟩ : State) ≠ inCall := by
      intro he
      have hlength := congrArg (fun s : State => s.frames.length) he
      simp only [inCall, List.length_append, List.length_singleton] at hlength
      omega
    rw [run_cons, argumentStep_of_ne hne, step_append ho hc]
    exact ih h

end Step

section Whole

theorem Whole.append (hp : Whole p) (hq : Whole cs) : Whole (p ++ cs) :=
  (run_append_of_eq hp).trans hq

theorem Whole.of_inert (h : ∀ c ∈ p, isInert c ∧ c ≠ ',') : Whole p := by
  induction p with
  | nil => rfl
  | cons c p ih =>
    obtain ⟨⟨hc, hcomma⟩, hp⟩ := List.forall_mem_cons.mp h
    rw [Whole, inCall, run_cons, argumentStep_of_inert hc hcomma]
    exact ih hp

/-- Content in brackets is one argument. -/
theorem Whole.bracketed (h : Balanced .content p) : Whole ('[' :: (p ++ [']'])) := by
  have hopen : argumentStep inCall '[' = some ⟨[.content, .call], .plain⟩ := by decide
  have hdeep : 2 ≤ [Frame.content, .call].length := Nat.le_refl 2
  have hinside : run argumentStep ⟨[.content, .call], .plain⟩ p =
      some ⟨[.content, .call], .plain⟩ := run_argument_append rfl hdeep (h [] rfl)
  rw [Whole, run_cons, hopen, Option.bind_some, run_append_of_eq hinside]
  rfl

theorem run_argument_stringChar (c : Char) :
    run argumentStep ⟨frames, .string⟩ (Markup.stringChar c) = some ⟨frames, .string⟩ := by
  have hbackslash : argumentStep ⟨frames, .string⟩ '\\' = some ⟨frames, .stringEscaped⟩ :=
    argumentStep_of_ne (by simp [inCall]) _
  have hescaped (d : Char) : argumentStep ⟨frames, .stringEscaped⟩ d = some ⟨frames, .string⟩ :=
    argumentStep_of_ne (by simp [inCall]) _
  unfold Markup.stringChar
  split_ifs with hslash hquote hnewline
  · simp [hbackslash, hescaped]
  · simp [hbackslash, hescaped]
  · simp [hbackslash, hescaped]
  · rw [run_cons, argumentStep_of_ne (by simp [inCall])]
    simp [step, hslash, hquote]

theorem run_argument_escapeString (cs : List Char) :
    run argumentStep ⟨frames, .string⟩ (cs.flatMap Markup.stringChar) =
      some ⟨frames, .string⟩ := by
  induction cs with
  | nil => rfl
  | cons c rest ih =>
    rw [List.flatMap_cons, run_append_of_eq (run_argument_stringChar c)]
    exact ih

theorem run_argument_literal (outer : List Frame) (s : String) :
    run argumentStep ⟨.call :: outer, .plain⟩ (Markup.stringLiteral s).toList =
      some ⟨.call :: outer, .plain⟩ := by
  have hliteral : (Markup.stringLiteral s).toList =
      '"' :: (s.toList.flatMap Markup.stringChar ++ ['"']) := by
    simp [Markup.stringLiteral, Markup.escapeString]
  have hopen : argumentStep ⟨.call :: outer, .plain⟩ '"' = some ⟨.call :: outer, .string⟩ := by
    rw [argumentStep, if_neg (by simp)]
    rfl
  have hclose : argumentStep ⟨.call :: outer, .string⟩ '"' = some ⟨.call :: outer, .plain⟩ := by
    rw [argumentStep_of_ne (by simp [inCall])]
    rfl
  rw [hliteral, run_cons, hopen, Option.bind_some,
    run_append_of_eq (run_argument_escapeString s.toList), run_cons, hclose]
  rfl

theorem Whole.literal (s : String) : Whole (Markup.stringLiteral s).toList :=
  run_argument_literal [] s

theorem Nested.literal (s : String) : Nested (Markup.stringLiteral s).toList :=
  run_argument_literal [.call] s

theorem Nested.append (hp : Nested p) (hq : Nested cs) : Nested (p ++ cs) :=
  (run_append_of_eq hp).trans hq

theorem Nested.of_inert (h : ∀ c ∈ p, isInert c) : Nested p := by
  induction p with
  | nil => rfl
  | cons c p ih =>
    obtain ⟨hc, hp⟩ := List.forall_mem_cons.mp h
    rw [Nested, run_cons, argumentStep_of_nested hc]
    exact ih hp

theorem Nested.intercalate (hlead : Nested lead) (h : ∀ p ∈ parts, Nested p) :
    Nested (lead.intercalate parts) := by
  induction parts with
  | nil => rfl
  | cons p parts ih =>
    obtain ⟨hp, hmore⟩ := List.forall_mem_cons.mp h
    cases parts with
    | nil => rwa [List.intercalate_singleton]
    | cons next parts =>
      rw [List.intercalate_cons_cons]
      exact (hp.append hlead).append (ih hmore)

/-- What can stand inside parentheses is, with them, one argument. -/
theorem Whole.grouped (h : Nested p) : Whole ('(' :: (p ++ [')'])) := by
  have hopen : argumentStep inCall '(' = some ⟨[.call, .call], .plain⟩ := by decide
  rw [Whole, run_cons, hopen, Option.bind_some, run_append_of_eq h]
  rfl

end Whole

section Arguments

theorem argumentsFrom_of_run (h : run argumentStep s p = some t) :
    argumentsFrom s held (p ++ rest) = argumentsFrom t (held ++ p) rest := by
  induction p generalizing s held with
  | nil =>
    cases h
    rw [List.append_nil, List.nil_append]
  | cons c p ih =>
    rw [run_cons] at h
    obtain ⟨u, hu, h⟩ := Option.bind_eq_some_iff.mp h
    rw [List.cons_append, argumentsFrom, hu]
    dsimp only
    rw [ih h, List.append_assoc, List.singleton_append]

theorem arguments_comma (h : Whole p) (rest : List Char) :
    arguments (p ++ ',' :: rest) =
      (arguments rest).map fun (more, after) => (Text.trim isBlank p :: more, after) := by
  rw [arguments, argumentsFrom_of_run h, argumentsFrom]
  rfl

theorem arguments_last (h : Whole p) (rest : List Char) :
    arguments (p ++ ')' :: rest) = some ([Text.trim isBlank p], rest) := by
  rw [arguments, argumentsFrom_of_run h, argumentsFrom]
  rfl

/-- White space that is held does not matter, unless it stands inside an argument. -/
theorem argumentsFrom_blank (hlead : ∀ c ∈ lead, isBlank c = true) (cs : List Char) :
    argumentsFrom s (lead ++ held) cs = argumentsFrom s held cs := by
  induction cs generalizing s held with
  | nil => rfl
  | cons c cs ih =>
    rw [argumentsFrom, argumentsFrom, Text.trim_append_of_head hlead]
    split
    · rw [List.append_assoc, ih]
    · rfl

/-- White space that may stand between arguments. -/
def IsGap (gap : List Char) : Prop := ∀ c ∈ gap, isInert c ∧ c ≠ ',' ∧ isBlank c = true

instance : DecidablePred IsGap := fun gap =>
  List.decidableBAll (fun c => isInert c ∧ c ≠ ',' ∧ isBlank c = true) gap

theorem IsGap.whole (h : IsGap gap) : Whole gap :=
  .of_inert fun c hc => ⟨(h c hc).1, (h c hc).2.1⟩

theorem arguments_gap (h : IsGap gap) (cs : List Char) : arguments (gap ++ cs) = arguments cs := by
  have hheld : argumentsFrom inCall (gap ++ []) cs = argumentsFrom inCall [] cs :=
    argumentsFrom_blank (fun c hc => (h c hc).2.2) cs
  rw [List.append_nil] at hheld
  rw [arguments, argumentsFrom_of_run h.whole, List.nil_append, hheld, arguments]

/-- Arguments with a comma and white space between them, and white space before the closing
parenthesis. -/
theorem arguments_written (hlead : IsGap lead) (hgap : IsGap gap) (hne : parts ≠ [])
    (h : ∀ p ∈ parts, Whole p) (rest : List Char) :
    arguments ((',' :: lead).intercalate parts ++ (gap ++ ')' :: rest)) =
      some (parts.map (Text.trim isBlank), rest) := by
  induction parts with
  | nil => exact absurd rfl hne
  | cons p parts ih =>
    obtain ⟨hp, hmore⟩ := List.forall_mem_cons.mp h
    cases parts with
    | nil =>
      rw [List.intercalate_singleton, ← List.append_assoc, arguments_last (hp.append hgap.whole),
        Text.trim_append_of_last fun c hc => (hgap c hc).2.2]
      rfl
    | cons next parts =>
      rw [List.intercalate_cons_cons, List.append_assoc, List.append_assoc, List.cons_append,
        arguments_comma hp, arguments_gap hlead, ih (List.cons_ne_nil next parts) hmore]
      rfl

end Arguments

end Typeset.Bracket
