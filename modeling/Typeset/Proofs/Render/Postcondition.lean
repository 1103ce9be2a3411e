import Typeset.Render.Rendering

/-! What holds of the answer of a computation that comes to an end, and of the issues that it
reports whether it does or not. -/

namespace Typeset.Rendering

variable {α β : Type} {P : α → Prop} {Q : β → Prop} {R : Issue → Prop}

/-- If the computation comes to an end, its answer has the property. -/
def Yields (P : α → Prop) (r : Rendering α) : Prop := ∀ a, r.outcome = .ok a → P a

theorem yields_pure {a : α} (h : P a) : Yields P (pure a : Rendering α) := by
  intro b hb
  cases hb
  exact h

theorem yields_fail (f : Failure) : Yields P (fail f : Rendering α) := by
  intro b hb
  cases hb

theorem yields_lift {e : Except Failure α} (h : ∀ a, e = .ok a → P a) :
    Yields P (liftM e : Rendering α) := h

theorem yields_true (r : Rendering α) : Yields (fun _ => True) r := fun _ _ => trivial

theorem Yields.bind {r : Rendering α} {f : α → Rendering β} (hr : Yields P r)
    (hf : ∀ a, P a → Yields Q (f a)) : Yields Q (r >>= f) := by
  intro b hb
  cases ho : r.outcome with
  | error e =>
    rw [bind_of_error ho] at hb
    cases hb
  | ok a =>
    rw [bind_of_ok ho] at hb
    exact hf a (hr a ho) b hb

/-- Where nothing is known of the first answer. -/
theorem yields_bind {r : Rendering α} {f : α → Rendering β} (hf : ∀ a, Yields Q (f a)) :
    Yields Q (r >>= f) := (yields_true r).bind fun a _ => hf a

theorem Yields.rescue {r : Rendering α} {f : Failure → Rendering α} (hr : Yields P r)
    (hf : ∀ e, Yields P (f e)) : Yields P (r.rescue f) := by
  intro b hb
  cases ho : r.outcome with
  | ok a => exact hr b (by simpa [Rendering.rescue, ho] using hb)
  | error e => exact hf e b (by simpa [Rendering.rescue, ho, after] using hb)

/-- Every issue that the computation reports has the property. -/
def Reports (R : Issue → Prop) (r : Rendering α) : Prop := ∀ issue ∈ r.issues, R issue

theorem reports_pure (a : α) : Reports R (pure a : Rendering α) := by
  intro issue h
  cases h

theorem reports_fail (f : Failure) : Reports R (fail f : Rendering α) := by
  intro issue h
  cases h

theorem reports_lift (e : Except Failure α) : Reports R (liftM e : Rendering α) := by
  intro issue h
  cases h

theorem reports_report {issue : Issue} (h : R issue) : Reports R (report issue) := by
  intro other ho
  rw [List.mem_singleton.mp ho]
  exact h

theorem Reports.bind {r : Rendering α} {f : α → Rendering β} (hr : Reports R r)
    (hf : ∀ a, r.outcome = .ok a → Reports R (f a)) : Reports R (r >>= f) := by
  intro issue h
  cases ho : r.outcome with
  | error e =>
    rw [bind_of_error ho] at h
    exact hr issue h
  | ok a =>
    rw [bind_of_ok ho] at h
    rcases List.mem_append.mp h with h | h
    · exact hr issue h
    · exact hf a ho issue h

theorem Reports.rescue {r : Rendering α} {f : Failure → Rendering α} (hr : Reports R r)
    (hf : ∀ e, Reports R (f e)) : Reports R (r.rescue f) := by
  intro issue h
  cases ho : r.outcome with
  | ok a => exact hr issue (by simpa [Rendering.rescue, ho] using h)
  | error e =>
    rw [Rendering.rescue, ho] at h
    rcases List.mem_append.mp h with h | h
    · exact hr issue h
    · exact hf e issue h

/-- What comes after a part that reports nothing is all that is reported. -/
theorem issues_bind_of_quiet {r : Rendering α} {next : α → Rendering β}
    (h : ∀ a, r.outcome = .ok a → (next a).issues = []) :
    (r >>= next).issues = r.issues := by
  cases ho : r.outcome with
  | error f => rw [bind_of_error ho]; rfl
  | ok a => rw [bind_of_ok ho, after, h a ho, List.append_nil]

theorem issues_report_bind (issue : Issue) (next : Unit → Rendering β) :
    (report issue >>= next).issues = issue :: (next ()).issues := rfl

end Typeset.Rendering
