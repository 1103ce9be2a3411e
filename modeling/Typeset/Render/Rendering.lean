import Typeset.Issue

/-! Computations that report issues on the way and note remote images, whether or not they come to
an end. -/

namespace Typeset

/-- The outcome of a computation, the issues that it reported, in order, and whether it met a remote
image. -/
structure Rendering (α : Type) where
  outcome : Except Failure α
  issues : List Issue := []
  remoteImage : Bool := false

namespace Rendering

variable {α β : Type}

/-- A computation that only has an outcome. -/
def ofExcept (outcome : Except Failure α) : Rendering α := { outcome }

/-- What a computation did, with another outcome. -/
def withOutcome (r : Rendering α) (outcome : Except Failure β) : Rendering β :=
  { outcome, issues := r.issues, remoteImage := r.remoteImage }

/-- What one computation did and then another. -/
def after (r : Rendering α) (s : Rendering β) : Rendering β :=
  { outcome := s.outcome
    issues := r.issues ++ s.issues
    remoteImage := r.remoteImage || s.remoteImage }

/-- One computation, and another on its answer. -/
def andThen (r : Rendering α) (next : α → Rendering β) : Rendering β :=
  match r.outcome with
  | .ok a => r.after (next a)
  | .error f => r.withOutcome (.error f)

instance : Monad Rendering where
  pure a := ofExcept (.ok a)
  bind := andThen

instance : MonadLift (Except Failure) Rendering where
  monadLift := ofExcept

/-- A computation that stops. -/
def fail (f : Failure) : Rendering α := ofExcept (.error f)

/-- Report an issue. -/
def report (issue : Issue) : Rendering Unit := { outcome := .ok (), issues := [issue] }

/-- Take note of a remote image. -/
def noteRemoteImage : Rendering Unit := { outcome := .ok (), remoteImage := true }

/-- A computation with another in place of its failure; what was reported stays. -/
def rescue (r : Rendering α) (handler : Failure → Rendering α) : Rendering α :=
  match r.outcome with
  | .ok _ => r
  | .error f => r.after (handler f)

/-- An answer with issues as a computation. -/
def ofReported (r : Reported α) : Rendering α := { outcome := .ok r.answer, issues := r.issues }

@[simp] theorem pure_outcome (a : α) : (pure a : Rendering α).outcome = .ok a := rfl
@[simp] theorem pure_issues (a : α) : (pure a : Rendering α).issues = [] := rfl
@[simp] theorem pure_remoteImage (a : α) : (pure a : Rendering α).remoteImage = false := rfl
@[simp] theorem fail_outcome (f : Failure) : (fail f : Rendering α).outcome = .error f := rfl
@[simp] theorem fail_issues (f : Failure) : (fail f : Rendering α).issues = [] := rfl

theorem bind_of_ok {r : Rendering α} {a : α} (h : r.outcome = .ok a) (next : α → Rendering β) :
    r >>= next = r.after (next a) := by
  simp [bind, andThen, h]

theorem bind_of_error {r : Rendering α} {f : Failure} (h : r.outcome = .error f)
    (next : α → Rendering β) : r >>= next = r.withOutcome (.error f) := by
  simp [bind, andThen, h]

theorem lift_bind_of_ok {outcome : Except Failure α} {a : α} (h : outcome = .ok a)
    (next : α → Rendering β) : (liftM outcome : Rendering α) >>= next = next a := by
  subst h
  rfl

theorem exists_of_bind {r : Rendering α} {next : α → Rendering β} {b : β}
    (h : (r >>= next).outcome = .ok b) : ∃ a, r.outcome = .ok a ∧ (next a).outcome = .ok b := by
  cases hr : r.outcome with
  | error f =>
    rw [bind_of_error hr] at h
    cases h
  | ok a =>
    rw [bind_of_ok hr] at h
    exact ⟨a, rfl, h⟩

/-- A rescued computation stops only where its handler does. -/
theorem rescue_outcome_ok {r : Rendering α} {handler : Failure → Rendering α} {g : Failure → α}
    (h : ∀ f, (handler f).outcome = .ok (g f)) : ∃ a, (r.rescue handler).outcome = .ok a := by
  cases ho : r.outcome with
  | ok a => exact ⟨a, by simp [rescue, ho]⟩
  | error f => exact ⟨g f, by simp [rescue, ho, after, h]⟩

instance : LawfulMonad Rendering := LawfulMonad.mk' Rendering
  (by
    intro α r
    obtain ⟨outcome, issues, remote⟩ := r
    cases outcome <;> simp [Functor.map, andThen, after, withOutcome, ofExcept])
  (by intro α β a next; simp [bind, pure, andThen, ofExcept, after])
  (by
    intro α β γ r f g
    cases hr : r.outcome with
    | error e => simp [bind, andThen, hr, withOutcome]
    | ok a =>
      cases hf : (f a).outcome <;>
        simp [bind, andThen, hr, hf, after, withOutcome, List.append_assoc, Bool.or_assoc])

end Rendering

end Typeset
