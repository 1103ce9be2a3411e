/-! Characters read from left to right by a machine that may stop on the way. -/

namespace Typeset.Scan

variable {σ : Type} {step : σ → Char → Option σ} {s t : σ} {c : Char} {xs ys cs : List Char}

/-- Characters, one after the other. -/
def run (step : σ → Char → Option σ) (s : σ) (cs : List Char) : Option σ := cs.foldlM step s

@[simp] theorem run_nil : run step s [] = some s := rfl

@[simp] theorem run_cons :
    run step s (c :: cs) = (step s c).bind fun t => run step t cs := List.foldlM_cons

theorem run_append : run step s (xs ++ ys) = (run step s xs).bind fun t => run step t ys :=
  List.foldlM_append

theorem run_append_of_eq (h : run step s xs = some t) :
    run step s (xs ++ ys) = run step t ys := by
  rw [run_append, h]
  rfl

theorem run_append_of_none (h : run step s xs = none) : run step s (xs ++ ys) = none := by
  rw [run_append, h]
  rfl

/-- A machine that stops has come to a character that it does not take. -/
theorem exists_of_run_none (h : run step s cs = none) :
    ∃ xs c ys t, cs = xs ++ c :: ys ∧ run step s xs = some t ∧ step t c = none := by
  induction cs generalizing s with
  | nil => cases h
  | cons c cs ih =>
    cases hc : step s c with
    | none => exact ⟨[], c, cs, s, rfl, rfl, hc⟩
    | some u =>
      rw [run_cons, hc] at h
      obtain ⟨xs, d, ys, t, rfl, hrun, hstop⟩ := ih h
      refine ⟨c :: xs, d, ys, t, rfl, ?_, hstop⟩
      rw [run_cons, hc]
      exact hrun

end Typeset.Scan
