import Mathlib.Data.List.Forall2
import Typeset.Failure

/-! Lists related place by place, lists of which each member goes through something that may fail,
and lists as tables. -/

namespace Typeset

open Failure (exists_of_bind)

variable {α β ε : Type} {R : α → β → Prop} {xs : List α} {ys : List β} {x : α} {y : β}

theorem exists_of_mem_right (h : List.Forall₂ R xs ys) (hy : y ∈ ys) : ∃ x ∈ xs, R x y := by
  induction h with
  | nil => cases hy
  | @cons x z xs ys hxz _ ih =>
    obtain rfl | hy := List.mem_cons.mp hy
    · exact ⟨x, List.mem_cons_self, hxz⟩
    · obtain ⟨w, hw, hr⟩ := ih hy
      exact ⟨w, List.mem_cons_of_mem x hw, hr⟩

theorem exists_of_mem_left (h : List.Forall₂ R xs ys) (hx : x ∈ xs) : ∃ y ∈ ys, R x y :=
  exists_of_mem_right h.flip hx

/-- Members that are related to something, each in its place. -/
theorem exists_forall₂ (h : ∀ x ∈ xs, ∃ y, R x y) : ∃ ys, List.Forall₂ R xs ys := by
  induction xs with
  | nil => exact ⟨[], .nil⟩
  | cons x xs ih =>
    obtain ⟨⟨y, hxy⟩, hmore⟩ := List.forall_mem_cons.mp h
    obtain ⟨ys, hys⟩ := ih hmore
    exact ⟨y :: ys, .cons hxy hys⟩

theorem forall₂_of_mapM {f : α → Except ε β} (h : xs.mapM f = .ok ys) :
    List.Forall₂ (fun x y => f x = .ok y) xs ys := by
  induction xs generalizing ys with
  | nil =>
    cases h
    exact .nil
  | cons x xs ih =>
    rw [List.mapM_cons] at h
    obtain ⟨y, hy, h⟩ := exists_of_bind h
    obtain ⟨more, hmore, h⟩ := exists_of_bind h
    cases h
    exact .cons hy (ih hmore)

theorem mapM_of_forall₂ {f : α → Except ε β} (h : List.Forall₂ (fun x y => f x = .ok y) xs ys) :
    xs.mapM f = .ok ys := by
  induction h with
  | nil => rfl
  | cons hx _ ih =>
    rw [List.mapM_cons, hx, ih]
    rfl

theorem mapM_congr {f g : α → Except ε β} (h : ∀ x ∈ xs, f x = g x) : xs.mapM f = xs.mapM g := by
  induction xs with
  | nil => rfl
  | cons x xs ih =>
    obtain ⟨hx, hmore⟩ := List.forall_mem_cons.mp h
    rw [List.mapM_cons, List.mapM_cons, hx, ih hmore]

/-- Failures may be told in other words before or after. -/
theorem mapM_mapError {δ : Type} (word : ε → δ) (f : α → Except ε β) (xs : List α) :
    xs.mapM (fun x => (f x).mapError word) = (xs.mapM f).mapError word := by
  induction xs with
  | nil => rfl
  | cons x xs ih =>
    rw [List.mapM_cons, List.mapM_cons, ih]
    cases f x with
    | error e => rfl
    | ok y => cases xs.mapM f <;> rfl

/-- A map that fails nowhere is taken over to related members. -/
theorem mapM_of_related {γ : Type} {zs : List γ} {f : α → Except ε γ} {g : β → Except ε γ}
    (h : List.Forall₂ R xs ys) (hf : xs.mapM f = .ok zs)
    (hg : ∀ x ∈ xs, ∀ y ∈ ys, R x y → ∀ z, f x = .ok z → g y = .ok z) : ys.mapM g = .ok zs := by
  refine mapM_of_forall₂ ?_
  have hall := forall₂_of_mapM hf
  clear hf
  induction h generalizing zs with
  | nil =>
    cases hall
    exact .nil
  | cons hxy _ ih =>
    obtain _ | ⟨hx, hall⟩ := hall
    exact .cons (hg _ List.mem_cons_self _ List.mem_cons_self hxy _ hx)
      (ih (fun x hx y hy => hg x (List.mem_cons_of_mem _ hx) y (List.mem_cons_of_mem _ hy)) hall)

/-- Members that go through a function one by one, with what they come to. -/
theorem exists_mapM {γ : Type} {zs : List γ} {f : α → Except ε β} {g : β → γ} {Q : β → Prop}
    (h : List.Forall₂ (fun x z => ∃ y, f x = .ok y ∧ g y = z ∧ Q y) xs zs) :
    ∃ ys, xs.mapM f = .ok ys ∧ ys.map g = zs ∧ ∀ y ∈ ys, Q y := by
  induction h with
  | nil => exact ⟨[], rfl, rfl, by simp⟩
  | cons hx _ ih =>
    obtain ⟨y, hy, rfl, hQ⟩ := hx
    obtain ⟨ys, hys, rfl, hall⟩ := ih
    refine ⟨y :: ys, ?_, rfl, List.forall_mem_cons.mpr ⟨hQ, hall⟩⟩
    rw [List.mapM_cons, hy, hys]
    rfl

theorem mem_of_lookup {table : List (String × α)} {key : String} {a : α}
    (h : table.lookup key = some a) : (key, a) ∈ table := by
  obtain ⟨before, after, rfl, -⟩ := List.lookup_eq_some_iff.mp h
  exact List.mem_append_right before List.mem_cons_self

/-- A list ends in a member of one kind, if those of another kind behind it are not counted. -/
def EndsIn (P F : α → Prop) (xs : List α) : Prop :=
  ∃ before x after, xs = before ++ x :: after ∧ P x ∧ ∀ y ∈ after, F y

variable {P F : α → Prop} {P' F' : β → Prop}

theorem endsIn_nil : ¬EndsIn P F [] := by
  rintro ⟨before, x, after, h, -⟩
  simp at h

theorem endsIn_cons : EndsIn P F (x :: xs) ↔ EndsIn P F xs ∨ (∀ y ∈ xs, F y) ∧ P x := by
  constructor
  · rintro ⟨before, z, after, h, hz, ha⟩
    cases before with
    | nil =>
      obtain ⟨rfl, rfl⟩ := List.cons.inj h
      exact .inr ⟨ha, hz⟩
    | cons b before => exact .inl ⟨before, z, after, (List.cons.inj h).2, hz, ha⟩
  · rintro (⟨before, z, after, rfl, hz, ha⟩ | ⟨ha, hx⟩)
    · exact ⟨x :: before, z, after, rfl, hz, ha⟩
    · exact ⟨[], x, xs, rfl, hx, ha⟩

theorem endsIn_append {zs : List α} :
    EndsIn P F (xs ++ zs) ↔ EndsIn P F zs ∨ (∀ y ∈ zs, F y) ∧ EndsIn P F xs := by
  induction xs with
  | nil => simp [endsIn_nil]
  | cons x xs ih =>
    rw [List.cons_append, endsIn_cons, endsIn_cons, ih]
    simp only [List.mem_append]
    grind

theorem endsIn_map {f : β → α} :
    EndsIn P F (ys.map f) ↔ EndsIn (fun y => P (f y)) (fun y => F (f y)) ys := by
  induction ys with
  | nil => exact iff_of_false endsIn_nil endsIn_nil
  | cons y ys ih => rw [List.map_cons, endsIn_cons, endsIn_cons, ih, List.forall_mem_map]

theorem endsIn_of_forall₂ (h : List.Forall₂ R xs ys) (hP : ∀ x y, R x y → (P x ↔ P' y))
    (hF : ∀ x y, R x y → (F x ↔ F' y)) :
    (EndsIn P F xs ↔ EndsIn P' F' ys) ∧ ((∀ x ∈ xs, F x) ↔ ∀ y ∈ ys, F' y) := by
  induction h with
  | nil => simp [endsIn_nil]
  | @cons x y xs ys hxy _ ih =>
    rw [endsIn_cons, endsIn_cons, List.forall_mem_cons, List.forall_mem_cons, ih.1, ih.2,
      hP x y hxy, hF x y hxy]
    exact ⟨Iff.rfl, Iff.rfl⟩

end Typeset
