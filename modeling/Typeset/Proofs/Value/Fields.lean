import Mathlib.Data.List.Nodup
import Typeset.Value.Basic

/-! The fields of an object: setting one, and overriding them by others, of which the last one
counts. -/

namespace Typeset.Value

variable {key other : String} {v w : Value} {fields others : List (String × Value)}
  {P : Value → Prop}

/-- The keys of an object, in order. -/
def keysOf (fields : List (String × Value)) : List String := fields.map Prod.fst

theorem lookup_cons_ite (key k : String) (v : Value) (fields : List (String × Value)) :
    ((k, v) :: fields).lookup key = if key = k then some v else fields.lookup key := by
  by_cases h : key = k
  · rw [h, List.lookup_cons_self, if_pos rfl]
  · rw [List.lookup_cons, beq_false_of_ne h, if_neg h]

theorem lookup_setField_of_ne (hne : other ≠ key) (v : Value) (fields : List (String × Value)) :
    (setField key v fields).lookup other = fields.lookup other := by
  induction fields with
  | nil => simp [setField, List.lookup_cons, beq_false_of_ne hne]
  | cons f rest ih =>
    obtain ⟨k, w⟩ := f
    rw [setField]
    split
    next hk =>
      subst hk
      simp [List.lookup_cons, beq_false_of_ne hne]
    next => rw [List.lookup_cons, List.lookup_cons, ih]

theorem lookup_setField_ite (key other : String) (v : Value) (fields : List (String × Value)) :
    (setField key v fields).lookup other =
      if other = key then some v else fields.lookup other := by
  by_cases h : other = key
  · rw [h, lookup_setField, if_pos rfl]
  · rw [lookup_setField_of_ne h, if_neg h]

theorem mem_of_mem_setField (hne : other ≠ key) (h : (other, w) ∈ setField key v fields) :
    (other, w) ∈ fields := by
  induction fields with
  | nil => simp [setField, hne] at h
  | cons f rest ih =>
    obtain ⟨k, u⟩ := f
    rw [setField] at h
    split at h
    next hk =>
      obtain he | hm := List.mem_cons.mp h
      · cases he
        exact absurd hk hne
      · exact List.mem_cons_of_mem _ hm
    next =>
      obtain he | hm := List.mem_cons.mp h
      · rw [he]
        exact List.mem_cons_self
      · exact List.mem_cons_of_mem _ (ih hm)

theorem forall_setField (key : String) (hv : P v) (h : ∀ f ∈ fields, P f.2) :
    ∀ f ∈ setField key v fields, P f.2 := by
  induction fields with
  | nil => exact List.forall_mem_singleton.mpr hv
  | cons f rest ih =>
    obtain ⟨k, w⟩ := f
    obtain ⟨hhere, hmore⟩ := List.forall_mem_cons.mp h
    rw [setField]
    split
    · exact List.forall_mem_cons.mpr ⟨hv, hmore⟩
    · exact List.forall_mem_cons.mpr ⟨hhere, ih hmore⟩

theorem forall_override (h : ∀ f ∈ fields, P f.2) (ho : ∀ f ∈ others, P f.2) :
    ∀ f ∈ override fields others, P f.2 := by
  induction others generalizing fields with
  | nil => exact h
  | cons f rest ih =>
    obtain ⟨hhere, hmore⟩ := List.forall_mem_cons.mp ho
    exact ih (forall_setField f.1 hhere h) hmore

/-- A key that was not there comes last. -/
theorem setField_of_notMem (h : key ∉ keysOf fields) :
    setField key v fields = fields ++ [(key, v)] := by
  induction fields with
  | nil => rfl
  | cons f rest ih =>
    obtain ⟨k, w⟩ := f
    obtain ⟨hk, hrest⟩ := not_or.mp (mt List.mem_cons.mpr h)
    rw [setField, if_neg (Ne.symm hk), ih hrest, List.cons_append]

theorem keysOf_setField_of_mem (h : key ∈ keysOf fields) :
    keysOf (setField key v fields) = keysOf fields := by
  induction fields with
  | nil => cases h
  | cons f rest ih =>
    obtain ⟨k, w⟩ := f
    rw [setField]
    split
    · rfl
    next hk =>
      have hrest : key ∈ keysOf rest := (List.mem_cons.mp h).resolve_left (Ne.symm hk)
      exact congrArg (k :: ·) (ih hrest)

theorem nodup_keysOf_setField (key : String) (v : Value) (h : (keysOf fields).Nodup) :
    (keysOf (setField key v fields)).Nodup := by
  by_cases hkey : key ∈ keysOf fields
  · rwa [keysOf_setField_of_mem hkey]
  · have hkeys : keysOf (setField key v fields) = keysOf fields ++ [key] := by
      rw [setField_of_notMem hkey, keysOf, List.map_append]
      rfl
    rw [hkeys, ← List.concat_eq_append]
    exact h.concat hkey

theorem nodup_keysOf_override (others : List (String × Value)) (h : (keysOf fields).Nodup) :
    (keysOf (override fields others)).Nodup := by
  induction others generalizing fields with
  | nil => exact h
  | cons f rest ih => exact ih (nodup_keysOf_setField f.1 f.2 h)

/-- Where no key comes twice, the value of a key is the one that stands with it. -/
theorem lookup_eq_some_iff (h : (keysOf fields).Nodup) :
    fields.lookup key = some v ↔ (key, v) ∈ fields := by
  induction fields with
  | nil => simp
  | cons f rest ih =>
    obtain ⟨k, w⟩ := f
    obtain ⟨hkey, hrest⟩ := List.nodup_cons.mp h
    rw [lookup_cons_ite, List.mem_cons, Prod.mk.injEq]
    split
    next hsame =>
      subst hsame
      have hnone : (key, v) ∉ rest := fun hmem => hkey (List.mem_map.mpr ⟨_, hmem, rfl⟩)
      simp [hnone, eq_comm]
    next hne => simp [hne, ih hrest]

/-- The last of the overriding fields counts. -/
theorem lookup_override (fields others : List (String × Value)) (key : String) :
    (override fields others).lookup key = (others.reverse.lookup key).or (fields.lookup key) := by
  induction others generalizing fields with
  | nil => rfl
  | cons f rest ih =>
    obtain ⟨k, v⟩ := f
    have hstep : override fields ((k, v) :: rest) = override (setField k v fields) rest := rfl
    have hfirst : (setField k v fields).lookup key =
        ([(k, v)].lookup key).or (fields.lookup key) := by
      rw [lookup_setField_ite, lookup_cons_ite]
      split <;> rfl
    rw [hstep, ih, hfirst, List.reverse_cons, List.lookup_append, Option.or_assoc]

end Typeset.Value
