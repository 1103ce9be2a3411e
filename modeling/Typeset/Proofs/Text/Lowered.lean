import Typeset.Text.Case

/-! Lower case where it comes to plain letters: only the same letters in either case come to
them. Plain letters change their case one by one. -/

namespace Typeset.Text

variable {c d : Char} {cs ds rest before : List Char}

/-- An ASCII character that is the lower case of nothing beyond ASCII. The dotted capital I comes
to an i, and the sign of the kelvin to a k. -/
def IsHome (c : Char) : Prop := 0 < c.toNat ∧ c.toNat < 0x80 ∧ c ≠ 'i' ∧ c ≠ 'k'

instance (c : Char) : Decidable (IsHome c) := inferInstanceAs (Decidable (_ ∧ _ ∧ _ ∧ _))

/-- Of the families of letters, those of ASCII and the sign of the kelvin alone move into ASCII. -/
theorem caseRuns_beyond :
    ∀ r ∈ caseRuns, (r.first = 65 ∧ r.count * r.step = 26) ∨
      (r.first = 8490 ∧ r.count * r.step = 1 ∧ r.shift = -8383) ∨
      128 ≤ (r.first : Int) + r.shift := by
  decide +kernel

theorem toLower_of_not_ascii (h : ¬ c.toNat < 0x80) : c.toLower = c := by
  have hupper : ¬ (c.val ≥ 'A'.val ∧ c.val ≤ 'Z'.val) := by
    rintro ⟨-, hle⟩
    exact h (Nat.lt_of_le_of_lt (UInt32.le_iff_toNat_le.mp hle) (by decide))
  exact dif_neg hupper

theorem lowerChar_ne_nil (c : Char) : lowerChar c ≠ [] := by
  unfold lowerChar
  split
  · simp
  · split
    · simp
    · split <;> simp

theorem toNat_of_ofNat {n : Nat} (hpos : 0 < d.toNat) (h : Char.ofNat n = d) : n = d.toNat := by
  by_cases hvalid : n.isValidChar
  · have hchar : Char.ofNat n = Char.ofNatAux n hvalid := dif_pos hvalid
    rw [← h, hchar]
    rfl
  · have hnull : Char.ofNat n = '\x00' := dif_neg hvalid
    rw [← h, hnull] at hpos
    exact absurd hpos (by decide)

/-- A letter beyond ASCII comes to none of these characters. -/
theorem lowerChar_of_not_ascii (hd : IsHome d) (hc : ¬ c.toNat < 0x80) :
    ∃ e es, lowerChar c = e :: es ∧ e ≠ d := by
  obtain ⟨hpos, hascii, hi, hk⟩ := hd
  rw [lowerChar, if_neg hc]
  split
  · exact ⟨_, _, rfl, Ne.symm hi⟩
  · split
    next r hr =>
      have hcovers := List.find?_some hr
      simp only [CaseRun.covers, Bool.and_eq_true, decide_eq_true_eq] at hcovers
      refine ⟨_, _, rfl, fun h => ?_⟩
      have hcode : (c.toNat + r.shift).toNat = d.toNat := toNat_of_ofNat hpos h
      rcases caseRuns_beyond r (List.mem_of_find?_eq_some hr) with
        ⟨hfirst, hlength⟩ | ⟨hfirst, hlength, hshift⟩ | hbeyond
      · omega
      · obtain hnat : c.toNat = 8490 := by omega
        rw [hnat, hshift] at h
        exact hk h.symm
      · omega
    next =>
      refine ⟨_, _, rfl, ?_⟩
      rintro rfl
      exact hc hascii

theorem lowerFrom_eq_cons_iff (hd : IsHome d) :
    lowerFrom before (c :: rest) = d :: ds ↔ c.toLower = d ∧ lowerFrom (c :: before) rest = ds := by
  rw [lowerFrom]
  by_cases hc : c.toNat < 0x80
  · have hsigma : c ≠ 'Σ' := by
      rintro rfl
      exact absurd hc (by decide)
    simp [hsigma, lowerChar, hc]
  · -- A sigma is decided by what is around it, but it is one in any case.
    have hhead : ∃ e es, (if c = 'Σ' then
        [if nextIsCased before && !nextIsCased rest then 'ς' else 'σ'] else lowerChar c) =
          e :: es ∧ e ≠ d := by
      split
      · refine ⟨_, _, rfl, ?_⟩
        rintro rfl
        split at hd <;> exact absurd hd (by decide)
      · exact lowerChar_of_not_ascii hd hc
    obtain ⟨e, es, he, hne⟩ := hhead
    have hself : c ≠ d := by
      rintro rfl
      exact hc hd.2.1
    simp only [he, List.cons_append, List.cons.injEq, hne, false_and, toLower_of_not_ascii hc,
      hself]

/-- Lower case that is made of these characters is that of the same letters in either case. -/
theorem lowerFrom_eq_iff (h : ∀ d ∈ ds, IsHome d) :
    lowerFrom before cs = ds ↔ cs.map Char.toLower = ds := by
  induction cs generalizing before ds with
  | nil => simp [lowerFrom]
  | cons c rest ih =>
    cases ds with
    | nil =>
      have hne := lowerChar_ne_nil c
      rw [lowerFrom]
      split <;> simp [hne]
    | cons d ds =>
      obtain ⟨hd, hds⟩ := List.forall_mem_cons.mp h
      rw [lowerFrom_eq_cons_iff hd, ih hds, List.map_cons, List.cons.injEq]

/-- A text within ASCII is lowered letter by letter. -/
theorem lowerFrom_of_ascii (h : ∀ c ∈ cs, c.toNat < 0x80) :
    lowerFrom before cs = cs.map Char.toLower := by
  induction cs generalizing before with
  | nil => rfl
  | cons c cs ih =>
    obtain ⟨hc, hmore⟩ := List.forall_mem_cons.mp h
    have hsigma : c ≠ 'Σ' := by
      rintro rfl
      exact absurd hc (by decide)
    rw [lowerFrom, if_neg hsigma, lowerChar, if_pos hc, ih hmore]
    rfl

theorem upperChars_of_ascii (h : ∀ c ∈ cs, c.toNat < 0x80) :
    upperChars cs = cs.map Char.toUpper := by
  induction cs with
  | nil => rfl
  | cons c cs ih =>
    obtain ⟨hc, hmore⟩ := List.forall_mem_cons.mp h
    have hhere : upperChar c = [c.toUpper] := if_pos hc
    rw [upperChars, List.flatMap_cons, hhere, ← upperChars, ih hmore]
    rfl

end Typeset.Text
