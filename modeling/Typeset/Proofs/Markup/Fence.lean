import Mathlib.Order.Bounds.Defs
import Mathlib.Order.MinMax
import Typeset.Proofs.Bracket.Layout

/-! Fences that are long enough and no longer. The longest run of a character is the greatest number
of copies of it that stand side by side in a text, and a fence is the shortest run of three or more
backticks that stands nowhere in the text that it goes around. -/

namespace Typeset.Markup

variable {c d : Char} {before n : Nat} {cs u xs ys : List Char}

/-- A text without a character lies on one side of it. -/
theorem infix_append_cons_iff (h : d ∉ u) : u <:+: xs ++ d :: ys ↔ u <:+: xs ∨ u <:+: ys := by
  rw [List.infix_append_iff, List.infix_cons_iff]
  constructor
  · rintro (hxs | (hstart | hys) | ⟨left, right, rfl, hleft, hright⟩)
    · exact .inl hxs
    · cases u with
      | nil => exact .inl List.nil_infix
      | cons e u =>
        -- the text would begin with the character
        obtain ⟨rfl, -⟩ := List.cons_prefix_cons.mp hstart
        exact absurd List.mem_cons_self h
    · exact .inr hys
    · cases right with
      | nil =>
        rw [List.append_nil]
        exact .inl hleft.isInfix
      | cons e right =>
        obtain ⟨rfl, -⟩ := List.cons_prefix_cons.mp hright
        exact absurd (List.mem_append_right left List.mem_cons_self) h
  · rintro (hxs | hys)
    · exact .inl hxs
    · exact .inr (.inl (.inr hys))

theorem replicate_infix_replicate_iff :
    List.replicate n c <:+: List.replicate before c ↔ n ≤ before := by
  rw [List.infix_replicate_iff, List.length_replicate, and_iff_left rfl]

/-- The characters that were counted stand before those that are still to come: as many copies
as the longest run has, and no more, stand side by side in all of them. -/
theorem le_longestFrom_iff :
    n ≤ longestFrom (· == c) before cs ↔ List.replicate n c <:+: List.replicate before c ++ cs := by
  induction cs generalizing before with
  | nil => rw [longestFrom, List.append_nil, replicate_infix_replicate_iff]
  | cons d rest ih =>
    rw [longestFrom]
    by_cases hd : d = c
    · subst hd
      rw [if_pos (beq_self_eq_true d), ih, List.replicate_succ', List.append_assoc,
        List.singleton_append]
    · rw [if_neg (by simpa using hd), le_max_iff, ih, List.replicate_zero, List.nil_append]
      rcases n.eq_zero_or_pos with rfl | hn
      · simp
      · rw [infix_append_cons_iff fun hmem => hd (List.eq_of_mem_replicate hmem),
          replicate_infix_replicate_iff]

theorem le_longestRun_iff : n ≤ longestRun (· == c) cs ↔ List.replicate n c <:+: cs :=
  le_longestFrom_iff

/-- The longest run is the greatest number of copies that stand side by side. -/
theorem isGreatest_longestRun (c : Char) (cs : List Char) :
    IsGreatest {n | List.replicate n c <:+: cs} (longestRun (· == c) cs) :=
  ⟨le_longestRun_iff.mp le_rfl, fun _ => le_longestRun_iff.mpr⟩

/-- A fence has as many backticks as the shortest run of three or more that a text does not have. -/
theorem isLeast_fence (cs : List Char) :
    IsLeast {n | 3 ≤ n ∧ ¬ List.replicate n '`' <:+: cs}
      (max 3 (longestRun (· == '`') cs + 1)) := by
  simp only [← le_longestRun_iff]
  refine ⟨⟨Nat.le_max_left _ _, by omega⟩, ?_⟩
  rintro n ⟨hthree, hnone⟩
  omega

/-- For every text and every character, the longest run is the greatest number of copies of the
character that stand side by side in the text; and the text does not have the fence that goes
around it, which is the shortest run of three or more backticks that it does not have. -/
theorem fence_shortest (s : String) (c : Char) :
    (∃ longest, longestRunValue (.str s) (.str (String.singleton c)) = .ok longest ∧
      IsGreatest {n | List.replicate n c <:+: s.toList} longest) ∧
    ∃ count, fenceValue (.str s) = .ok (String.ofList (List.replicate count '`')) ∧
      IsLeast {n | 3 ≤ n ∧ ¬ List.replicate n '`' <:+: s.toList} count :=
  ⟨⟨_, Bracket.longestRunValue_text s c, isGreatest_longestRun c s.toList⟩,
    _, Bracket.fenceValue_text s, isLeast_fence s.toList⟩

end Typeset.Markup
