import Mathlib.Algebra.Ring.Parity
import Typeset.Proofs.Comment.Leaf
import Typeset.Proofs.Lists
import Typeset.Proofs.Markup.Rows
import Typeset.Proofs.Math.Sign
import Typeset.Render.Leaf

/-! How a text ends once the blanks at its end are taken away: in a backslash that escapes whatever
is put behind it, or not. -/

namespace Typeset.Markup

open Math (endSlashes endSlashes_concat endSlashes_concat_slash)
open Text (isBlank)

variable {c : Char} {cs ds : List Char}

/-- Nothing but blanks. -/
def Blank (cs : List Char) : Prop := ∀ c ∈ cs, isBlank c = true

instance (cs : List Char) : Decidable (Blank cs) :=
  decidable_of_iff (cs.all isBlank = true) List.all_eq_true

/-- A text whose last character escapes what follows. -/
def Unfinished (cs : List Char) : Prop := Odd (endSlashes cs)

/-- A text whose last character but blanks escapes what follows, if the blanks are taken away. -/
def Dangling (cs : List Char) : Prop := Unfinished (cs.rdropWhile isBlank)

theorem not_unfinished_nil : ¬Unfinished [] := by
  rw [Unfinished, endSlashes, List.rtakeWhile_nil]
  decide

theorem unfinished_slash : Unfinished (cs ++ ['\\']) ↔ ¬Unfinished cs := by
  rw [Unfinished, Unfinished, endSlashes_concat_slash, Nat.odd_add_one]

theorem not_unfinished_concat (h : c ≠ '\\') : ¬Unfinished (cs ++ [c]) := by
  rw [Unfinished, endSlashes_concat cs h]
  decide

/-- Behind a text that is finished, another one is as it would be by itself. -/
theorem unfinished_append (h : ¬Unfinished cs) : Unfinished (cs ++ ds) ↔ Unfinished ds := by
  induction ds using List.reverseRecOn with
  | nil => simpa using iff_of_false h not_unfinished_nil
  | append_singleton ds c ih =>
    rw [← List.append_assoc]
    by_cases hc : c = '\\'
    · subst hc
      rw [unfinished_slash, unfinished_slash, ih]
    · exact iff_of_false (not_unfinished_concat hc) (not_unfinished_concat hc)

theorem not_dangling_nil : ¬Dangling [] := by
  rw [Dangling, List.rdropWhile_nil]
  exact not_unfinished_nil

theorem dangling_concat_blank (h : isBlank c = true) : Dangling (cs ++ [c]) ↔ Dangling cs := by
  rw [Dangling, List.rdropWhile_concat_pos _ _ _ h, Dangling]

theorem dangling_slash : Dangling (cs ++ ['\\']) ↔ ¬Unfinished cs := by
  rw [Dangling, List.rdropWhile_concat_neg _ _ _ (by decide), unfinished_slash]

theorem not_dangling_concat (h : c ≠ '\\') (hb : isBlank c = false) : ¬Dangling (cs ++ [c]) := by
  rw [Dangling, List.rdropWhile_concat_neg _ _ _ (by simp [hb])]
  exact not_unfinished_concat h

theorem blank_append : Blank (cs ++ ds) ↔ Blank cs ∧ Blank ds := List.forall_mem_append

theorem not_blank_concat (h : isBlank c = false) : ¬Blank (cs ++ [c]) := fun hblank => by
  simp [hblank c (by simp)] at h

theorem Blank.not_unfinished (h : Blank cs) : ¬Unfinished cs := by
  cases cs using List.reverseRecOn with
  | nil => exact not_unfinished_nil
  | append_singleton cs c =>
    refine not_unfinished_concat ?_
    rintro rfl
    exact absurd (h '\\' (by simp)) (by decide)

theorem dangling_append_blank (h : Blank ds) : Dangling (cs ++ ds) ↔ Dangling cs := by
  induction ds using List.reverseRecOn with
  | nil => rw [List.append_nil]
  | append_singleton ds c ih =>
    obtain ⟨hds, hc⟩ := blank_append.mp h
    rw [← List.append_assoc, dangling_concat_blank (hc c (by simp)), ih hds]

theorem Blank.not_dangling (h : Blank cs) : ¬Dangling cs := by
  rw [← List.nil_append cs, dangling_append_blank h]
  exact not_dangling_nil

/-- What stands behind a finished text decides how both end, unless it is blank. -/
theorem dangling_append (h : ¬Unfinished cs) :
    Dangling (cs ++ ds) ↔ Dangling ds ∨ Blank ds ∧ Dangling cs := by
  induction ds using List.reverseRecOn with
  | nil => simp [not_dangling_nil, Blank]
  | append_singleton ds c ih =>
    rw [← List.append_assoc]
    by_cases hb : isBlank c = true
    · have hblank : Blank (ds ++ [c]) ↔ Blank ds :=
        blank_append.trans (and_iff_left (List.forall_mem_singleton.mpr hb))
      rw [dangling_concat_blank hb, dangling_concat_blank hb, hblank, ih]
    · rw [Bool.not_eq_true] at hb
      have hnot : ¬(Blank (ds ++ [c]) ∧ Dangling cs) := fun hblank => not_blank_concat hb hblank.1
      rw [or_iff_left hnot]
      by_cases hc : c = '\\'
      · subst hc
        rw [dangling_slash, dangling_slash, unfinished_append h]
      · exact iff_of_false (not_dangling_concat hc hb) (not_dangling_concat hc hb)

theorem Blank.dangling_append (h : Blank cs) : Dangling (cs ++ ds) ↔ Dangling ds := by
  rw [Markup.dangling_append h.not_unfinished]
  exact or_iff_left fun hboth => h.not_dangling hboth.2

/-- Parts with blanks between them end as the last of them that is not blank. -/
theorem dangling_intercalate {separator : List Char} (hs : Blank separator) (hne : separator ≠ [])
    (parts : List (List Char)) :
    (Dangling (separator.intercalate parts) ↔ EndsIn Dangling Blank parts) ∧
      (Blank (separator.intercalate parts) ↔ ∀ part ∈ parts, Blank part) := by
  induction parts with
  | nil => simp [endsIn_nil, not_dangling_nil, Blank]
  | cons part rest ih =>
    cases rest with
    | nil => simp [endsIn_cons, endsIn_nil]
    | cons next rest =>
      obtain ⟨s, c, rfl⟩ := (List.eq_nil_or_concat' separator).resolve_left hne
      have hfinished : ¬Unfinished (part ++ (s ++ [c])) := by
        rw [← List.append_assoc]
        refine not_unfinished_concat ?_
        rintro rfl
        exact absurd (hs '\\' (by simp)) (by decide)
      rw [List.intercalate_cons_cons, endsIn_cons, ← ih.1, ← ih.2, dangling_append hfinished,
        dangling_append_blank hs, blank_append, blank_append, List.forall_mem_cons, ih.2]
      simp [hs]

/-- Texts with blanks between them, as above. -/
theorem dangling_joined {separator : String} (hs : Blank separator.toList)
    (hne : separator ≠ "") (parts : List String) :
    (Dangling (separator.intercalate parts).toList ↔
      EndsIn (fun part => Dangling part.toList) (fun part => Blank part.toList) parts) ∧
      (Blank (separator.intercalate parts).toList ↔ ∀ part ∈ parts, Blank part.toList) := by
  have hlist : separator.toList ≠ [] := by simpa using hne
  obtain ⟨hends, hblank⟩ := dangling_intercalate hs hlist (parts.map String.toList)
  rw [String.toList_intercalate, hends, hblank, endsIn_map, List.forall_mem_map]
  exact ⟨Iff.rfl, Iff.rfl⟩

theorem blank_newline : Blank "\n".toList := by decide

theorem dangling_textRows (s : String) :
    (Dangling s.toList ↔ EndsIn Dangling Blank (textRows s)) ∧
      (Blank s.toList ↔ ∀ row ∈ textRows s, Blank row) := by
  have hrows : ['\n'].intercalate (textRows s) = s.toList := List.intercalate_splitOn '\n'
  rw [← hrows]
  exact dangling_intercalate blank_newline (by simp) (textRows s)

theorem blank_margin (level : Nat) : Blank (margin level) := by
  induction level with
  | zero => simp [margin, Blank]
  | succ n ih =>
    rw [margin, List.replicate_succ, List.flatten_cons]
    exact blank_append.mpr ⟨by decide, ih⟩

/-- Margins before its rows change nothing at the end of a text. -/
theorem dangling_of_margins {s t : String}
    (h : List.Forall₂ (fun row wide => ∃ level, wide = margin level ++ row)
      (textRows s) (textRows t)) :
    (Dangling s.toList ↔ Dangling t.toList) ∧ (Blank s.toList ↔ Blank t.toList) := by
  rw [(dangling_textRows s).1, (dangling_textRows s).2, (dangling_textRows t).1,
    (dangling_textRows t).2]
  refine endsIn_of_forall₂ h ?_ ?_
  · rintro row _ ⟨level, rfl⟩
    rw [(blank_margin level).dangling_append]
  · rintro row _ ⟨level, rfl⟩
    exact ((blank_append).trans (and_iff_right (blank_margin level))).symm

theorem dangling_indent (s : String) (level : Int) :
    (Dangling (indent s level).toList ↔ Dangling s.toList) ∧
      (Blank (indent s level).toList ↔ Blank s.toList) := by
  have hrows : List.Forall₂ (fun row wide => ∃ level, wide = margin level ++ row)
      (textRows s) (textRows (indent s level)) := by
    rw [textRows_indent]
    exact List.forall₂_map_right_iff.mpr (List.forall₂_same.mpr fun _ _ => ⟨_, rfl⟩)
  exact ⟨(dangling_of_margins hrows).1.symm, (dangling_of_margins hrows).2.symm⟩

/-- An ending that goes on in a way of its own: finished, not blank, and not in a backslash. -/
structure Firm (cs : List Char) : Prop where
  finished : ¬Unfinished cs
  not_dangling : ¬Dangling cs
  not_blank : ¬Blank cs

theorem firm_concat (hc : c ≠ '\\') (hb : isBlank c = false) : Firm (cs ++ [c]) :=
  ⟨not_unfinished_concat hc, not_dangling_concat hc hb, not_blank_concat hb⟩

theorem firm_escaped (h : isBlank c = false) : Firm ['\\', c] := by
  by_cases hc : c = '\\'
  · subst hc
    have hone : Unfinished (([] : List Char) ++ ['\\']) := unfinished_slash.mpr not_unfinished_nil
    have htwo : ¬Unfinished ((([] : List Char) ++ ['\\']) ++ ['\\']) :=
      fun h => unfinished_slash.mp h hone
    exact ⟨htwo, fun h => dangling_slash.mp h hone, by decide⟩
  · exact @firm_concat c ['\\'] hc h

theorem Firm.append (h : Firm cs) (hu : ¬Unfinished ds) (hd : ¬Dangling ds) : Firm (cs ++ ds) where
  finished := (unfinished_append h.finished).not.mpr hu
  not_dangling := fun hboth => by
    rcases (dangling_append h.finished).mp hboth with hds | ⟨-, hcs⟩
    · exact hd hds
    · exact h.not_dangling hcs
  not_blank := fun hblank => h.not_blank (blank_append.mp hblank).1

theorem isBlank_of_isSpecial (h : isSpecial c = true) : isBlank c = false := by
  simp only [isSpecial, Bool.or_eq_true, beq_iff_eq] at h
  obtain ((((((((((h | h) | h) | h) | h) | h) | h) | h) | h) | h) | h) | h := h <;>
    · subst h
      rfl

/-- Literal text is finished and does not dangle. -/
theorem escapeChars_ending (cs : List Char) :
    ¬Unfinished (escapeChars cs) ∧ ¬Dangling (escapeChars cs) ∧
      (Blank (escapeChars cs) ↔ Blank cs) := by
  induction cs with
  | nil => exact ⟨not_unfinished_nil, not_dangling_nil, Iff.rfl⟩
  | cons c rest ih =>
    rw [escapeChars]
    split
    next h =>
      have hb : isBlank c = false := by
        rcases Bool.or_eq_true _ _ ▸ h with h | h
        · exact isBlank_of_isSpecial h
        · obtain rfl : c = '/' := by simp [opensComment] at h; exact h.1
          rfl
      obtain ⟨hu, hd, hblank⟩ := (firm_escaped hb).append ih.1 ih.2.1
      refine ⟨hu, hd, iff_of_false hblank fun hall => ?_⟩
      simp [hall c List.mem_cons_self] at hb
    next h =>
      have hslash : c ≠ '\\' := by
        rintro rfl
        exact h rfl
      have hfinished : ¬Unfinished [c] := @not_unfinished_concat c [] hslash
      have hnot : ¬Dangling [c] := by
        by_cases hb : isBlank c = true
        · exact Blank.not_dangling (List.forall_mem_singleton.mpr hb)
        · exact @not_dangling_concat c [] hslash (Bool.not_eq_true _ ▸ hb)
      rw [← List.singleton_append, unfinished_append hfinished, dangling_append hfinished,
        blank_append, ih.2.2]
      refine ⟨ih.1, ?_, blank_append.symm⟩
      rintro (hd | ⟨-, hd⟩)
      · exact ih.2.1 hd
      · exact hnot hd

/-- The blanks around a text taken away. -/
theorem unfinished_strip (s : String) : Unfinished (Text.strip s).toList ↔ Dangling s.toList := by
  obtain ⟨lead, trail, hcs, hl, ht⟩ := Comment.exists_blanks s.toList
  have hlead : Blank lead := hl
  have htrail : Blank trail := ht
  rw [hcs, hlead.dangling_append, dangling_append_blank htrail, Text.strip, String.toList_ofList,
    Dangling]
  have htrim : (Text.trim isBlank s.toList).rdropWhile isBlank = Text.trim isBlank s.toList :=
    List.rdropWhile_idempotent _ _
  rw [htrim]

end Typeset.Markup
