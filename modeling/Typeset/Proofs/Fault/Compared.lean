import Typeset.Proofs.Markup.Rows
import Typeset.Proofs.Render.Form
import Typeset.Render.Layout

/-! The ink of a text: its characters that are not white space. No layout of blocks adds or loses
any, but for the marks that it puts down itself. -/

namespace Typeset.Fault

section Ink

open Render

variable {marker text : String} {indent : Int}

/-- How many characters of a text are no white space. -/
def ink (s : String) : Nat := s.toList.countP fun c => !Text.isBlank c

/-- The ink of several texts. -/
def inkOf (parts : List String) : Nat :=
  (parts.flatMap String.toList).countP fun c => !Text.isBlank c

theorem ink_append (s t : String) : ink (s ++ t) = ink s + ink t := by
  rw [ink, String.toList_append, List.countP_append, ink, ink]

theorem ink_eq_zero_iff (s : String) : ink s = 0 ↔ Text.isBlankText s = true := by
  simp [ink, Text.isBlankText, List.countP_eq_zero]

theorem inkOf_cons (s : String) (parts : List String) :
    inkOf (s :: parts) = ink s + inkOf parts := by
  rw [inkOf, List.flatMap_cons, List.countP_append, ink, inkOf]

theorem inkOf_singleton (s : String) : inkOf [s] = ink s := by
  rw [inkOf, List.flatMap_singleton, ink]

theorem inkOf_append (parts more : List String) :
    inkOf (parts ++ more) = inkOf parts + inkOf more := by
  rw [inkOf, List.flatMap_append, List.countP_append, inkOf, inkOf]

/-- Texts that are empty have no ink. -/
theorem inkOf_filter (parts : List String) : inkOf (parts.filter (· ≠ "")) = inkOf parts := by
  induction parts with
  | nil => rfl
  | cons part rest ih =>
    by_cases h : part = ""
    · subst h
      rw [List.filter_cons_of_neg (by simp), ih, inkOf_cons]
      exact (Nat.zero_add _).symm
    · rw [List.filter_cons_of_pos (by simpa using h), inkOf_cons, inkOf_cons, ih]

/-- A separator of white space adds no ink. -/
theorem ink_intercalate {separator : String} (h : ink separator = 0) (parts : List String) :
    ink (separator.intercalate parts) = inkOf parts := by
  induction parts with
  | nil => simp [ink, inkOf]
  | cons part rest ih =>
    by_cases hrest : rest = []
    · subst hrest
      rw [String.intercalate_singleton, inkOf_singleton]
    · rw [String.intercalate_cons_of_ne_nil hrest, ink_append, ink_append, h, ih, inkOf_cons,
        Nat.add_zero]

theorem ink_lines (parts : List String) : ink (lines parts) = inkOf parts :=
  ink_intercalate rfl parts

theorem ink_margin (levels : Nat) :
    (Markup.margin levels).countP (fun c => !Text.isBlank c) = 0 := by
  rw [List.countP_eq_zero]
  intro c hc
  obtain ⟨unit, hunit, hc⟩ := List.mem_flatten.mp hc
  obtain rfl := List.eq_of_mem_replicate hunit
  have hblank : c = ' ' := by simpa [Markup.unit] using hc
  subst hblank
  decide

theorem ink_indented (levels : Nat) (cs : List Char) :
    (Markup.indented levels cs).countP (fun c => !Text.isBlank c) =
      cs.countP fun c => !Text.isBlank c := by
  induction cs with
  | nil => rfl
  | cons c rest ih =>
    by_cases hc : c = '\n'
    · subst hc
      rw [Markup.indented_newline, List.countP_cons, List.countP_append, ink_margin, ih,
        Nat.zero_add, List.countP_cons]
    · rw [Markup.indented_of_ne levels hc, List.countP_cons, ih, List.countP_cons]

theorem ink_indent (s : String) (level : Int) : ink (Markup.indent s level) = ink s := by
  rw [ink, Markup.toList_indent, List.countP_append, ink_margin, ink_indented, Nat.zero_add, ink]

theorem inkOf_itemLead : inkOf (itemLead marker text indent) = ink marker + ink text := by
  have hblank : ink " " = 0 := rfl
  have hwhole : ink (marker ++ " " ++ text) = ink marker + ink text := by
    rw [ink_append, ink_append, hblank, Nat.add_zero]
  have hlines : ['\n'].intercalate ((marker ++ " " ++ text).toList.splitOn '\n') =
      (marker ++ " " ++ text).toList := List.intercalate_splitOn '\n'
  rw [← hwhole]
  unfold itemLead
  split
  next h => exact (List.splitOn_ne_nil _ _ h).elim
  next first h =>
    rw [h, List.intercalate_singleton] at hlines
    rw [hlines, inkOf_cons, ink_indent, String.ofList_toList]
    rfl
  next first more hne h =>
    rw [h, List.intercalate_cons_of_ne_nil hne] at hlines
    have hnewline : Text.isBlank '\n' = true := rfl
    rw [inkOf_cons, inkOf_cons, ink_indent, ink_indent, ink, ink, ink, ← hlines]
    simp [inkOf, hnewline]

/-- A quotation adds its opening and its closing, whether it holds anything or not. -/
theorem ink_quoteBlock (body : String) : ink (quoteBlock body indent) = 8 + ink body := by
  have hopening : ink "#quote[" = 7 := rfl
  have hclosing : ink "]" = 1 := rfl
  unfold quoteBlock
  dsimp only
  split
  next h =>
    rw [ink_lines, inkOf_cons, inkOf_cons, ink_indent, ink_indent, hopening, hclosing,
      (ink_eq_zero_iff body).mpr h]
    rfl
  next h =>
    rw [ink_lines, inkOf_cons, inkOf_cons, inkOf_cons, ink_indent, ink_indent, ink_indent,
      hopening, hclosing]
    simp [inkOf]
    omega

end Ink

/-! Two renderings of which the first may show and report what the second does not, or may lose what
the second shows. -/

section Compared

open Render

/-- The ink of what is shown; a failure shows nothing. -/
def inkShown : Except Failure (List String) → Nat
  | .ok parts => inkOf parts
  | .error _ => 0

/-- The second rendering comes to an end. Without losses the first one ends in the same way, and
reports the same and some issues besides; with losses it shows less. -/
structure Compared (losses : Bool) (besides : List Issue) (r s : Rendering (List String)) :
    Prop where
  ends : ∃ parts, s.outcome = .ok parts ∧ (losses = false → r.outcome = .ok parts) ∧
    (losses = true → inkShown r.outcome < inkOf parts)
  sublist : losses = false → s.issues.Sublist r.issues
  perm : losses = false → r.issues.Perm (s.issues ++ besides)

variable {r s r' s' : Rendering (List String)} {losses more : Bool} {besides others : List Issue}
  {parts : List String}

theorem Compared.refl (h : r.outcome = .ok parts) : Compared false [] r r where
  ends := ⟨parts, h, fun _ => h, by simp⟩
  sublist _ := .refl _
  perm _ := by rw [List.append_nil]

theorem Compared.inkShown_le (h : Compared losses besides r s) (hs : s.outcome = .ok parts) :
    inkShown r.outcome ≤ inkOf parts := by
  obtain ⟨parts', hparts, hsame, hless⟩ := h.ends
  obtain rfl : parts = parts' := by simpa [hs] using hparts
  cases losses with
  | false => exact Nat.le_of_eq (by rw [hsame rfl, inkShown])
  | true => exact Nat.le_of_lt (hless rfl)

/-- Two renderings one after the other, whose texts are put together without loss of ink. -/
theorem Compared.both {f : List String → List String → List String}
    (hf : ∀ a b, inkOf (f a b) = inkOf a + inkOf b) (h : Compared losses besides r s)
    (h' : Compared more others r' s') :
    Compared (losses || more) (besides ++ others) (r >>= fun a => r' >>= fun b => pure (f a b))
      (s >>= fun a => s' >>= fun b => pure (f a b)) := by
  obtain ⟨a, ha, hsame, hless⟩ := h.ends
  obtain ⟨b, hb, hsame', hless'⟩ := h'.ends
  have hle := h.inkShown_le ha
  have hle' := h'.inkShown_le hb
  have hend {t t' : Rendering (List String)} (ht : t.outcome = .ok a) (ht' : t'.outcome = .ok b) :
      (t >>= fun a => t' >>= fun b => pure (f a b)) =
        ⟨.ok (f a b), t.issues ++ t'.issues, t.remoteImage || t'.remoteImage⟩ := by
    rw [Rendering.bind_of_ok ht, Rendering.bind_of_ok ht']
    simp [Rendering.after]
  refine ⟨⟨f a b, ?_, fun hnone => ?_, fun hsome => ?_⟩, fun hnone => ?_, fun hnone => ?_⟩
  · rw [hend ha hb]
  · obtain ⟨hl, hm⟩ := Bool.or_eq_false_iff.mp hnone
    rw [hend (hsame hl) (hsame' hm)]
  · have hsum : inkShown (r >>= fun a => r' >>= fun b => pure (f a b)).outcome ≤
        inkShown r.outcome + inkShown r'.outcome := by
      cases hr : r.outcome with
      | error e =>
        rw [Rendering.bind_of_error hr]
        exact Nat.zero_le _
      | ok x =>
        rw [Rendering.bind_of_ok hr]
        cases hr' : r'.outcome with
        | error e =>
          rw [Rendering.bind_of_error hr']
          exact Nat.zero_le _
        | ok y =>
          rw [Rendering.bind_of_ok hr']
          exact Nat.le_of_eq (hf x y)
    rw [hf]
    rcases Bool.or_eq_true_iff.mp hsome with hl | hm
    · have := hless hl
      omega
    · have := hless' hm
      omega
  · obtain ⟨hl, hm⟩ := Bool.or_eq_false_iff.mp hnone
    rw [hend ha hb, hend (hsame hl) (hsame' hm)]
    exact (h.sublist hl).append (h'.sublist hm)
  · obtain ⟨hl, hm⟩ := Bool.or_eq_false_iff.mp hnone
    rw [hend ha hb, hend (hsame hl) (hsame' hm)]
    refine ((h.perm hl).append (h'.perm hm)).trans ?_
    rw [List.append_assoc, List.append_assoc]
    refine List.Perm.append_left _ ?_
    rw [← List.append_assoc, ← List.append_assoc]
    exact List.perm_append_comm.append_right _

/-- A rendering that the first one has gone through before, and the second one has not. -/
theorem Compared.passed {α : Type} {before : Rendering α} {a : α}
    {f : α → Rendering (List String)} (hbefore : before.outcome = .ok a)
    (h : Compared losses besides (f a) s) :
    Compared losses (before.issues ++ besides) (before >>= f) s := by
  rw [Rendering.bind_of_ok hbefore]
  refine ⟨h.ends, fun hnone => (h.sublist hnone).trans (List.sublist_append_right _ _), ?_⟩
  intro hnone
  refine ((h.perm hnone).append_left before.issues).trans ?_
  rw [← List.append_assoc, ← List.append_assoc]
  exact List.perm_append_comm.append_right _

/-- Texts in the frame of a block, which adds a certain amount of ink. -/
theorem Compared.framed {frame : List String → String} (added : Nat)
    (hframe : ∀ parts, ink (frame parts) = added + inkOf parts) (name : String)
    (h : Compared losses besides r s) :
    Compared losses besides
      (((r >>= fun parts => pure (some (frame parts))).rescue (blockFailed name)) >>=
        fun shown => pure shown.toList)
      (((s >>= fun parts => pure (some (frame parts))).rescue (blockFailed name)) >>=
        fun shown => pure shown.toList) := by
  obtain ⟨parts, hs, hsame, hless⟩ := h.ends
  have hend {t : Rendering (List String)} {a : List String} (ht : t.outcome = .ok a) :
      (((t >>= fun parts => pure (some (frame parts))).rescue (blockFailed name)) >>=
        fun shown => pure shown.toList) = ⟨.ok [frame a], t.issues, t.remoteImage⟩ := by
    rw [Rendering.bind_of_ok ht]
    simp [Rendering.rescue, Rendering.after, bind, Rendering.andThen]
  refine ⟨⟨[frame parts], by rw [hend hs], fun hnone => by rw [hend (hsame hnone)], ?_⟩, ?_, ?_⟩
  · intro hsome
    have hmore := hless hsome
    rw [inkOf_singleton, hframe]
    cases hr : r.outcome with
    | error f =>
      rw [hr] at hmore
      have hnothing : (((r >>= fun parts => pure (some (frame parts))).rescue
          (blockFailed name)) >>= fun shown => pure shown.toList).outcome = .ok [] := by
        rw [Rendering.bind_of_error hr]
        rfl
      rw [hnothing]
      exact Nat.lt_of_lt_of_le hmore (Nat.le_add_left _ _)
    | ok a =>
      rw [hr] at hmore
      rw [hend hr]
      have hless : inkOf [frame a] < added + inkOf parts := by
        rw [inkOf_singleton, hframe]
        exact Nat.add_lt_add_left hmore added
      exact hless
  · intro hnone
    rw [hend hs, hend (hsame hnone)]
    exact h.sublist hnone
  · intro hnone
    rw [hend hs, hend (hsame hnone)]
    exact h.perm hnone

end Compared

end Typeset.Fault
