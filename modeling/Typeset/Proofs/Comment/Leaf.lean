import Typeset.Markup.Escape
import Typeset.Proofs.Render.Footnote
import Typeset.Proofs.Render.Postcondition
import Typeset.Proofs.Text.Scan
import Typeset.Text.Blank

/-! Where markup opens a comment: at a slash before another slash or an asterisk, unless a backslash
stands before the slash. -/

namespace Typeset.Comment

open Scan

/-- What the last character means to the next one. -/
inductive State
  | plain
  /-- After a backslash. -/
  | escaped
  /-- After a slash. -/
  | slash
  deriving DecidableEq

/-- One character; none if it opens a comment. -/
def step (s : State) (c : Char) : Option State :=
  match s with
  | .escaped => some .plain
  | .slash =>
    if c = '/' ∨ c = '*' then none else if c = '\\' then some .escaped else some .plain
  | .plain =>
    if c = '\\' then some .escaped else if c = '/' then some .slash else some .plain

/-- A comment is opened somewhere in the text. -/
def OpensComment (text : String) : Prop := run step .plain text.toList = none

instance (text : String) : Decidable (OpensComment text) :=
  inferInstanceAs (Decidable (_ = _))

variable {s t : State} {c : Char} {xs ys cs : List Char}

/-- A character that has no part in comments. -/
def isInert (c : Char) : Bool := c != '\\' && c != '/' && c != '*'

theorem step_inert (h : isInert c) (s : State) : step s c = some .plain := by
  simp only [isInert, Bool.and_eq_true, bne_iff_ne] at h
  obtain ⟨⟨hback, hslash⟩, hstar⟩ := h
  cases s <;> simp [step, hback, hslash, hstar]

theorem run_inert (h : ∀ c ∈ cs, isInert c) (hne : cs ≠ []) (s : State) :
    run step s cs = some .plain := by
  induction cs generalizing s with
  | nil => exact (hne rfl).elim
  | cons c rest ih =>
    obtain ⟨hc, hrest⟩ := List.forall_mem_cons.mp h
    rw [run_cons, step_inert hc, Option.bind_some]
    by_cases hr : rest = []
    · subst hr
      rfl
    · exact ih hrest hr .plain

/-- Only a slash makes a difference to what follows, and only to what starts with a slash or an
asterisk. -/
theorem step_slash (hslash : c ≠ '/') (hstar : c ≠ '*') : step .slash c = step .plain c := by
  simp [step, hslash, hstar]

/-- After literal text, the last character of the text counts. -/
def after (cs : List Char) : State := if cs.getLast? = some '/' then .slash else .plain

/-- The text starts with a slash that is written without a backslash. -/
def StartsLone (cs : List Char) : Prop :=
  cs.head? = some '/' ∧ ¬ Markup.opensComment '/' cs.tail

theorem after_cons_of_ne (hc : c ≠ '/') : after (c :: cs) = after cs := by
  cases cs with
  | nil => simp [after, hc]
  | cons d rest => simp [after, List.getLast?_cons_cons]

theorem after_cons_of_ne_nil (hne : cs ≠ []) : after (c :: cs) = after cs := by
  obtain ⟨d, rest, rfl⟩ := List.exists_cons_of_ne_nil hne
  simp [after, List.getLast?_cons_cons]

theorem ne_of_not_special (h : ¬ Markup.isSpecial c) : c ≠ '\\' ∧ c ≠ '*' := by
  simp only [Markup.isSpecial, Bool.or_eq_true, beq_iff_eq, not_or] at h
  obtain ⟨⟨⟨⟨⟨⟨⟨⟨⟨⟨⟨hback, _⟩, hstar⟩, _⟩, _⟩, _⟩, _⟩, _⟩, _⟩, _⟩, _⟩, _⟩ := h
  exact ⟨hback, hstar⟩

/-- Literal text after a slash opens a comment only if it starts with a slash of its own. -/
theorem run_slash_escapeChars (hne : cs ≠ []) :
    (StartsLone cs → run step .slash (Markup.escapeChars cs) = none) ∧
      (¬ StartsLone cs →
        run step .slash (Markup.escapeChars cs) = run step .plain (Markup.escapeChars cs)) := by
  obtain ⟨c, rest, rfl⟩ := List.exists_cons_of_ne_nil hne
  rw [Markup.escapeChars]
  by_cases h : Markup.isSpecial c ∨ Markup.opensComment c rest
  · rw [if_pos (by simpa using h)]
    refine ⟨fun hl => ?_, fun _ => rfl⟩
    obtain ⟨hhead, hlone⟩ := hl
    obtain rfl : c = '/' := by simpa using hhead
    rcases h with h | h
    · cases h
    · exact (hlone h).elim
  · rw [if_neg (by simpa using h)]
    obtain ⟨hs, ho⟩ := not_or.mp h
    obtain ⟨hback, hstar⟩ := ne_of_not_special hs
    by_cases hc : c = '/'
    · subst hc
      exact ⟨fun _ => rfl, fun hl => (hl ⟨rfl, ho⟩).elim⟩
    · refine ⟨fun hl => (hc (by simpa using hl.1)).elim, fun _ => ?_⟩
      rw [run_cons, run_cons, step_slash hc hstar]

/-- Literal text by itself opens no comment. -/
theorem run_escapeChars (cs : List Char) :
    run step .plain (Markup.escapeChars cs) = some (after cs) := by
  induction cs with
  | nil => rfl
  | cons c rest ih =>
    rw [Markup.escapeChars]
    by_cases h : Markup.isSpecial c ∨ Markup.opensComment c rest
    · rw [if_pos (by simpa using h)]
      have hskip : after (c :: rest) = after rest := by
        by_cases hc : c = '/'
        · subst hc
          rcases h with h | h
          · cases h
          · refine after_cons_of_ne_nil fun hr => ?_
            simp [hr, Markup.opensComment] at h
        · exact after_cons_of_ne hc
      rw [hskip]
      exact ih
    · rw [if_neg (by simpa using h)]
      obtain ⟨hs, ho⟩ := not_or.mp h
      obtain ⟨hback, hstar⟩ := ne_of_not_special hs
      by_cases hc : c = '/'
      · subst hc
        have hstep : step .plain '/' = some .slash := rfl
        rw [run_cons, hstep, Option.bind_some]
        by_cases hr : rest = []
        · subst hr
          rfl
        · rw [(run_slash_escapeChars hr).2, ih, after_cons_of_ne_nil hr]
          rintro ⟨hhead, hlone⟩
          simp [Markup.opensComment, hhead] at ho
      · have hstep : step .plain c = some .plain := by simp [step, hback, hc]
        rw [run_cons, hstep, Option.bind_some, ih, after_cons_of_ne hc]

end Typeset.Comment

/-! The pieces of rendered inlines, in the order in which they are read, and how a comment is opened
where two of them meet. -/

namespace Typeset.Comment

open Render Scan

/-- A piece of rendered inlines. -/
inductive Leaf
  /-- Literal text. -/
  | text (raw : String)
  /-- The beginning or end of a wrapper, or a break. -/
  | mark (shown : String)
  /-- A reference to a footnote. -/
  | note (identifier : String)

/-- What is written around and between inlines. -/
def marks : List String :=
  ["*", "_", "#strike[", "#highlight[", "#super[", "#sub[", "]", " ", "\\\n"]

namespace Leaf

/-- The markup of a piece. -/
def shown (env : Environment) (active : List String) : Leaf → String
  | .text raw => Markup.escape raw
  | .mark shown => shown
  | .note identifier => ((noteFor env active identifier).outcome.toOption).getD ""

/-- What the end of a piece means to the next one. -/
def after : Leaf → State
  | .text raw => Comment.after raw.toList
  | _ => .plain

/-- A piece that starts with a slash or an asterisk. -/
def Starts : Leaf → Prop
  | .text raw => StartsLone raw.toList
  | .mark shown => shown = "*"
  | .note _ => False

/-- A piece that inlines are rendered to. -/
def Proper : Leaf → Prop
  | .mark shown => shown ∈ marks
  | _ => True

end Leaf

variable {env : Environment} {active : List String} {s : State} {cs : List Char}

theorem isInert_of_isBlank {c : Char} (h : Text.isBlank c) : isInert c := by
  simp only [isInert, Bool.and_eq_true, bne_iff_ne]
  refine ⟨⟨?_, ?_⟩, ?_⟩
  · rintro rfl
    exact absurd h (by decide)
  · rintro rfl
    exact absurd h (by decide)
  · rintro rfl
    exact absurd h (by decide)

theorem run_blanks (h : ∀ c ∈ cs, Text.isBlank c) (s : State) : run step s cs ≠ none := by
  by_cases hne : cs = []
  · simp [hne]
  · rw [run_inert (fun c hc => isInert_of_isBlank (h c hc)) hne]
    simp

/-- A text is what is left of it between its blanks. -/
theorem exists_blanks (cs : List Char) : ∃ lead trail,
    cs = lead ++ (Text.trim Text.isBlank cs ++ trail) ∧ (∀ c ∈ lead, Text.isBlank c) ∧
      ∀ c ∈ trail, Text.isBlank c := by
  have hlead := List.takeWhile_append_dropWhile (p := Text.isBlank) (l := cs)
  have htrail := List.takeWhile_append_dropWhile (p := Text.isBlank)
    (l := (cs.dropWhile Text.isBlank).reverse)
  refine ⟨cs.takeWhile Text.isBlank,
    ((cs.dropWhile Text.isBlank).reverse.takeWhile Text.isBlank).reverse, ?_, ?_, ?_⟩
  · rw [Text.trim, Text.trimRight, ← List.reverse_append, htrail, List.reverse_reverse, hlead]
  · exact fun c hc => List.all_eq_true.mp List.all_takeWhile c hc
  · exact fun c hc => List.all_eq_true.mp List.all_takeWhile c (List.mem_reverse.mp hc)

theorem opensComment_strip (text : String) :
    OpensComment (Text.strip text) ↔ OpensComment text := by
  obtain ⟨lead, trail, hcs, hl, ht⟩ := exists_blanks text.toList
  have hstart : run step .plain lead = some .plain := by
    by_cases hne : lead = []
    · rw [hne]
      rfl
    · exact run_inert (fun c hc => isInert_of_isBlank (hl c hc)) hne .plain
  have hrun : run step .plain text.toList =
      run step .plain (Text.trim Text.isBlank text.toList ++ trail) :=
    (congrArg (run step .plain) hcs).trans (run_append_of_eq hstart)
  unfold OpensComment
  rw [hrun, run_append, Text.strip, String.toList_ofList]
  cases h : run step .plain (Text.trim Text.isBlank text.toList) with
  | none => simp
  | some t => simpa using run_blanks ht t

theorem opensComment_intercalate (parts : List String) :
    OpensComment (" ".intercalate parts) ↔ ∃ part ∈ parts, OpensComment part := by
  induction parts with
  | nil => simp [OpensComment]
  | cons part rest ih =>
    cases rest with
    | nil => simp
    | cons next rest =>
      have hsplit : (∃ p ∈ part :: next :: rest, OpensComment p) ↔
          OpensComment part ∨ ∃ p ∈ next :: rest, OpensComment p := by simp
      rw [hsplit, ← ih]
      unfold OpensComment
      rw [String.intercalate_cons_cons, String.toList_append, String.toList_append,
        List.append_assoc, run_append]
      cases h : run step .plain part.toList with
      | none => simp
      | some t =>
        have hblank : step t ' ' = some .plain := step_inert rfl t
        simp [hblank]

/-- A footnote's markup opens a comment where one of its blocks does, and nothing that stands beside
it takes part. -/
theorem run_footnoteMarkup (parts : List String) (s : State) :
    ((∃ part ∈ parts, OpensComment part) → run step s (footnoteMarkup parts).toList = none) ∧
      ((¬ ∃ part ∈ parts, OpensComment part) →
        run step s (footnoteMarkup parts).toList = some .plain) := by
  have hopen : run step s "#footnote[".toList = some .plain :=
    run_inert (List.all_eq_true.mp rfl) (List.cons_ne_nil _ _) s
  rw [← opensComment_intercalate, ← opensComment_strip]
  unfold OpensComment
  rw [footnoteMarkup, String.toList_append, String.toList_append, List.append_assoc,
    run_append_of_eq hopen, run_append]
  cases h : run step .plain (Text.strip (" ".intercalate parts)).toList with
  | none => simp
  | some t =>
    have hclose : step t ']' = some .plain := step_inert rfl t
    simp [hclose]

namespace Leaf

/-- A piece opens a comment by itself only if it is a footnote with a block that does. -/
def Opens (env : Environment) (active : List String) : Leaf → Prop
  | .note identifier => ∃ body parts, Expands env active identifier body parts ∧
      ∃ part ∈ parts, OpensComment part
  | _ => False

/-- What reading a piece that shows something comes to. -/
theorem run_shown {leaf : Leaf} (hp : leaf.Proper) (hne : leaf.shown env active ≠ "") :
    (leaf.Opens env active → ∀ s, run step s (leaf.shown env active).toList = none) ∧
      (leaf.Starts → run step .slash (leaf.shown env active).toList = none) ∧
      (¬ leaf.Opens env active →
        run step .plain (leaf.shown env active).toList = some leaf.after ∧
          (¬ leaf.Starts → run step .slash (leaf.shown env active).toList = some leaf.after)) := by
  cases leaf with
  | text raw =>
    have hraw : raw.toList ≠ [] := by
      intro h
      rw [shown, Markup.escape, h] at hne
      exact hne rfl
    obtain ⟨hlone, hplain⟩ := run_slash_escapeChars hraw
    rw [shown, Markup.escape, String.toList_ofList, run_escapeChars]
    exact ⟨fun h => h.elim, hlone, fun _ => ⟨rfl, fun h => (hplain h).trans (run_escapeChars _)⟩⟩
  | mark mark =>
    have hmarks : ∀ m ∈ marks, run step .plain m.toList = some .plain ∧
        (m = "*" → run step .slash m.toList = none) ∧
        (m ≠ "*" → run step .slash m.toList = some .plain) := by
      decide
    obtain ⟨hplain, hstar, hother⟩ := hmarks mark hp
    exact ⟨fun h => h.elim, hstar, fun _ => ⟨hplain, hother⟩⟩
  | note identifier =>
    obtain ⟨body, parts, hparts⟩ | hnot := expands_or_not env active identifier
    · have hshown : shown env active (.note identifier) = footnoteMarkup parts := by
        rw [shown, noteFor_of_expands hparts]
        rfl
      rw [hshown]
      refine ⟨fun ho s => ?_, fun h => h.elim, fun ho => ?_⟩
      · obtain ⟨others, more, hmore, hopens⟩ := ho
        rw [(hparts.unique hmore).2]
        exact (run_footnoteMarkup more s).1 hopens
      · have hnone : ¬ ∃ part ∈ parts, OpensComment part :=
          fun h => ho ⟨body, parts, hparts, h⟩
        exact ⟨(run_footnoteMarkup parts .plain).2 hnone,
          fun _ => (run_footnoteMarkup parts .slash).2 hnone⟩
    · rw [shown, noteFor_of_not_expands hnot] at hne
      exact (hne rfl).elim

end Leaf

end Typeset.Comment
