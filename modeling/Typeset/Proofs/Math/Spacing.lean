import Mathlib.Data.List.DropRight
import Typeset.Math.Pieces
import Typeset.Proofs.Text.Trim

/-! How Typst reads math from left to right: a backslash takes the next character along, and
quotation marks stand around strings. -/

namespace Typeset.Math

section Reading

variable {c : Char}

/-- Where the reading of math stands. -/
inductive Mode
  | plain
  | escaped
  | string
  | stringEscaped
  deriving DecidableEq, Repr

/-- What a character does to the reading. -/
def Mode.next : Mode → Char → Mode
  | .plain, c => if c = '\\' then .escaped else if c = '"' then .string else .plain
  | .escaped, _ => .plain
  | .string, c => if c = '\\' then .stringEscaped else if c = '"' then .plain else .string
  | .stringEscaped, _ => .string

/-- Where white space leads: it may be escaped, and is nothing else. -/
def Mode.settled : Mode → Mode
  | .plain => .plain
  | .escaped => .plain
  | .string => .string
  | .stringEscaped => .string

theorem Mode.settled_settled (m : Mode) : m.settled.settled = m.settled := by
  cases m <;> rfl

theorem ne_of_isBlank {d : Char} (h : Text.isBlank c = true) (hd : Text.isBlank d = false) :
    c ≠ d := by
  rintro rfl
  rw [h] at hd
  cases hd

theorem Mode.next_blank (m : Mode) (h : Text.isBlank c = true) : m.next c = m.settled := by
  have hslash : c ≠ '\\' := ne_of_isBlank h rfl
  have hquote : c ≠ '"' := ne_of_isBlank h rfl
  cases m <;> simp [Mode.next, Mode.settled, hslash, hquote]

end Reading

/-! What becomes of a text that is put between other pieces: their blanks may change, and what
begins and ends without one stays as it is. -/

section Spacing

open Text (isBlank trim trimRight exists_trimRight exists_dropWhile exists_trim)

variable {c d : Char} {xs ys u v p q lead blanks piece : List Char} {out : Pieces}

section Squeeze

theorem squeeze_cons_of_solid (h : isBlank c = false) : squeeze (c :: xs) = c :: squeeze xs := by
  rw [squeeze, if_neg (by simp [h])]

/-- A blank goes with the blank behind it. -/
theorem squeeze_cons_of_blank (h : isBlank c = true) (xs : List Char) :
    squeeze (c :: xs) =
      if (squeeze xs).head? = some ' ' then squeeze xs else ' ' :: squeeze xs := by
  rw [squeeze, if_pos h]
  split
  next more hmore =>
    rw [hmore]
    rfl
  next hmore =>
    rw [if_neg]
    intro hhead
    obtain ⟨more, heq⟩ := List.head?_eq_some_iff.mp hhead
    exact hmore more heq

theorem squeeze_ne_nil (h : xs ≠ []) : squeeze xs ≠ [] := by
  obtain ⟨c, xs, rfl⟩ := List.exists_cons_of_ne_nil h
  cases hc : isBlank c with
  | false =>
    rw [squeeze_cons_of_solid hc]
    exact List.cons_ne_nil _ _
  | true =>
    rw [squeeze_cons_of_blank hc]
    split
    next hhead =>
      intro hnil
      rw [hnil] at hhead
      cases hhead
    next => exact List.cons_ne_nil _ _

/-- Where a text ends without white space, it is squeezed apart from what follows. -/
theorem squeeze_append_of_last (h : ∀ d ∈ xs.getLast?, isBlank d = false) :
    squeeze (xs ++ ys) = squeeze xs ++ squeeze ys := by
  induction xs with
  | nil => rfl
  | cons c xs ih =>
    by_cases hne : xs = []
    · subst hne
      have hc : isBlank c = false := h c rfl
      rw [List.singleton_append, squeeze_cons_of_solid hc, squeeze_cons_of_solid hc]
      rfl
    · have htail := ih fun d hd => h d (by rw [List.getLast?_cons, hd]; rfl)
      rw [List.cons_append]
      cases hc : isBlank c with
      | false =>
        rw [squeeze_cons_of_solid hc, squeeze_cons_of_solid hc, htail, List.cons_append]
      | true =>
        have hhead : (squeeze xs ++ squeeze ys).head? = (squeeze xs).head? :=
          List.head?_append_of_ne_nil _ (squeeze_ne_nil hne)
        rw [squeeze_cons_of_blank hc, squeeze_cons_of_blank hc, htail, hhead]
        split
        · rfl
        · rfl

/-- Where a text begins without white space, it is squeezed apart from what stands before it. -/
theorem squeeze_append_of_head (h : ∀ d ∈ ys.head?, isBlank d = false) :
    squeeze (xs ++ ys) = squeeze xs ++ squeeze ys := by
  induction xs with
  | nil => rfl
  | cons c xs ih =>
    rw [List.cons_append]
    cases hc : isBlank c with
    | false => rw [squeeze_cons_of_solid hc, squeeze_cons_of_solid hc, ih, List.cons_append]
    | true =>
      have hhead : (squeeze xs ++ squeeze ys).head? = some ' ' ↔
          (squeeze xs).head? = some ' ' := by
        by_cases hne : xs = []
        · subst hne
          cases ys with
          | nil => rfl
          | cons d ys =>
            have hd : isBlank d = false := h d rfl
            rw [squeeze_cons_of_solid hd]
            have hne : d ≠ ' ' := (ne_of_isBlank rfl hd).symm
            simp [squeeze, hne]
        · rw [List.head?_append_of_ne_nil _ (squeeze_ne_nil hne)]
      rw [squeeze_cons_of_blank hc, squeeze_cons_of_blank hc, ih]
      simp only [hhead]
      split
      · rfl
      · rfl

end Squeeze

/-- A text that neither begins nor ends with white space. -/
structure Firm (v : List Char) : Prop where
  ne_nil : v ≠ []
  head : ∀ c ∈ v.head?, isBlank c = false
  last : ∀ c ∈ v.getLast?, isBlank c = false

/-- Somewhere in a text stands what is squeezed to another one. -/
def Shows (u p : List Char) : Prop := ∃ v, v <:+: p ∧ Firm v ∧ squeeze v = u

section Shows

theorem Firm.within_of_lead (hv : Firm v) (h : v <:+: lead ++ p)
    (hlead : ∀ c ∈ lead, isBlank c = true) : v <:+: p := by
  obtain ⟨before, after, heq⟩ := h
  rw [List.append_assoc] at heq
  obtain ⟨more, hin, hout⟩ | ⟨more, hin, hout⟩ := List.append_eq_append_iff.mp heq
  · cases more with
    | nil => exact ⟨[], after, by rw [List.nil_append]; exact hout⟩
    | cons c more =>
      obtain ⟨d, v', rfl⟩ := List.exists_cons_of_ne_nil hv.ne_nil
      obtain ⟨rfl, -⟩ := List.cons.inj hout
      have hsolid := hv.head d rfl
      rw [hlead d (by rw [hin]; simp)] at hsolid
      cases hsolid
  · exact ⟨more, after, by rw [List.append_assoc]; exact hout.symm⟩

theorem Firm.within_of_blanks (hv : Firm v) (h : v <:+: p ++ blanks)
    (hblanks : ∀ c ∈ blanks, isBlank c = true) : v <:+: p := by
  obtain ⟨before, after, heq⟩ := h
  obtain ⟨more, hin, hout⟩ | ⟨more, hin, hout⟩ := List.append_eq_append_iff.mp heq
  · exact ⟨before, more, hin.symm⟩
  · obtain ⟨v', d, rfl⟩ := (List.eq_nil_or_concat' v).resolve_left hv.ne_nil
    have hsolid := hv.last d (by simp)
    obtain rfl | ⟨more, e, rfl⟩ := List.eq_nil_or_concat' more
    · rw [List.append_nil] at hin
      exact ⟨before, [], by rw [List.append_nil, hin]⟩
    · rw [← List.append_assoc, ← List.append_assoc] at hin
      obtain ⟨-, hlast⟩ := List.append_inj' hin rfl
      obtain rfl : d = e := by simpa using hlast
      rw [hblanks d (by rw [hout]; simp)] at hsolid
      cases hsolid

theorem Firm.within_trim (hv : Firm v) (h : v <:+: p) : v <:+: trim isBlank p := by
  obtain ⟨lead, blanks, hp, hlead, hblanks⟩ := exists_trim p
  rw [hp] at h
  exact hv.within_of_blanks (hv.within_of_lead h hlead) hblanks

theorem Firm.squeeze (h : Firm v) : Firm (squeeze v) := by
  obtain ⟨v', d, rfl⟩ := (List.eq_nil_or_concat' v).resolve_left h.ne_nil
  have hd : isBlank d = false := h.last d (by simp)
  refine ⟨squeeze_ne_nil h.ne_nil, ?_, ?_⟩
  · obtain ⟨c, more, hv⟩ := List.exists_cons_of_ne_nil h.ne_nil
    have hc : isBlank c = false := h.head c (by rw [hv]; rfl)
    rw [hv, squeeze_cons_of_solid hc]
    rintro _ ⟨⟩
    exact hc
  · have hlast : ∀ e ∈ [d].head?, isBlank e = false := by
      rintro _ ⟨⟩
      exact hd
    rw [squeeze_append_of_head hlast, squeeze_cons_of_solid hd]
    intro c hc
    rw [squeeze, List.getLast?_concat] at hc
    cases hc
    exact hd

theorem Shows.of_within (h : Shows u p) (hp : p <:+: q) : Shows u q := by
  obtain ⟨v, hv, hfirm, hu⟩ := h
  exact ⟨v, hv.trans hp, hfirm, hu⟩

theorem Shows.of_lead (h : Shows u (lead ++ p)) (hlead : ∀ c ∈ lead, isBlank c = true) :
    Shows u p := by
  obtain ⟨v, hv, hfirm, hu⟩ := h
  exact ⟨v, hfirm.within_of_lead hv hlead, hfirm, hu⟩

theorem Shows.of_blanks (h : Shows u (p ++ blanks)) (hblanks : ∀ c ∈ blanks, isBlank c = true) :
    Shows u p := by
  obtain ⟨v, hv, hfirm, hu⟩ := h
  exact ⟨v, hfirm.within_of_blanks hv hblanks, hfirm, hu⟩

theorem Shows.trim (h : Shows u p) : Shows u (trim isBlank p) := by
  obtain ⟨v, hv, hfirm, hu⟩ := h
  exact ⟨v, hfirm.within_trim hv, hfirm, hu⟩

/-- What is shown stands in the text once it is squeezed and trimmed. -/
theorem Shows.within_text (h : Shows u p) : u <:+: Text.trim isBlank (Math.squeeze p) := by
  obtain ⟨v, ⟨before, after, rfl⟩, hfirm, rfl⟩ := h
  have hhead : ∀ c ∈ (v ++ after).head?, isBlank c = false := by
    rw [List.head?_append_of_ne_nil _ hfirm.ne_nil]
    exact hfirm.head
  refine hfirm.squeeze.within_trim ⟨Math.squeeze before, Math.squeeze after, ?_⟩
  rw [List.append_assoc, List.append_assoc, squeeze_append_of_head hhead,
    squeeze_append_of_last hfirm.last]

theorem squeeze_squeeze (p : List Char) : Math.squeeze (Math.squeeze p) = Math.squeeze p := by
  induction p with
  | nil => rfl
  | cons c p ih =>
    cases hc : isBlank c with
    | false => rw [squeeze_cons_of_solid hc, squeeze_cons_of_solid hc, ih]
    | true =>
      rw [squeeze_cons_of_blank hc]
      split
      · exact ih
      next hhead =>
        have hblank : isBlank ' ' = true := rfl
        rw [squeeze_cons_of_blank hblank, ih, if_neg hhead]

/-- What is shown is shown once the text is squeezed and trimmed. -/
theorem Shows.text (h : Shows u p) : Shows u (Text.trim isBlank (Math.squeeze p)) := by
  have hwithin := h.within_text
  obtain ⟨v, -, hfirm, rfl⟩ := h
  exact ⟨Math.squeeze v, hwithin, hfirm.squeeze, squeeze_squeeze v⟩

theorem Shows.ne_nil (h : Shows u p) : p ≠ [] := by
  obtain ⟨v, hv, hfirm, -⟩ := h
  rintro rfl
  exact hfirm.ne_nil (List.infix_nil.mp hv)

end Shows

section Add

/-- The pieces one after the other. -/
def Pieces.whole (out : Pieces) : List Char := out.reversed.reverse.flatten

theorem Pieces.text_eq (out : Pieces) : out.text = trim isBlank (squeeze out.whole) := rfl

/-- What another piece changes: a blank may come before it, and a script mark at its start takes
away the white space on both sides. -/
theorem Pieces.whole_add (out : Pieces) (piece : List Char) :
    ∃ kept blanks gap lead rest, out.whole = kept ++ blanks ∧ piece = lead ++ rest ∧
      (out.add piece).whole = kept ++ (gap ++ rest) ∧ (gap = [] ∨ gap = [' ']) ∧
      (∀ c ∈ blanks, isBlank c = true) ∧ (∀ c ∈ lead, isBlank c = true) ∧
      (blanks = [] ∧ lead = [] ∨ ∃ c more, rest = c :: more ∧ isScriptMark c = true) := by
  obtain ⟨reversed⟩ := out
  rw [add]
  split
  next hempty =>
    obtain rfl := List.isEmpty_iff.mp hempty
    exact ⟨_, [], [], [], [], (List.append_nil _).symm, rfl, by simp, .inl rfl, by simp, by simp,
      .inl ⟨rfl, rfl⟩⟩
  next hne =>
    cases reversed with
    | nil =>
      exact ⟨[], [], [], [], piece, rfl, rfl, by simp [whole], .inl rfl, by simp, by simp,
        .inl ⟨rfl, rfl⟩⟩
    | cons before earlier =>
      have hgap (b q : List Char) : ∃ gap, (if runsInto b q then ' ' :: q else q) = gap ++ q ∧
          (gap = [] ∨ gap = [' ']) := by
        split
        · exact ⟨[' '], rfl, .inr rfl⟩
        · exact ⟨[], rfl, .inl rfl⟩
      dsimp only
      by_cases hscript : startsScript piece = true
      · rw [if_pos hscript]
        obtain ⟨blanks, hbefore, hblanks⟩ := exists_trimRight before
        obtain ⟨lead, hpiece, hlead⟩ := exists_dropWhile piece
        obtain ⟨gap, heq, hcases⟩ := hgap (trimRight isBlank before) (piece.dropWhile isBlank)
        refine ⟨earlier.reverse.flatten ++ trimRight isBlank before, blanks, gap, lead,
          piece.dropWhile isBlank, ?_, hpiece, ?_, hcases, hblanks, hlead, .inr ?_⟩
        · simp only [whole, List.reverse_cons, List.flatten_append, List.flatten_singleton]
          rw [List.append_assoc, ← hbefore]
        · rw [heq]
          simp [whole]
        · rw [startsScript] at hscript
          split at hscript
          next c more hmore => exact ⟨c, more, hmore, hscript⟩
          next => cases hscript
      · rw [if_neg hscript]
        obtain ⟨gap, heq, hcases⟩ := hgap before piece
        refine ⟨earlier.reverse.flatten ++ before, [], gap, [], piece, ?_, rfl, ?_, hcases, by simp,
          by simp, .inl ⟨rfl, rfl⟩⟩
        · simp [whole]
        · dsimp only
          rw [heq]
          simp [whole]

/-- What was shown before is still shown after another piece. -/
theorem Shows.add_left (h : Shows u out.whole) (piece : List Char) :
    Shows u (out.add piece).whole := by
  obtain ⟨kept, blanks, gap, lead, rest, hout, -, hadd, -, hblanks, -⟩ := out.whole_add piece
  rw [hout] at h
  rw [hadd]
  exact (h.of_blanks hblanks).of_within (List.prefix_append _ _).isInfix

theorem Shows.add_right (h : Shows u piece) (out : Pieces) : Shows u (out.add piece).whole := by
  obtain ⟨kept, blanks, gap, lead, rest, -, hpiece, hadd, -, -, hlead, -⟩ := out.whole_add piece
  rw [hpiece] at h
  rw [hadd, ← List.append_assoc]
  exact (h.of_lead hlead).of_within (List.suffix_append _ _).isInfix

end Add

section Attach

/-- What is put down for a piece that is an operand. -/
def Pieces.operandText (out : Pieces) (piece : List Char) : List Char :=
  if out.expectsOperand then
    match trim isBlank piece with
    | [c] => [c]
    | operand => '(' :: operand ++ [')']
  else piece

theorem Pieces.attach_eq (out : Pieces) (piece : List Char) :
    out.attach piece = out.add (out.operandText piece) := by
  rw [attach, operandText]
  split
  · generalize trim isBlank piece = operand
    rcases operand with _ | ⟨c, _ | ⟨d, more⟩⟩ <;> rfl
  · rfl

theorem Shows.operandText (h : Shows u piece) (out : Pieces) :
    Shows u (out.operandText piece) := by
  rw [Pieces.operandText]
  split
  · have htrim := h.trim
    split
    next c hc => rwa [hc] at htrim
    next => exact htrim.of_within ⟨['('], [')'], by simp⟩
  · exact h

theorem Shows.attach_right (h : Shows u piece) (out : Pieces) :
    Shows u (out.attach piece).whole := by
  rw [Pieces.attach_eq]
  exact (h.operandText out).add_right out

theorem Shows.attach_left (h : Shows u out.whole) (piece : List Char) :
    Shows u (out.attach piece).whole := by
  rw [Pieces.attach_eq]
  exact h.add_left _

end Attach

end Spacing

end Typeset.Math
