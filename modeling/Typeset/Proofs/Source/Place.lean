import Typeset.Proofs.Source.Account

/-! The lines of a document as a machine reads them, one after the other and without looking ahead.
Taking definitions out looks at the line below a blank one in a footnote; the machine waits instead.
Both stand in the same place at each line that cannot belong to the footnote above it, so that such
a line is met in a state that the lines before it tell. -/

namespace Typeset.Source

variable {line : Line} {before after ls : List Line}

/-- Where a reader stands behind some lines: outside fences, inside one, in a footnote, or behind a
blank line that may still belong to one. -/
inductive Place
  | text (afterBlank : Bool)
  | code (fence : Line)
  | note
  | gap

namespace Place

/-- The place behind a line outside fences and footnotes. -/
def outside (afterBlank : Bool) (line : Line) : Place :=
  match fence? line with
  | some fence => code fence
  | none =>
    match noteStart? line with
    | some _ => note
    | none =>
      match if afterBlank then link? line else none with
      | some _ => text afterBlank
      | none => text (line.all Text.isBlank)

/-- The place behind one more line. -/
def next : Place → Line → Place
  | text afterBlank, line => outside afterBlank line
  | code fence, line => if closesFence fence line then text false else code fence
  | note, line =>
    if (outdent? line).isSome then note
    else if line.all Text.isBlank then gap
    else outside true line
  | gap, line => if (outdent? line).isSome then note else outside true line

/-- The fence that is open. -/
def opened : Place → Option Line
  | code fence => some fence
  | _ => none

/-- Whether a link definition may come. -/
def admits : Place → Bool
  | text afterBlank => afterBlank
  | code _ => false
  | note => true
  | gap => true

@[simp] theorem opened_text (afterBlank : Bool) : (text afterBlank).opened = none := rfl

@[simp] theorem admits_text (afterBlank : Bool) : (text afterBlank).admits = afterBlank := rfl

/-- Outside footnotes. -/
def Settled : Place → Prop
  | text _ => True
  | code _ => True
  | note => False
  | gap => False

/-- The place behind lines. -/
def behind (before : List Line) : Place := before.foldl next (text true)

@[simp] theorem behind_nil : behind [] = text true := rfl

@[simp] theorem behind_concat (before : List Line) (line : Line) :
    behind (before ++ [line]) = (behind before).next line :=
  List.foldl_concat next (text true) line before

end Place

section Blank

theorem fence?_blank (h : line.all Text.isBlank = true) : fence? line = none := by
  have hall := List.all_eq_true.mp h
  unfold fence?
  dsimp only
  split
  · rfl
  · split
    next c rest hbody =>
      have hmem : c ∈ line := List.mem_of_mem_drop (hbody ▸ List.mem_cons_self)
      have hc := hall c hmem
      rw [if_neg]
      simp only [Bool.or_eq_true, decide_eq_true_eq]
      rintro (rfl | rfl)
      · cases hc
      · cases hc
    · rfl

theorem head?_ne_bracket (h : line.all Text.isBlank = true) : line.head? ≠ some '[' := by
  intro hhead
  exact absurd (List.all_eq_true.mp h '[' (List.mem_of_mem_head? hhead)) (by decide)

/-- A line of blanks is no fence and no definition. -/
theorem Place.outside_blank (afterBlank : Bool) (h : line.all Text.isBlank = true) :
    Place.outside afterBlank line = text true := by
  have hhead := head?_ne_bracket h
  rw [outside, fence?_blank h, noteStart?_of_head? hhead, link?_of_head? hhead, ite_self, h]

end Blank

/-- A line with a unit of indentation opens no fence. -/
theorem fence?_indented (h : (outdent? line).isSome = true) : fence? line = none := by
  unfold outdent? at h
  split at h
  · simp [fence?]
  · simp [fence?]
  · cases h

/-- A footnote that goes on over some lines leaves the machine where it would stand behind the
others alone. -/
theorem foldl_next_note (ls : List Line) :
    (ls.foldl Place.next .note).opened =
        ((continuation ls).2.foldl Place.next (.text true)).opened ∧
      (ls.foldl Place.next .note).admits =
        ((continuation ls).2.foldl Place.next (.text true)).admits := by
  fun_induction continuation ls with
  | case1 => exact ⟨rfl, rfl⟩
  | case2 line rest text h body after hc ih =>
    rw [hc] at ih
    have hnext : Place.next .note line = .note := if_pos (by rw [h]; rfl)
    rw [List.foldl_cons, hnext]
    exact ih
  | case3 line rest h hgoes body after hc ih =>
    rw [hc] at ih
    obtain ⟨hblank, hbelow⟩ := Bool.and_eq_true_iff.mp hgoes
    have hnext : Place.next .note line = .gap := by simp [Place.next, h, hblank]
    -- The line below is indented, and brings the machine back from the gap.
    cases rest with
    | nil => cases hbelow
    | cons below more =>
      have hback (place : Place) (hplace : place = .note ∨ place = .gap) :
          place.next below = .note := by
        rcases hplace with rfl | rfl
        · exact if_pos hbelow
        · exact if_pos hbelow
      rw [List.foldl_cons, hnext, List.foldl_cons, hback .gap (.inr rfl)]
      rw [List.foldl_cons, hback .note (.inl rfl)] at ih
      exact ih
  | case4 line rest h hgoes =>
    by_cases hblank : line.all Text.isBlank = true
    · have hnext : Place.next .note line = .gap := by simp [Place.next, h, hblank]
      have htext : Place.next (.text true) line = .text true := Place.outside_blank true hblank
      rw [List.foldl_cons, hnext, List.foldl_cons, htext]
      cases rest with
      | nil => exact ⟨rfl, rfl⟩
      | cons below more =>
        have hbelow : (outdent? below).isSome = false := by simpa [hblank] using hgoes
        have hsame : Place.next .gap below = Place.next (.text true) below := by
          simp [Place.next, hbelow]
        rw [List.foldl_cons, List.foldl_cons, hsame]
        exact ⟨rfl, rfl⟩
    · have hsame : Place.next .note line = Place.next (.text true) line := by
        simp [Place.next, h, hblank]
      rw [List.foldl_cons, List.foldl_cons, hsame]
      exact ⟨rfl, rfl⟩

/-- A line that does not belong to a footnote above it, whatever comes below. -/
structure Starts (line : Line) : Prop where
  unindented : outdent? line = none
  shown : line.all Text.isBlank = false

theorem Starts.ne_nil (h : Starts line) : line ≠ [] := by
  rintro rfl
  cases h.shown

theorem starts_bracket (rest : Line) : Starts ('[' :: rest) := by
  constructor
  · rfl
  · simp [Text.isBlank]

theorem continuation_append (hline : Starts line) (before after : List Line) :
    continuation (before ++ line :: after) =
      ((continuation before).1, (continuation before).2 ++ line :: after) := by
  have hstop (rest : List Line) (h : (rest.head?.bind outdent?).isSome = false) :
      ((rest ++ line :: after).head?.bind outdent?).isSome = false := by
    cases rest with
    | nil => simp [hline.unindented]
    | cons next rest => exact h
  fun_induction continuation before with
  | case1 =>
    rw [List.nil_append, continuation]
    simp [hline.unindented, hline.shown]
  | case2 first rest text h body behind hc ih =>
    rw [List.cons_append, continuation, h]
    dsimp only
    rw [ih, hc]
  | case3 first rest h hgoes body behind hc ih =>
    obtain ⟨hblank, hbelow⟩ := Bool.and_eq_true_iff.mp hgoes
    have hgoes' : (first.all Text.isBlank &&
        ((rest ++ line :: after).head?.bind outdent?).isSome) = true := by
      cases rest with
      | nil => cases hbelow
      | cons next rest => exact hgoes
    rw [List.cons_append, continuation, h]
    dsimp only
    rw [if_pos hgoes', ih, hc]
  | case4 first rest h hgoes =>
    have hgoes' : (first.all Text.isBlank &&
        ((rest ++ line :: after).head?.bind outdent?).isSome) = false := by
      by_cases hblank : first.all Text.isBlank = true
      · rw [hblank, Bool.true_and] at hgoes ⊢
        exact hstop rest (Bool.eq_false_iff.mpr hgoes)
      · rw [Bool.eq_false_iff.mpr hblank, Bool.false_and]
    rw [List.cons_append, continuation, h]
    dsimp only
    rw [hgoes', if_neg Bool.false_ne_true]

/-- What is left of two stretches of a document, and taken out of them, one behind the other. -/
instance : Append Lifted where
  append a b :=
    { kept := a.kept ++ b.kept
      links := a.links ++ b.links
      notes := a.notes ++ b.notes }

theorem Lifted.append_assoc (a b c : Lifted) : a ++ b ++ c = a ++ (b ++ c) := by
  change Lifted.mk _ _ _ = Lifted.mk _ _ _
  congr 1
  · exact List.append_assoc _ _ _
  · exact List.append_assoc _ _ _
  · exact List.append_assoc _ _ _

/-- One line, read outside footnotes: the machine and the taking out of definitions go in step,
unless a footnote begins. -/
theorem liftFrom_cons {place : Place} (hplace : place.Settled) (line : Line) :
    ((place.next line).Settled ∧ ∃ out : Lifted, ∀ rest,
      liftFrom place.opened place.admits (line :: rest) =
        out ++ liftFrom (place.next line).opened (place.next line).admits rest) ∨
    (place.next line = .note ∧ ∃ out : List Line → Lifted, ∀ rest,
      liftFrom place.opened place.admits (line :: rest) =
        out (continuation rest).1 ++ liftFrom none true (continuation rest).2) := by
  cases place with
  | note => exact hplace.elim
  | gap => exact hplace.elim
  | code fence =>
    have hnext : (Place.next (.code fence) line).Settled := by
      rw [Place.next]
      split
      · trivial
      · trivial
    refine .inl ⟨hnext, { kept := [line] }, fun rest => ?_⟩
    rw [Place.opened, liftFrom_inside, Place.next]
    split
    · rfl
    · rfl
  | text afterBlank =>
    cases hf : fence? line with
    | some fence =>
      have hnext : Place.next (.text afterBlank) line = .code fence := by
        rw [Place.next, Place.outside, hf]
      rw [hnext]
      exact .inl ⟨trivial, { kept := [line] }, fun rest => liftFrom_of_fence hf⟩
    | none =>
      cases hn : noteStart? line with
      | some found =>
        obtain ⟨identifier, text⟩ := found
        have hnext : Place.next (.text afterBlank) line = .note := by
          rw [Place.next, Place.outside, hf, hn]
        exact .inr ⟨hnext, fun body => { kept := [[]], notes := [⟨String.ofList identifier,
          String.ofList (['\n'].intercalate (text :: body))⟩] },
          fun rest => liftFrom_of_note hf hn⟩
      | none =>
        cases hl : if afterBlank then link? line else none with
        | some d =>
          have hnext : Place.next (.text afterBlank) line = .text afterBlank := by
            rw [Place.next, Place.outside, hf, hn, hl]
          rw [hnext]
          exact .inl ⟨trivial, { kept := [[]], links := [d] },
            fun rest => liftFrom_of_link hf hn hl⟩
        | none =>
          have hnext : Place.next (.text afterBlank) line = .text (line.all Text.isBlank) := by
            rw [Place.next, Place.outside, hf, hn, hl]
          rw [hnext]
          exact .inl ⟨trivial, { kept := [line] }, fun rest => liftFrom_of_plain hf hn hl⟩

/-- What lines give comes first, and a line behind them is met in the place to which they lead. -/
theorem liftFrom_append (hline : Starts line) (place : Place) (hplace : place.Settled)
    (before after : List Line) :
    liftFrom place.opened place.admits (before ++ line :: after) =
      liftFrom place.opened place.admits before ++
        liftFrom (before.foldl Place.next place).opened
          (before.foldl Place.next place).admits (line :: after) := by
  induction hlength : before.length using Nat.strong_induction_on generalizing before place with
  | _ n ih =>
    cases before with
    | nil =>
      rw [List.nil_append, liftFrom_nil, List.foldl_nil]
      rfl
    | cons first rest =>
      rw [List.length_cons] at hlength
      rw [List.cons_append, List.foldl_cons]
      obtain ⟨hnext, out, hout⟩ | ⟨hnext, out, hout⟩ := liftFrom_cons hplace first
      · rw [hout, hout, ih rest.length (by omega) _ hnext rest rfl, Lifted.append_assoc]
      · -- The lines of the footnote are read in one go; those behind it are fewer.
        have hrest := length_continuation_le rest
        obtain ⟨hopened, hadmits⟩ := foldl_next_note rest
        have htail := ih (continuation rest).2.length (by omega) (.text true) trivial _ rfl
        rw [hout, hout, continuation_append hline, hnext, hopened, hadmits]
        rw [Place.opened_text, Place.admits_text] at htail
        rw [htail, Lifted.append_assoc]

/-- The next thing that a document gives behind what the lines before give by themselves. -/
def Gives (cs : List Char) (before : List Line) (out : Lifted) : Prop :=
  ∃ later, liftDefinitions cs = liftFrom none true before ++ (out ++ later)

theorem gives_of_rest {cs : List Char} {out : Lifted} (hline : Starts line)
    (hlines : Text.lines cs = before ++ line :: after)
    (h : ∃ later, liftFrom (Place.behind before).opened (Place.behind before).admits
      (line :: after) = out ++ later) :
    Gives cs before out := by
  obtain ⟨later, hlater⟩ := h
  refine ⟨later, ?_⟩
  rw [liftDefinitions, hlines, ← hlater]
  exact liftFrom_append hline (.text true) trivial before after

/-- A line either stays or leaves an empty one. -/
theorem Gives.left_unique {cs : List Char} {out other : Lifted} {left right : Line}
    (h : Gives cs before out) (h' : Gives cs before other) (hleft : out.kept = [left])
    (hright : other.kept = [right]) : left = right := by
  obtain ⟨later, h⟩ := h
  obtain ⟨later', h'⟩ := h'
  have hkept : (liftFrom none true before).kept ++ (out.kept ++ later.kept) =
      (liftFrom none true before).kept ++ (other.kept ++ later'.kept) :=
    congrArg Lifted.kept (h.symm.trans h')
  rw [hleft, hright] at hkept
  exact (List.cons.inj (List.append_cancel_left hkept)).1

/-- A line that is taken out under some condition, and stays otherwise, is never both. -/
theorem gives_iff {cs : List Char} {out : Lifted} {P : Prop} (hline : Starts line)
    (hout : out.kept = [[]]) (htaken : P → Gives cs before out)
    (hkept : ¬P → Gives cs before { kept := [line] }) :
    (Gives cs before out ↔ P) ∧ (Gives cs before { kept := [line] } ↔ ¬P) := by
  have hboth (h : Gives cs before out) (h' : Gives cs before { kept := [line] }) : False :=
    hline.ne_nil (h'.left_unique h rfl hout)
  constructor
  · refine ⟨fun h => ?_, htaken⟩
    by_contra hnot
    exact hboth h (hkept hnot)
  · exact ⟨fun h hp => hboth (htaken hp) h, hkept⟩

/-- Inside a fence a line stays, whatever it says. -/
theorem gives_inside {cs : List Char} {fence : Line} (hline : Starts line)
    (hlines : Text.lines cs = before ++ line :: after)
    (h : (Place.behind before).opened = some fence) : Gives cs before { kept := [line] } := by
  refine gives_of_rest hline hlines ?_
  rw [h]
  exact ⟨_, liftFrom_inside fence⟩

end Typeset.Source
