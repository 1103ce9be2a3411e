import Mathlib.Data.List.Basic
import Typeset.Proofs.Token.NoteMark

/-! Which texts refer to something where no identifier is known: those with a footnote mark, and
those with two groups one behind the other. Groups in a row are taken two by two, from the left, and
two that are both blank are passed over. -/

namespace Typeset.Token

variable {image : Bool} {known : List String} {c : Char} {found : Option Reference}
  {cs before after rest inner word first second mark source : List Char}

/-- Two groups name nothing if both are blank. -/
def NamesNothing (first second : List Char) : Prop := trimmed first = "" ∧ trimmed second = ""

/-- Groups in a row that name something if they are taken two by two. -/
inductive NamedByPair : List Char → Prop
  | here {first second after : List Char} (hfirst : IsLabel first) (hsecond : IsLabel second)
    (hnames : ¬ NamesNothing first second) : NamedByPair (group first ++ (group second ++ after))
  | later {first second rest : List Char} (hfirst : IsLabel first) (hsecond : IsLabel second)
    (hblank : NamesNothing first second) (h : NamedByPair rest) :
    NamedByPair (group first ++ (group second ++ rest))

/-- A text in which something is referred to, though no identifier is known. -/
inductive Referring (cs : List Char) : Prop
  | note (before : List Char) {identifier after : List Char} (hname : IsName identifier)
    (hfree : ¬ Swallowed before after) (hcs : cs = before ++ (noteMark identifier ++ after))
  | pair (before : List Char) {rest : List Char} (hbefore : ¬ EndsInLabel before)
    (hpairs : NamedByPair rest) (hcs : cs = before ++ rest)

section Label

theorem IsMark.not_endsInLabel (h : IsMark mark) : ¬ EndsInLabel mark := by
  intro hlabel
  have hlast := hlabel.getLast?
  obtain rfl | rfl := h <;> cases hlast

/-- A group without brackets inside does not end in a shorter one. -/
theorem eq_nil_of_group_eq {more : List Char} (h : Bare inner)
    (heq : group inner = more ++ group word) : more = [] := by
  cases more with
  | nil => rfl
  | cons d more =>
    rw [group, group, List.cons_append, List.cons.injEq, ← List.cons_append, ← List.append_assoc,
      List.append_left_inj] at heq
    have hmem : '[' ∈ inner := by simp [heq.2]
    cases h '[' hmem

theorem group_injective (h : group inner = group word) : inner = word :=
  List.append_cancel_right (List.cons.inj h).2

theorem isLabel_of_endsInLabel (h : Bare word) (hend : EndsInLabel (cs ++ group word)) :
    IsLabel word := by
  obtain ⟨head, inner, heq, hinner⟩ := hend
  obtain ⟨more, -, hout⟩ | ⟨more, -, hout⟩ := List.append_eq_append_iff.mp heq
  · obtain rfl := eq_nil_of_group_eq h hout
    rwa [group_injective hout]
  · obtain rfl := eq_nil_of_group_eq hinner.bare hout
    rwa [← group_injective hout]

/-- A group that ends behind a closing bracket begins behind it. -/
theorem EndsInLabel.of_append (h : EndsInLabel (cs ++ rest)) (hcs : cs.getLast? = some ']')
    (hrest : rest ≠ []) : EndsInLabel rest := by
  obtain ⟨head, inner, heq, hinner⟩ := h
  obtain ⟨more, hin, hout⟩ | ⟨more, hin, hout⟩ := List.append_eq_append_iff.mp heq
  · exact ⟨more, inner, hout, hinner⟩
  · obtain rfl | ⟨more, d, rfl⟩ := List.eq_nil_or_concat' more
    · exact ⟨[], inner, hout.symm, hinner⟩
    · -- The closing bracket would stand inside the group.
      rw [hin, ← List.append_assoc, List.getLast?_concat] at hcs
      cases hcs
      obtain ⟨rest, e, rfl⟩ := (List.eq_nil_or_concat' rest).resolve_left hrest
      rw [group, ← List.cons_append, ← List.append_assoc] at hout
      obtain ⟨hbody, -⟩ := List.append_inj' hout rfl
      cases more with
      | nil => cases (List.cons.inj hbody).1
      | cons e more =>
        have hmem : ']' ∈ inner := by simp [(List.cons.inj hbody).2]
        cases hinner.bare ']' hmem

end Label

section Front

theorem paired?_eq_none_iff : paired? image first second = none ↔ NamesNothing first second := by
  rw [paired?, NamesNothing]
  by_cases hs : trimmed second = ""
  · by_cases hf : trimmed first = "" <;> simp [hs, hf]
  · simp [hs]

/-- What the front of a text refers to, where no identifier is known. -/
inductive Front (after : List Char) : List Char → Option Reference → Prop
  | pair {mark first second : List Char} {image : Bool} (hmark : IsMark mark)
    (hfirst : IsLabel first) (hsecond : IsLabel second) :
    Front after (mark ++ (group first ++ (group second ++ after))) (paired? image first second)
  | note {identifier : List Char} (hname : IsName identifier) :
    Front after (noteMark identifier ++ after) (some (.footnote (String.ofList identifier)))
  | lone {mark word : List Char} (hmark : IsMark mark) (hbare : Bare word)
    (hlone : Lone word after) : Front after (mark ++ (group word ++ after)) none

/-- A group on its own names a footnote, or nothing. -/
theorem single?_nil_cases (hbare : Bare word)
    (h : single? [] image word rest = some (found, after)) :
    after = rest ∧ (found = none ∨ image = false ∧ ∃ identifier, word = '^' :: identifier ∧
      IsName identifier ∧ found = some (.footnote (String.ofList identifier))) := by
  obtain ⟨hafter, ⟨identifier, himage, rfl, hne, hsolid, hfound⟩ | ⟨hknown, -⟩ | hfound⟩ :=
    single?_cases h
  · have hname : IsName identifier := ⟨hne, (List.forall_mem_cons.mp hbare).2, hsolid⟩
    exact ⟨hafter, .inr ⟨himage, identifier, rfl, hname, hfound⟩⟩
  · cases hknown
  · exact ⟨hafter, .inl hfound⟩

theorem front_of_named? (image : Bool) (hmark : IsMark mark) (himage : image = false → mark = [])
    (h : named? [] image cs = some (found, after)) : Front after (mark ++ cs) found := by
  obtain ⟨first, second, hf, hs, rfl, rfl⟩ | ⟨first, hf, hl, rfl, hown⟩ :=
    named?_cases h
  · exact .pair hmark hf hs
  · obtain ⟨-, rfl | ⟨hplain, identifier, rfl, hname, rfl⟩⟩ := single?_nil_cases hf hown
    · exact .lone hmark hf hl
    · rw [himage hplain]
      exact .note hname

theorem front_of_reference? (h : reference? [] cs = some (found, after)) :
    Front after cs found := by
  obtain ⟨body, rfl, hbody⟩ | h := named?_of_reference? h
  · exact front_of_named? true (.inr rfl) (fun hplain => by cases hplain) hbody
  · exact front_of_named? false (.inl rfl) (fun _ => rfl) h

/-- Two groups that may name a target are read together. -/
theorem exists_reference?_pair (known : List String) (hmark : IsMark mark)
    (hfirst : IsLabel first) (hsecond : IsLabel second) :
    ∃ image, ∀ rest, reference? known (mark ++ (group first ++ (group second ++ rest))) =
      some (paired? image first second, rest) := by
  obtain rfl | rfl := hmark
  · exact ⟨false, fun _ => named?_pair hfirst hsecond⟩
  · exact ⟨true, fun _ => named?_pair hfirst hsecond⟩

end Front

section Referring

theorem swallowed_of_append (h : Swallowed (source ++ before) after)
    (hsource : before = [] → source.getLast? ≠ some '!') : Swallowed before after := by
  refine ⟨?_, h.parenthesis, h.colon⟩
  have hbang := h.bang
  rw [List.getLast?_append] at hbang
  cases hlast : before.getLast? with
  | some d => rwa [hlast, Option.some_or] at hbang
  | none =>
    rw [hlast, Option.none_or] at hbang
    exact absurd hbang (hsource (List.getLast?_eq_none_iff.mp hlast))

theorem NamedByPair.exists_group (h : NamedByPair rest) :
    ∃ inner more, IsLabel inner ∧ rest = group inner ++ more := by
  cases h with
  | here hfirst hsecond hnames => exact ⟨_, _, hfirst, rfl⟩
  | later hfirst hsecond hblank h => exact ⟨_, _, hfirst, rfl⟩

/-- Two groups that name something are read as a reference, and what is passed over before them
changes nothing. -/
theorem NamedByPair.targets_ne_nil (h : NamedByPair rest) (known : List String)
    (hmark : IsMark mark) : targets (pieces known (mark ++ rest)) ≠ [] := by
  induction h generalizing mark with
  | @here first second after hfirst hsecond hnames =>
    obtain ⟨image, hread⟩ := exists_reference?_pair known hmark hfirst hsecond
    specialize hread after
    cases hpaired : paired? image first second with
    | none => exact absurd (paired?_eq_none_iff.mp hpaired) hnames
    | some r =>
      rw [hpaired] at hread
      rw [pieces_of_some hread]
      exact List.cons_ne_nil _ _
  | @later first second rest hfirst hsecond hblank h ih =>
    obtain ⟨image, hread⟩ := exists_reference?_pair known hmark hfirst hsecond
    specialize hread rest
    rw [paired?_eq_none_iff.mpr hblank, ← List.append_assoc, ← List.append_assoc] at hread
    rw [← List.append_assoc, ← List.append_assoc, pieces_of_passed hread]
    exact ih (.inl rfl)

/-- What a text refers to is found, whatever is known. -/
theorem Referring.targets_ne_nil (h : Referring cs) (known : List String) :
    targets (pieces known cs) ≠ [] := by
  cases h with
  | note before hname hfree hcs =>
    rw [hcs, pieces_noteMark hname hfree, targets_append]
    exact List.append_ne_nil_of_right_ne_nil _ (List.cons_ne_nil _ _)
  | pair before hbefore hpairs hcs =>
    obtain ⟨inner, more, -, hgroup⟩ := hpairs.exists_group
    obtain ⟨head, mark, rfl, hmark, hapart⟩ := apart_of_not_endsInLabel known hbefore
    specialize hapart inner more
    rw [← hgroup] at hapart
    rw [hcs, List.append_assoc, pieces_append hapart, targets_append]
    exact List.append_ne_nil_of_right_ne_nil _ (hpairs.targets_ne_nil known hmark)

theorem referring_of_front {r : Reference} (h : Front after cs (some r)) : Referring cs := by
  generalize hfound : some r = found at h
  cases h with
  | @pair mark first second image hmark hfirst hsecond =>
    refine .pair mark hmark.not_endsInLabel (.here hfirst hsecond fun hnames => ?_) rfl
    rw [paired?_eq_none_iff.mpr hnames] at hfound
    cases hfound
  | note hname => exact .note [] hname (fun hs => by cases hs.bang) rfl
  | lone => cases hfound

/-- What is referred to stays so behind a group, unless the group is taken together with it. -/
theorem Referring.append (h : Referring rest) (hlast : source.getLast? = some ']')
    (hpairs : NamedByPair rest → Referring (source ++ rest)) : Referring (source ++ rest) := by
  cases h with
  | note before hname hfree hcs =>
    refine .note (source ++ before) hname (fun hs => hfree ?_) (by rw [hcs, List.append_assoc])
    exact swallowed_of_append hs fun _ => by rw [hlast]; decide
  | pair before hbefore hgroups hcs =>
    by_cases hne : before = []
    · subst hne
      exact hpairs (hcs ▸ hgroups)
    · refine .pair (source ++ before) (fun he => hbefore (he.of_append hlast hne)) hgroups ?_
      rw [hcs, List.append_assoc]

/-- A text that is passed over hides nothing that is referred to behind it. -/
theorem Referring.of_passed (h : Referring rest) (hfront : Front rest cs none) :
    Referring cs := by
  generalize hfound : none = found at hfront
  cases hfront with
  | @pair mark first second image hmark hfirst hsecond =>
    have hblank := paired?_eq_none_iff.mp hfound.symm
    rw [← List.append_assoc, ← List.append_assoc]
    refine h.append (getLast?_append_group _ second) fun hpairs => ?_
    rw [List.append_assoc, List.append_assoc]
    exact .pair mark hmark.not_endsInLabel (.later hfirst hsecond hblank hpairs) rfl
  | note => cases hfound
  | @lone mark word hmark hbare hlone =>
    rw [← List.append_assoc]
    refine h.append (getLast?_append_group mark word) fun hpairs =>
      .pair (mark ++ group word) (fun he => ?_) hpairs rfl
    obtain ⟨inner, more, hinner, rfl⟩ := hpairs.exists_group
    have hnone := hlone (isLabel_of_endsInLabel hbare he)
    rw [unmarked?_group hinner] at hnone
    cases hnone

/-- Nor does a character that no reference begins with. -/
theorem Referring.cons (h : Referring rest) (hnone : reference? [] (c :: rest) = none) :
    Referring (c :: rest) := by
  cases h with
  | note before hname hfree hcs =>
    refine .note (c :: before) hname (fun hs => hfree ?_) (by rw [hcs]; rfl)
    rw [← List.singleton_append] at hs
    refine swallowed_of_append hs ?_
    rintro rfl hc
    obtain rfl : c = '!' := by simpa using hc
    obtain ⟨found, hread, -⟩ := exists_reference?_bang_noteMark [] hname hs.parenthesis hs.colon
    rw [hcs, List.nil_append, hread] at hnone
    cases hnone
  | pair before hbefore hgroups hcs =>
    refine .pair (c :: before) (fun he => ?_) hgroups (by rw [hcs]; rfl)
    obtain ⟨head, inner, heq, hinner⟩ := he
    cases head with
    | cons d head => exact hbefore ⟨head, inner, (List.cons.inj heq).2, hinner⟩
    | nil =>
      -- The group is read together with the first of those behind it.
      obtain ⟨other, more, hother, rfl⟩ := hgroups.exists_group
      obtain ⟨image, hread⟩ := exists_reference?_pair [] (.inl rfl) hinner hother
      specialize hread more
      rw [hcs, ← List.cons_append, heq, List.nil_append] at hnone
      rw [List.nil_append, hnone] at hread
      cases hread

/-- Where no identifier is known, a text has references exactly if something is referred to in
it. -/
theorem targets_ne_nil_iff : targets (pieces [] cs) ≠ [] ↔ Referring cs := by
  refine ⟨fun h => ?_, fun h => h.targets_ne_nil []⟩
  induction cs using pieces.induct [] with
  | case1 =>
    rw [pieces_nil] at h
    exact absurd rfl h
  | case2 c rest r after hr ih => exact referring_of_front (front_of_reference? hr)
  | case3 c rest after hr ih =>
    obtain ⟨source, -, hsource⟩ := exists_of_reference? hr
    have hpassed := hr
    rw [hsource] at h hpassed
    rw [pieces_of_passed hpassed] at h
    exact (ih h).of_passed (front_of_reference? hr)
  | case4 c rest hr ih =>
    rw [pieces_of_none hr] at h
    exact (ih h).cons hr

end Referring

end Typeset.Token
