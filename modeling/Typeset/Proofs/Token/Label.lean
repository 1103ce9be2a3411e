import Typeset.Proofs.Token.Pair
import Typeset.Proofs.Token.Shortcut

/-! A label and an identifier in brackets, one behind the other in a run of text: they name a target
together, unless the label is taken up by what stands before it. -/

namespace Typeset.Token

variable {known : List String} {form : ReferenceForm} {image : Bool}
  {s u mark inner word label identifier first second rest after : List Char} {r : Reference}

/-- A text at whose end no group waits for a second one: the groups there are taken two by two. -/
inductive Settled : List Char → Prop
  | plain {s : List Char} (h : ¬ EndsInLabel s) : Settled s
  | paired {u first second : List Char} (h : Settled u) (hfirst : IsLabel first)
    (hsecond : IsLabel second) : Settled (u ++ (group first ++ group second))

/-- A text at whose end a group waits for a second one. -/
def Pending (s : List Char) : Prop :=
  ∃ u inner, s = u ++ group inner ∧ IsLabel inner ∧ Settled u

theorem settled_or_pending (s : List Char) : Settled s ∨ Pending s := by
  by_cases h : EndsInLabel s
  · obtain ⟨head, inner, rfl, hinner⟩ := h
    have hlength : head.length < (head ++ group inner).length := by simp [group]
    rcases settled_or_pending head with hhead | ⟨u, first, rfl, hfirst, hu⟩
    · exact .inr ⟨head, inner, rfl, hinner, hhead⟩
    · rw [List.append_assoc]
      exact .inl (.paired hu hfirst hinner)
  · exact .inl (.plain h)
termination_by s.length

/-- Two groups are one piece, whatever follows them. -/
theorem exists_pieces_pair (known : List String) (hmark : IsMark mark) (hfirst : IsLabel first)
    (hsecond : IsLabel second) :
    ∃ image piece, targets [piece] = (paired? image first second).toList ∧ ∀ rest,
      pieces known (mark ++ (group first ++ (group second ++ rest))) =
        piece :: pieces known rest := by
  obtain ⟨image, hread⟩ := exists_reference?_pair known hmark hfirst hsecond
  cases hpaired : paired? image first second with
  | some r =>
    rw [hpaired] at hread
    exact ⟨image, .reference r, by rw [hpaired]; rfl, fun rest => pieces_of_some (hread rest)⟩
  | none =>
    rw [hpaired] at hread
    refine ⟨image, .plain (mark ++ (group first ++ group second)), by rw [hpaired]; rfl, ?_⟩
    intro rest
    have hpassed := hread rest
    have hassoc : mark ++ (group first ++ (group second ++ rest)) =
        mark ++ (group first ++ group second) ++ rest := by simp only [List.append_assoc]
    rw [hassoc] at hpassed ⊢
    exact pieces_of_passed hpassed

/-- Where no group waits, a group that follows is read apart, with the mark before it. -/
theorem Settled.exists_pieces (h : Settled s) (known : List String) :
    ∃ head mark, s = head ++ mark ∧ IsMark mark ∧ ∀ inner rest,
      pieces known (s ++ (group inner ++ rest)) =
        pieces known head ++ pieces known (mark ++ (group inner ++ rest)) := by
  induction h with
  | plain h =>
    obtain ⟨head, mark, rfl, hmark, hapart⟩ := apart_of_not_endsInLabel known h
    refine ⟨head, mark, rfl, hmark, fun inner rest => ?_⟩
    rw [List.append_assoc, pieces_append (hapart inner rest)]
  | @paired u first second _ hfirst hsecond ih =>
    obtain ⟨head, mark, rfl, hmark, hread⟩ := ih
    obtain ⟨image, piece, -, hpair⟩ := exists_pieces_pair known hmark hfirst hsecond
    have hwhole (rest : List Char) :
        pieces known (head ++ mark ++ (group first ++ group second) ++ rest) =
          pieces known head ++ piece :: pieces known rest := by
      rw [← hpair, ← hread, List.append_assoc _ _ rest, List.append_assoc (group first)]
    have hself := hwhole []
    rw [List.append_nil, pieces_nil] at hself
    refine ⟨head ++ mark ++ (group first ++ group second), [], (List.append_nil _).symm, .inl rfl,
      fun inner rest => ?_⟩
    rw [hwhole, hself, List.append_assoc, List.singleton_append, List.nil_append]

theorem targets_mark (known : List String) (head : List Char) (hmark : IsMark mark) :
    targets (pieces known (head ++ mark)) = targets (pieces known head) := by
  rcases hmark with rfl | rfl
  · rw [List.append_nil]
  · rw [pieces_append_bang, targets_append, targets, targets, List.append_nil]

section Full

theorem paired?_full (h : trimmed second ≠ "") :
    paired? image first second =
      some (.target image .full (String.ofList first) (trimmed second)) := by
  rw [paired?, if_pos (by simpa using h)]

theorem paired?_cases (image : Bool) (first second : List Char) :
    (trimmed first = "" ∧ trimmed second = "" ∧ paired? image first second = none) ∨
    (∃ identifier, trimmed second = "" ∧ paired? image first second =
      some (.target image .collapsed (String.ofList first) identifier)) ∨
    (trimmed second ≠ "" ∧ paired? image first second =
      some (.target image .full (String.ofList first) (trimmed second))) := by
  by_cases hs : trimmed second = ""
  · by_cases hf : trimmed first = ""
    · exact .inl ⟨hf, hs, by simp [paired?, hs, hf]⟩
    · exact .inr (.inl ⟨trimmed first, hs, by simp [paired?, hs, hf]⟩)
  · exact .inr (.inr ⟨hs, paired?_full hs⟩)

theorem isLabel_of_full {source after : List Char} {l i : String}
    (h : reference? known source = some (some (.target image .full l i), after)) :
    IsLabel l.toList := by
  have hnamed {mark : Bool} {cs : List Char}
      (h : named? known mark cs = some (some (.target image .full l i), after)) :
      IsLabel l.toList := by
    obtain ⟨first, second, hf, -, -, hpaired⟩ | ⟨first, -, -, -, hown⟩ := named?_cases h
    · rcases paired?_cases mark first second with ⟨-, -, hp⟩ | ⟨_, -, hp⟩ | ⟨-, hp⟩ <;>
        rw [hp] at hpaired <;> cases hpaired
      rwa [String.toList_ofList]
    · obtain ⟨-, ⟨_, -, -, -, -, hfound⟩ | ⟨-, hfound⟩ | hfound⟩ :=
        single?_cases hown <;> cases hfound
  obtain ⟨body, -, hbody⟩ | h := named?_of_reference? h
  · exact hnamed hbody
  · exact hnamed h

/-- A group on its own names a target by itself, or nothing. -/
theorem targets_lone (known : List String) (hmark : IsMark mark) (h : IsLabel word)
    (ha : unmarked? after = none) :
    (targets (pieces known (mark ++ (group word ++ after))) = targets (pieces known after) ∧
      (after = [] → word = [] ∨ Text.lower (trimmed word) ∉ known)) ∨
    ∃ image identifier, targets (pieces known (mark ++ (group word ++ after))) =
      .target image .shortcut (String.ofList word) identifier :: targets (pieces known after) := by
  have hpassed (hs : ∀ image, single? known image word after = none ∨
      single? known image word after = some (none, after)) :
      targets (pieces known (mark ++ (group word ++ after))) = targets (pieces known after) := by
    obtain ⟨ms, hms, -, hpieces⟩ := pieces_marked_word_of_passed hmark h ha hs
    rw [hpieces, targets_append, hms, List.nil_append]
  by_cases hk : Text.lower (trimmed word) ∈ known
  · cases hword : word with
    | nil =>
      subst hword
      exact .inl ⟨hpassed fun _ => .inl rfl, fun _ => .inl rfl⟩
    | cons c more =>
      rw [← hword]
      have hcaret : c ≠ '^' := fun hc => h.head (by rw [hword, hc]; rfl)
      by_cases hstop : (after.head? == some '(' || after.head? == some ':') = true
      · have hsingle (image : Bool) : single? known image word after = none := by
          rw [hword, single?, if_neg (by simp [hcaret]), if_pos hstop]
        refine .inl ⟨hpassed fun image => .inl (hsingle image), ?_⟩
        rintro rfl
        cases hstop
      · have hsingle (image : Bool) : single? known image word after =
            some (some (.target image .shortcut (String.ofList word) (trimmed word)), after) := by
          rw [hword] at hk ⊢
          rw [single?, if_neg (by simp [hcaret]), if_neg hstop,
            if_pos (List.contains_iff_mem.mpr hk)]
        right
        rcases hmark with rfl | rfl
        · have hread : reference? known (group word ++ after) = _ :=
            (named?_single h.bare fun _ => ha).trans (hsingle false)
          exact ⟨_, _, by rw [List.nil_append, pieces_of_some hread, targets]⟩
        · have hread : reference? known ('!' :: (group word ++ after)) = _ :=
            (named?_single h.bare fun _ => ha).trans (hsingle true)
          exact ⟨_, _, by rw [List.singleton_append, pieces_of_some hread, targets]⟩
  · exact .inl ⟨hpassed fun image => single?_unknown image after h hk, fun _ => .inr hk⟩

/-- A group at the front of a text is passed over, or the first reference is named after it. -/
theorem targets_front (known : List String) (h : IsLabel word) (hne : trimmed word ≠ "")
    (after : List Char) :
    targets (pieces known (group word ++ after)) = targets (pieces known after) ∨
    ∃ image form identifier more, targets (pieces known (group word ++ after)) =
      .target image form (String.ofList word) identifier :: more := by
  cases hu : unmarked? after with
  | none =>
    rcases targets_lone known (.inl rfl) h hu with ⟨hsame, -⟩ | ⟨image, identifier, hfront⟩
    · exact .inl hsame
    · exact .inr ⟨image, .shortcut, identifier, _, hfront⟩
  | some g =>
    obtain ⟨second, rest⟩ := g
    obtain ⟨hsecond, rfl⟩ := unmarked?_eq_some_iff.mp hu
    obtain ⟨image, piece, hpiece, hpieces⟩ := exists_pieces_pair known (.inl rfl) h hsecond
    have hall := hpieces rest
    rw [List.nil_append] at hall
    have htargets : targets (pieces known (group word ++ (group second ++ rest))) =
        (paired? image word second).toList ++ targets (pieces known rest) := by
      rw [hall, ← hpiece, ← targets_append, List.singleton_append]
    right
    rcases paired?_cases image word second with ⟨hblank, -, -⟩ | ⟨i, -, hp⟩ | ⟨-, hp⟩
    · exact absurd hblank hne
    · rw [hp] at htargets
      exact ⟨_, _, _, _, htargets⟩
    · rw [hp] at htargets
      exact ⟨_, _, _, _, htargets⟩

/-- A group that waits takes up the label, and the identifier is left to what follows. -/
theorem targets_of_pending (h : Pending s) (hlabel : IsLabel label) (hid : IsLabel identifier)
    (hne : trimmed identifier ≠ "") (hknown : Text.lower (trimmed identifier) ∈ known) :
    targets (pieces known (s ++ (group label ++ (group identifier ++ after)))) ≠
      targets (pieces known s) ++
        .target false .full (String.ofList label) (trimmed identifier) ::
          targets (pieces known after) := by
  intro heq
  obtain ⟨u, inner, rfl, hinner, hu⟩ := h
  obtain ⟨head, mark, rfl, hmark, hread⟩ := hu.exists_pieces known
  obtain ⟨image, piece, hpiece, hpair⟩ := exists_pieces_pair known hmark hinner hlabel
  have hs := hread inner []
  rw [List.append_nil] at hs
  rw [List.append_assoc, hread, hpair, hs, targets_append, targets_append, List.append_assoc,
    List.append_cancel_left_eq, ← List.singleton_append, targets_append, hpiece] at heq
  have hend : unmarked? [] = none := rfl
  rcases targets_lone known hmark hinner hend with ⟨hnone, hfree⟩ | ⟨image', i, hone⟩
  · -- The first reference would be the one that the label makes with its identifier.
    rw [List.append_nil, pieces_nil, targets] at hnone
    rw [hnone, List.nil_append] at heq
    rcases paired?_cases image inner label with ⟨-, hblank, hp⟩ | ⟨j, -, hp⟩ | ⟨hname, hp⟩
    · rw [hp, Option.toList_none, List.nil_append] at heq
      rcases targets_front known hid hne after with hpassed | ⟨image', form, i, more, hfront⟩
      · have hlength := congrArg List.length (hpassed.symm.trans heq)
        simp at hlength
      · obtain ⟨hfirst, -⟩ := List.cons.inj (hfront.symm.trans heq)
        obtain ⟨-, -, hsame, -⟩ := Reference.target.inj hfirst
        obtain rfl := String.ofList_injective hsame
        exact hne hblank
    · rw [hp] at heq
      obtain ⟨hfirst, -⟩ := List.cons.inj heq
      cases (Reference.target.inj hfirst).2.1
    · rw [hp] at heq
      obtain ⟨hfirst, -⟩ := List.cons.inj heq
      obtain ⟨-, -, hsame, hnames⟩ := Reference.target.inj hfirst
      obtain rfl := String.ofList_injective hsame
      rcases hfree rfl with rfl | hunknown
      · exact hname rfl
      · rw [hnames] at hunknown
        exact hunknown hknown
  · -- The first reference would be the one that the group waits with.
    rw [List.append_nil, pieces_nil, targets] at hone
    rw [hone, List.singleton_append] at heq
    rcases paired?_cases image inner label with ⟨hblank, -, hp⟩ | ⟨j, -, hp⟩ | ⟨hname, hp⟩
    · rw [hp, Option.toList_none, List.nil_append] at heq
      rcases targets_front known hid hne after with hpassed | ⟨image', form, i, more, hfront⟩
      · have hlength := congrArg List.length (hpassed.symm.trans heq)
        simp at hlength
        omega
      · obtain ⟨hfirst, -⟩ := List.cons.inj (hfront.symm.trans heq)
        obtain ⟨-, -, hsame, -⟩ := Reference.target.inj hfirst
        obtain rfl := String.ofList_injective hsame
        exact hne hblank
    · rw [hp] at heq
      obtain ⟨hfirst, -⟩ := List.cons.inj heq
      cases (Reference.target.inj hfirst).2.1
    · rw [hp] at heq
      obtain ⟨hfirst, -⟩ := List.cons.inj heq
      cases (Reference.target.inj hfirst).2.1

/-- Behind an exclamation mark the two groups name an image. -/
theorem targets_of_bang (hlabel : IsLabel label) (hid : IsLabel identifier)
    (hne : trimmed identifier ≠ "") (hlast : s.getLast? = some '!') :
    targets (pieces known (s ++ (group label ++ (group identifier ++ after)))) ≠
      targets (pieces known s) ++
        .target false .full (String.ofList label) (trimmed identifier) ::
          targets (pieces known after) := by
  intro heq
  obtain ⟨u, rfl⟩ := List.getLast?_eq_some_iff.mp hlast
  have hread : reference? known ('!' :: (group label ++ (group identifier ++ after))) =
      some (paired? true label identifier, after) := named?_pair hlabel hid
  rw [paired?_full hne] at hread
  rw [List.append_assoc, List.singleton_append, pieces_append apart_bang, targets_append,
    pieces_of_some hread, targets, targets_mark known u (.inr rfl),
    List.append_cancel_left_eq] at heq
  obtain ⟨hfirst, -⟩ := List.cons.inj heq
  cases (Reference.target.inj hfirst).1

theorem pieces_pair (hlabel : IsLabel label) (hid : IsLabel identifier)
    (hne : trimmed identifier ≠ "") (hlast : s.getLast? ≠ some '!') (hs : Settled s) :
    pieces known (s ++ (group label ++ (group identifier ++ after))) =
      pieces known s ++
        .reference (.target false .full (String.ofList label) (trimmed identifier)) ::
          pieces known after := by
  obtain ⟨head, mark, rfl, rfl | rfl, hread⟩ := hs.exists_pieces known
  · have hpair : reference? known (group label ++ (group identifier ++ after)) =
        some (paired? false label identifier, after) := named?_pair hlabel hid
    rw [paired?_full hne] at hpair
    rw [hread, List.nil_append, pieces_of_some hpair, List.append_nil]
  · simp at hlast

/-- The two groups name their target together exactly if the first may name one, no exclamation mark
stands before it, and no group before it waits for a second one. -/
theorem targets_pair_iff (hid : IsLabel identifier) (hne : trimmed identifier ≠ "")
    (hknown : Text.lower (trimmed identifier) ∈ known) :
    targets (pieces known (s ++ (group label ++ (group identifier ++ after)))) =
      targets (pieces known s) ++
        .target false .full (String.ofList label) (trimmed identifier) ::
          targets (pieces known after) ↔
    IsLabel label ∧ s.getLast? ≠ some '!' ∧ Settled s := by
  constructor
  · intro heq
    have hmem : Reference.target false .full (String.ofList label) (trimmed identifier) ∈
        targets (pieces known (s ++ (group label ++ (group identifier ++ after)))) := by
      rw [heq]
      exact List.mem_append_right _ List.mem_cons_self
    obtain ⟨source, rest, hread⟩ := exists_of_mem_targets hmem
    have hlabel := isLabel_of_full hread
    rw [String.toList_ofList] at hlabel
    refine ⟨hlabel, fun hlast => targets_of_bang hlabel hid hne hlast heq, ?_⟩
    exact (settled_or_pending s).resolve_right fun hs =>
      targets_of_pending hs hlabel hid hne hknown heq
  · rintro ⟨hlabel, hlast, hs⟩
    rw [pieces_pair hlabel hid hne hlast hs, targets_append, targets]

end Full

section Tokens

theorem ReferenceForm.name_injective : Function.Injective ReferenceForm.name := by
  intro form form' h
  cases form <;> cases form' <;> first | rfl | simp [ReferenceForm.name] at h

theorem token_injective : Function.Injective Reference.token := by
  intro r r' h
  rcases r with name | ⟨_ | _, form, label, identifier⟩ <;>
    rcases r' with name' | ⟨_ | _, form', label', identifier'⟩ <;>
    simp only [Reference.token, marked, markedBranch, Value.object.injEq, List.cons.injEq,
      Prod.mk.injEq, Value.str.injEq, reduceCtorEq, String.reduceEq, and_true, true_and, false_and,
      and_false] at h
  · rw [h.1]
  · obtain ⟨⟨rfl, rfl, hform⟩, -⟩ := h
    rw [ReferenceForm.name_injective hform]
  · obtain ⟨rfl, rfl, -, hform⟩ := h
    rw [ReferenceForm.name_injective hform]

theorem isTextRun_token (r : Reference) : isTextRun r.token = false := by
  rcases r with _ | ⟨_ | _, _, _, _⟩ <;> rfl

theorem filter_references (ps : List Piece) (held : List Char) :
    (assemble held ps).filter (fun t => !isTextRun t) = (targets ps).map Reference.token := by
  rw [filter_assemble fun _ => rfl, List.filter_eq_self]
  intro t ht
  obtain ⟨r, -, rfl⟩ := List.mem_map.mp ht
  rw [isTextRun_token]
  rfl

/-- In a run of text the two groups are a link with the label as its text. -/
theorem splitReferences_pair_iff (hid : IsLabel identifier) (hne : trimmed identifier ≠ "")
    (hknown : Text.lower (trimmed identifier) ∈ known) :
    splitReferences known
        (String.ofList (s ++ (group label ++ (group identifier ++ after)))) =
      splitFrom known [] s ++
        (Reference.target false .full (String.ofList label) (trimmed identifier)).token ::
          splitFrom known [] after ↔
    IsLabel label ∧ s.getLast? ≠ some '!' ∧ Settled s := by
  constructor
  · intro heq
    have htargets : targets (pieces known (s ++ (group label ++ (group identifier ++ after)))) =
        targets (pieces known s) ++
          .target false .full (String.ofList label) (trimmed identifier) ::
            targets (pieces known after) := by
      apply List.map_injective_iff.mpr token_injective
      have hfilter := congrArg (List.filter fun t => !isTextRun t) heq
      rwa [filter_splitReferences fun _ => rfl, String.toList_ofList,
        ← filter_assemble (fun _ => rfl) [], filter_references, List.filter_append,
        List.filter_cons_of_pos (by rw [isTextRun_token]; rfl), splitFrom_nil_eq, splitFrom_nil_eq,
        filter_references, filter_references, ← List.map_cons, ← List.map_append] at hfilter
    exact (targets_pair_iff hid hne hknown).mp htargets
  · rintro ⟨hlabel, hlast, hs⟩
    have hsplit : splitFrom known [] (s ++ (group label ++ (group identifier ++ after))) =
        splitFrom known [] s ++
          (Reference.target false .full (String.ofList label) (trimmed identifier)).token ::
            splitFrom known [] after := by
      rw [splitFrom_nil_eq, splitFrom_nil_eq, splitFrom_nil_eq,
        pieces_pair hlabel hid hne hlast hs, assemble_append_reference]
    rw [← hsplit, splitReferences_of_mem, String.toList_ofList]
    rw [String.toList_ofList, hsplit]
    exact List.mem_append_right _ List.mem_cons_self

end Tokens

end Typeset.Token
