import Mathlib.Data.List.Chain
import Typeset.Proofs.Text.Trim
import Typeset.Proofs.Token.Label

/-! The tokens of a run of text as they were written: one behind the other they are the run, up to
white space around the second of two groups, and no text stands next to text. -/

namespace Typeset.Token

open Text (trim isBlank length_trim_le trim_eq_of_length_le)

variable {known : List String} {image : Bool} {cs held before after rest first second : List Char}
  {u s label : List Char} {r : Reference} {ps : List Piece} {tokens : List Value} {t : Value}

/-- The exclamation mark before an image. -/
def imageMark (image : Bool) : List Char := if image then ['!'] else []

/-- What stands behind the label of a reference: the identifier, empty brackets or nothing. -/
def ReferenceForm.behind (form : ReferenceForm) (identifier : List Char) : List Char :=
  match form with
  | .full => group identifier
  | .collapsed => group []
  | .shortcut => []

/-- A reference as it is written. -/
def Reference.source : Reference → List Char
  | .footnote identifier => noteMark identifier.toList
  | .target image form label identifier =>
    imageMark image ++ (group label.toList ++ form.behind identifier.toList)

/-- The form that a token of a reference declares. -/
def declaredForm (token : Value) : Except Failure ReferenceForm := do
  let form ← token.attr "reference_type" .null
  if form.isText "full" then return .full
  else if form.isText "collapsed" then return .collapsed
  else if form.isText "shortcut" then return .shortcut
  else throw .mismatch

/-- A token of a run of text as it is written, by what the token itself says. -/
def sourceForm (token : Value) : Except Failure (List Char) := do
  let kind ← Token.kind token
  if kind.isText "text" then return (← runText token).toList
  let identifier ← (← token.attr "identifier" .null).needText
  if kind.isText "footnote_ref" then return noteMark identifier.toList
  let label ← (← token.attr "label" .null).needText
  let form ← declaredForm token
  return imageMark (kind.isText "image_reference") ++
    (group label.toList ++ form.behind identifier.toList)

/-- Tokens as they are written, one behind the other. -/
def sourceForms (tokens : List Value) : Except Failure (List Char) :=
  (tokens.mapM sourceForm).map List.flatten

/-- Tokens among which no text stands next to text. -/
def Spaced (tokens : List Value) : Prop :=
  tokens.IsChain fun t u => isTextRun t = true → isTextRun u = false

/-- Groups that are taken together with the group before them, in the order of the text, begin and
end without white space, unless both groups are blank and name nothing. -/
def SecondsTrimmed (cs : List Char) : Prop :=
  ∀ before first second after, cs = before ++ (group first ++ (group second ++ after)) →
    IsLabel first → IsLabel second → Settled before → ¬ NamesNothing first second →
      trim isBlank second = second

/-- A piece of a text as it is written. -/
def Piece.source : Piece → List Char
  | .plain source => source
  | .reference target => target.source

section Forms

theorem sourceForm_text (s : String) : sourceForm (text s) = .ok s.toList := rfl

theorem sourceForm_token (r : Reference) : sourceForm r.token = .ok r.source := by
  rcases r with _ | ⟨_ | _, _ | _ | _, _, _⟩ <;> rfl

theorem sourceForms_nil : sourceForms [] = .ok [] := rfl

theorem sourceForms_cons {cs ds : List Char} (ht : sourceForm t = .ok cs)
    (htokens : sourceForms tokens = .ok ds) : sourceForms (t :: tokens) = .ok (cs ++ ds) := by
  obtain ⟨forms, hforms, hds⟩ :
      ∃ forms, tokens.mapM sourceForm = .ok forms ∧ forms.flatten = ds := by
    rw [sourceForms] at htokens
    cases hforms : tokens.mapM sourceForm with
    | error f =>
      rw [hforms] at htokens
      cases htokens
    | ok forms =>
      rw [hforms] at htokens
      exact ⟨forms, rfl, Except.ok.inj htokens⟩
  rw [sourceForms, List.mapM_cons, ht, hforms, ← hds]
  rfl

theorem sourceForms_textRun_append {ds : List Char} (htokens : sourceForms tokens = .ok ds)
    (held : List Char) : sourceForms (textRun held ++ tokens) = .ok (held ++ ds) := by
  rw [textRun]
  split
  next hheld =>
    rw [List.isEmpty_iff.mp hheld]
    exact htokens
  next =>
    have htext := sourceForm_text (String.ofList held)
    rw [String.toList_ofList] at htext
    exact sourceForms_cons htext htokens

/-- The tokens of pieces are written as the pieces are. -/
theorem sourceForms_assemble (held : List Char) (ps : List Piece) :
    sourceForms (assemble held ps) = .ok (held ++ ps.flatMap Piece.source) := by
  induction ps generalizing held with
  | nil =>
    have hheld := sourceForms_textRun_append sourceForms_nil held
    rwa [List.append_nil] at hheld
  | cons p ps ih =>
    cases p with
    | plain source =>
      rw [assemble, ih, List.flatMap_cons, Piece.source, List.append_assoc]
    | reference target =>
      have htail := sourceForms_cons (sourceForm_token target) (ih [])
      exact sourceForms_textRun_append htail held

theorem spaced_textRun_append (held : List Char) (r : Reference) (h : Spaced tokens) :
    Spaced (textRun held ++ r.token :: tokens) := by
  have hreference : Spaced (r.token :: tokens) := by
    refine List.isChain_cons.mpr ⟨fun u _ htext => ?_, h⟩
    rw [isTextRun_token] at htext
    cases htext
  rw [textRun]
  split
  · exact hreference
  · exact List.isChain_cons_cons.mpr ⟨fun _ => isTextRun_token r, hreference⟩

theorem spaced_assemble (held : List Char) (ps : List Piece) : Spaced (assemble held ps) := by
  induction ps generalizing held with
  | nil =>
    rw [assemble, textRun]
    split
    · exact .nil
    · exact .singleton _
  | cons p ps ih =>
    cases p with
    | plain source => exact ih (held ++ source)
    | reference target => exact spaced_textRun_append held target (ih [])

/-- A run of text comes to what its pieces come to, or it is empty. -/
theorem splitReferences_cases (known : List String) (s : String) :
    splitReferences known s = assemble [] (pieces known s.toList) ∨
      s.toList = [] ∧ splitReferences known s = [text s] := by
  rw [splitReferences, splitFrom_nil_eq]
  split
  next hnil =>
    refine .inr ⟨?_, rfl⟩
    have htargets : targets (pieces known s.toList) = [] := by
      have hall := filter_references (pieces known s.toList) []
      rw [hnil, List.filter_nil] at hall
      exact List.map_eq_nil_iff.mp hall.symm
    have hall := assemble_append_of_plain htargets [] []
    rw [List.append_nil, List.nil_append, spelled_pieces htargets, hnil, assemble, textRun] at hall
    split at hall
    next hempty => exact List.isEmpty_iff.mp hempty
    next => cases hall
  next => exact .inl rfl

theorem spaced_splitReferences (known : List String) (s : String) :
    Spaced (splitReferences known s) := by
  rcases splitReferences_cases known s with h | ⟨-, h⟩
  · rw [h]
    exact spaced_assemble [] _
  · rw [h]
    exact .singleton _

theorem sourceForms_splitReferences (known : List String) (s : String) :
    sourceForms (splitReferences known s) =
      .ok ((pieces known s.toList).flatMap Piece.source) := by
  rcases splitReferences_cases known s with h | ⟨hs, h⟩
  · rw [h, sourceForms_assemble, List.nil_append]
  · have htext := sourceForms_cons (sourceForm_text s) sourceForms_nil
    rw [h, htext, hs, pieces_nil]
    rfl

end Forms

section Source

/-- White space around the second of two groups is not kept. -/
theorem paired?_source (h : paired? image first second = some r) :
    r.source = imageMark image ++ (group first ++ group (trim isBlank second)) := by
  rcases paired?_cases image first second with ⟨-, -, hp⟩ | ⟨identifier, hblank, hp⟩ | ⟨-, hp⟩
  · rw [hp] at h
    cases h
  · have hempty : trim isBlank second = [] := by
      rw [← String.toList_ofList (l := trim isBlank second)]
      exact congrArg String.toList hblank
    rw [hp] at h
    cases h
    rw [Reference.source, ReferenceForm.behind, String.toList_ofList, hempty]
  · rw [hp] at h
    cases h
    rw [Reference.source, ReferenceForm.behind, String.toList_ofList, trimmed, String.toList_ofList]

/-- A group on its own is written as it stands. -/
theorem single?_source (h : single? known image first rest = some (some r, after)) :
    r.source = imageMark image ++ group first := by
  obtain ⟨-, ⟨identifier, rfl, rfl, -, -, hfound⟩ | ⟨-, hfound⟩ | hfound⟩ := single?_cases h
  · cases hfound
    rw [Reference.source, String.toList_ofList]
    rfl
  · cases hfound
    rw [Reference.source, ReferenceForm.behind, String.toList_ofList, List.append_nil]
  · cases hfound

/-- What is read as a reference is its source, or two groups with white space around the second. -/
inductive ReadAs (r : Reference) (after : List Char) : List Char → Prop
  | whole : ReadAs r after (r.source ++ after)
  | pair (image : Bool) {first second : List Char} (hfirst : IsLabel first)
    (hsecond : IsLabel second)
    (hsource : r.source = imageMark image ++ (group first ++ group (trim isBlank second))) :
    ReadAs r after (imageMark image ++ (group first ++ (group second ++ after)))

theorem readAs_of_named? (h : named? known image cs = some (some r, after)) :
    ReadAs r after (imageMark image ++ cs) := by
  obtain ⟨first, second, hf, hs, rfl, hpaired⟩ | ⟨first, -, -, rfl, hown⟩ :=
    named?_cases h
  · exact .pair image hf hs (paired?_source hpaired.symm)
  · rw [← List.append_assoc, ← single?_source hown]
    exact .whole

theorem readAs_of_reference? (h : reference? known cs = some (some r, after)) :
    ReadAs r after cs := by
  obtain ⟨body, rfl, hbody⟩ | h := named?_of_reference? h
  · exact readAs_of_named? hbody
  · exact readAs_of_named? h

theorem length_group (inner : List Char) : (group inner).length = inner.length + 2 := by
  simp [group]

theorem ReadAs.length_le (h : ReadAs r after cs) : r.source.length + after.length ≤ cs.length := by
  cases h with
  | whole => simp
  | @pair image first second hfirst hsecond hsource =>
    have htrim := length_trim_le second
    rw [hsource]
    simp only [List.length_append, length_group]
    omega

/-- The pieces of a text are no longer than it is. -/
theorem length_source_le (known : List String) (cs : List Char) :
    ((pieces known cs).flatMap Piece.source).length ≤ cs.length := by
  induction cs using pieces.induct known with
  | case1 => rw [pieces_nil, List.flatMap_nil]
  | case2 c rest r after hr ih =>
    have hread := (readAs_of_reference? hr).length_le
    rw [pieces_of_some hr, List.flatMap_cons, List.length_append, Piece.source]
    omega
  | case3 c rest after hr ih =>
    obtain ⟨source, -, hsource⟩ := exists_of_reference? hr
    rw [hsource] at hr ⊢
    rw [pieces_of_passed hr, List.flatMap_cons, List.length_append, List.length_append,
      Piece.source]
    omega
  | case4 c rest hr ih =>
    rw [pieces_of_none hr, List.flatMap_cons, List.length_append, Piece.source,
      List.length_singleton, List.length_cons]
    omega

end Source

section Pairs

/-- Two groups that may name a target stand one behind the other in a text. -/
def HasPair (cs : List Char) : Prop :=
  ∃ before first second after, cs = before ++ (group first ++ (group second ++ after)) ∧
    IsLabel first ∧ IsLabel second

theorem HasPair.append (h : HasPair cs) (u v : List Char) : HasPair (u ++ (cs ++ v)) := by
  obtain ⟨before, first, second, after, rfl, hf, hs⟩ := h
  exact ⟨u ++ before, first, second, after ++ v, by simp only [List.append_assoc], hf, hs⟩

/-- A text without such groups is its pieces. -/
theorem source_of_not_hasPair (known : List String) (h : ¬ HasPair cs) :
    (pieces known cs).flatMap Piece.source = cs := by
  have hbehind {source after : List Char} (hcs : ¬ HasPair (source ++ after)) :
      ¬ HasPair after := by
    intro hafter
    have hwhole := hafter.append source []
    rw [List.append_nil] at hwhole
    exact hcs hwhole
  induction cs using pieces.induct known with
  | case1 => rw [pieces_nil, List.flatMap_nil]
  | case2 c rest r after hr ih =>
    have hread := readAs_of_reference? hr
    rw [pieces_of_some hr, List.flatMap_cons, Piece.source]
    generalize hcs : c :: rest = cs at hread h
    cases hread with
    | whole => rw [ih (hbehind h)]
    | pair image hf hs hsource => exact absurd ⟨_, _, _, _, rfl, hf, hs⟩ h
  | case3 c rest after hr ih =>
    obtain ⟨source, -, hsource⟩ := exists_of_reference? hr
    rw [hsource] at hr h ⊢
    rw [pieces_of_passed hr, List.flatMap_cons, Piece.source, ih (hbehind h)]
  | case4 c rest hr ih =>
    rw [← List.singleton_append] at h
    rw [pieces_of_none hr, List.flatMap_cons, Piece.source, ih (hbehind h), List.singleton_append]

/-- The first two of such groups in a text have none before them, and no group that would be taken
together with the first one. -/
theorem exists_first_pair (h : HasPair cs) :
    ∃ before first second after, cs = before ++ (group first ++ (group second ++ after)) ∧
      IsLabel first ∧ IsLabel second ∧ ¬ HasPair before ∧ ¬ EndsInLabel before := by
  induction cs with
  | nil =>
    obtain ⟨before, first, second, after, heq, -⟩ := h
    simp [group] at heq
  | cons c cs ih =>
    by_cases hfront : ∃ first second after, c :: cs = group first ++ (group second ++ after) ∧
        IsLabel first ∧ IsLabel second
    · obtain ⟨first, second, after, heq, hf, hs⟩ := hfront
      refine ⟨[], first, second, after, heq, hf, hs, ?_, ?_⟩
      · rintro ⟨_, _, _, _, hnil, -⟩
        simp [group] at hnil
      · exact IsMark.not_endsInLabel (.inl rfl)
    · have htail : HasPair cs := by
        obtain ⟨before, first, second, after, heq, hf, hs⟩ := h
        cases before with
        | nil => exact absurd ⟨first, second, after, heq, hf, hs⟩ hfront
        | cons d before => exact ⟨before, first, second, after, (List.cons.inj heq).2, hf, hs⟩
      obtain ⟨before, first, second, after, rfl, hf, hs, hnone, hlabel⟩ := ih htail
      refine ⟨c :: before, first, second, after, rfl, hf, hs, ?_, ?_⟩
      · rintro ⟨lead, first', second', after', heq, hf', hs'⟩
        cases lead with
        | nil =>
          refine hfront ⟨first', second', after' ++ (group first ++ (group second ++ after)), ?_,
            hf', hs'⟩
          rw [← List.cons_append, heq]
          simp only [List.append_assoc, List.nil_append]
        | cons d lead => exact hnone ⟨lead, _, _, _, (List.cons.inj heq).2, hf', hs'⟩
      · rintro ⟨head, inner, heq, hinner⟩
        cases head with
        | nil =>
          refine hfront ⟨inner, first, group second ++ after, ?_, hinner, hf⟩
          rw [← List.cons_append, heq, List.nil_append]
        | cons d head => exact hlabel ⟨head, inner, (List.cons.inj heq).2, hinner⟩

theorem IsMark.exists_image {mark : List Char} (h : IsMark mark) :
    ∃ image, mark = imageMark image := by
  rcases h with rfl | rfl
  · exact ⟨false, rfl⟩
  · exact ⟨true, rfl⟩

theorem reference?_pair (known : List String) (image : Bool) (hfirst : IsLabel first)
    (hsecond : IsLabel second) (after : List Char) :
    reference? known (imageMark image ++ (group first ++ (group second ++ after))) =
      some (paired? image first second, after) := by
  cases image
  · exact named?_pair hfirst hsecond
  · exact named?_pair hfirst hsecond

/-- Two groups are one piece, which is written as they are if the second one is trimmed. -/
theorem exists_piece_pair (known : List String) (image : Bool) (hfirst : IsLabel first)
    (hsecond : IsLabel second) :
    ∃ piece, (∀ after, pieces known (imageMark image ++ (group first ++ (group second ++ after))) =
        piece :: pieces known after) ∧
      (NamesNothing first second →
        piece.source = imageMark image ++ (group first ++ group second)) ∧
      (¬ NamesNothing first second →
        piece.source = imageMark image ++ (group first ++ group (trim isBlank second))) := by
  have hread := reference?_pair known image hfirst hsecond
  cases hpaired : paired? image first second with
  | some r =>
    rw [hpaired] at hread
    refine ⟨.reference r, fun after => pieces_of_some (hread after), fun hblank => ?_, fun _ => ?_⟩
    · rw [paired?_eq_none_iff.mpr hblank] at hpaired
      cases hpaired
    · exact paired?_source hpaired
  | none =>
    rw [hpaired] at hread
    refine ⟨.plain (imageMark image ++ (group first ++ group second)), fun after => ?_,
      fun _ => rfl, fun hnames => absurd (paired?_eq_none_iff.mp hpaired) hnames⟩
    have hpassed := hread after
    have hassoc : imageMark image ++ (group first ++ (group second ++ after)) =
        imageMark image ++ (group first ++ group second) ++ after := by
      simp only [List.append_assoc]
    rw [hassoc] at hpassed ⊢
    exact pieces_of_passed hpassed

theorem Settled.append (hu : Settled u) (hfirst : IsLabel first) (hsecond : IsLabel second)
    (hs : Settled s) : Settled (u ++ (group first ++ group second) ++ s) := by
  have hlast : (u ++ (group first ++ group second)).getLast? = some ']' := by
    rw [← List.append_assoc]
    exact getLast?_append_group _ second
  induction hs with
  | @plain s h =>
    by_cases hne : s = []
    · rw [hne, List.append_nil]
      exact .paired hu hfirst hsecond
    · exact .plain fun hlabel => h (hlabel.of_append hlast hne)
  | paired _ hf hs ih =>
    rw [← List.append_assoc]
    exact .paired ih hf hs

end Pairs

section Lossless

/-- What is taken together behind two groups is taken together in the text itself. -/
theorem SecondsTrimmed.behind (h : SecondsTrimmed (u ++ (group first ++ (group second ++ after))))
    (hu : Settled u) (hfirst : IsLabel first) (hsecond : IsLabel second) :
    SecondsTrimmed after := by
  rintro before first' second' after' rfl hf hs hsettled
  have hwhole := h (u ++ (group first ++ group second) ++ before) first' second' after'
    (by simp only [List.append_assoc]) hf hs
  exact hwhole (hu.append hfirst hsecond hsettled)

theorem source_of_secondsTrimmed (known : List String) (cs : List Char) (h : SecondsTrimmed cs) :
    (pieces known cs).flatMap Piece.source = cs := by
  by_cases hpair : HasPair cs
  · obtain ⟨before, first, second, after, rfl, hf, hs, hnone, hlabel⟩ := exists_first_pair hpair
    have htrim := h before first second after rfl hf hs (.plain hlabel)
    have hafter := source_of_secondsTrimmed known after (h.behind (.plain hlabel) hf hs)
    obtain ⟨head, mark, rfl, hmark, hapart⟩ := apart_of_not_endsInLabel known hlabel
    obtain ⟨image, rfl⟩ := hmark.exists_image
    obtain ⟨piece, hpieces, hblank, hnames⟩ := exists_piece_pair known image hf hs
    have hhead : ¬ HasPair head := fun hh => hnone (hh.append [] (imageMark image))
    have hsource : piece.source = imageMark image ++ (group first ++ group second) := by
      by_cases hnothing : NamesNothing first second
      · exact hblank hnothing
      · rw [hnames hnothing, htrim hnothing]
    rw [List.append_assoc, pieces_append (hapart first _), List.flatMap_append, hpieces,
      List.flatMap_cons, source_of_not_hasPair known hhead, hsource, hafter]
    simp only [List.append_assoc]
  · exact source_of_not_hasPair known hpair
termination_by cs.length
decreasing_by
  subst_vars
  simp only [List.length_append, length_group]
  omega

theorem secondsTrimmed_of_source (h : (pieces known cs).flatMap Piece.source = cs) :
    SecondsTrimmed cs := by
  rintro before first second after rfl hf hs hsettled hnames
  obtain ⟨head, mark, rfl, hmark, hread⟩ := hsettled.exists_pieces known
  obtain ⟨image, rfl⟩ := hmark.exists_image
  obtain ⟨piece, hpieces, -, hsource⟩ := exists_piece_pair known image hf hs
  have hlength := congrArg List.length h
  have hhead := length_source_le known head
  have hafter := length_source_le known after
  rw [hread, hpieces, List.flatMap_append, List.flatMap_cons, hsource hnames] at hlength
  simp only [List.length_append, length_group] at hlength
  exact trim_eq_of_length_le (by omega)

/-- The tokens of a run of text are written as the run exactly if groups that are taken together
with the one before them have no white space around their content; and no text stands next to
text. -/
theorem splitReferences_lossless_iff (known : List String) (s : String) :
    (sourceForms (splitReferences known s) = .ok s.toList ↔ SecondsTrimmed s.toList) ∧
      Spaced (splitReferences known s) := by
  refine ⟨?_, spaced_splitReferences known s⟩
  rw [sourceForms_splitReferences, Except.ok.injEq]
  exact ⟨secondsTrimmed_of_source, source_of_secondsTrimmed known s.toList⟩

end Lossless

end Typeset.Token
