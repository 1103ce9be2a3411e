import Typeset.Proofs.Render.Induction
import Typeset.Proofs.Render.Plain
import Typeset.Proofs.Render.Footnote
import Typeset.Proofs.Render.Reference
import Typeset.Proofs.Text.Lowered
import Typeset.Proofs.Text.Trim
import Typeset.Proofs.Token.Wording

/-! The marker that stands for an outline. A paragraph gives way to the outline where its words are
the marker, whatever it shows besides its words. -/

namespace Typeset.Layout

open Render Rendering Token

variable {env : Environment} {active : List String} {token : Value} {s : String}
  {xs ys cs : List Char}

section Marker

/-- A text that is the marker, in either case and with white space around it. -/
def IsMarker (s : String) : Prop :=
  ∃ lead word trail, s.toList = lead ++ (word ++ trail) ∧ (∀ c ∈ lead, Text.isBlank c = true) ∧
    (∀ c ∈ trail, Text.isBlank c = true) ∧ word.map Char.toLower = "[toc]".toList

theorem isHome_of_mem_marker : ∀ c ∈ "[toc]".toList, Text.IsHome c := by
  have hall : "[toc]".toList.all fun c => decide (Text.IsHome c) := by decide
  exact fun c hc => of_decide_eq_true (List.all_eq_true.mp hall c hc)

theorem toLower_of_isBlank {c : Char} (h : Text.isBlank c = true) : c.toLower = c := by
  by_cases hascii : c.toNat < 0x80
  · have hall : ∀ n < 0x80, Text.isBlank (Char.ofNat n) = true →
        (Char.ofNat n).toLower = Char.ofNat n := by decide
    have hhere := hall c.toNat hascii
    rw [Char.ofNat_toNat] at hhere
    exact hhere h
  · exact Text.toLower_of_not_ascii hascii

/-- Neither end of the marker is white space, in whatever case it is written. -/
theorem trim_of_marker (h : cs.map Char.toLower = "[toc]".toList) :
    Text.trim Text.isBlank cs = cs := by
  have hsolid {c : Char} (hc : c.toLower = '[' ∨ c.toLower = ']') : Text.isBlank c = false := by
    rw [Bool.eq_false_iff]
    intro hblank
    rw [toLower_of_isBlank hblank] at hc
    rcases hc with rfl | rfl <;> exact absurd hblank (by decide)
  refine Text.trim_eq_self (fun c hc => hsolid (.inl ?_)) fun c hc => hsolid (.inr ?_)
  · have hhead := congrArg List.head? h
    rw [List.head?_map, hc] at hhead
    exact Option.some.inj hhead
  · have hlast := congrArg List.getLast? h
    rw [List.getLast?_map, hc] at hlast
    exact Option.some.inj hlast

theorem lower_strip_eq_iff : Text.lower (Text.strip s) = "[toc]" ↔ IsMarker s := by
  have hlower : Text.lower (Text.strip s) = "[toc]" ↔
      (Text.trim Text.isBlank s.toList).map Char.toLower = "[toc]".toList := by
    have hcase (cs : List Char) : Text.lowerFrom [] cs = "[toc]".toList ↔ _ :=
      Text.lowerFrom_eq_iff isHome_of_mem_marker
    rw [← hcase, Text.lower, Text.strip, String.toList_ofList, ← String.toList_inj,
      String.toList_ofList]
  rw [hlower]
  constructor
  · intro h
    obtain ⟨lead, trail, hs, hlead, htrail⟩ := Text.exists_trim s.toList
    exact ⟨lead, _, trail, hs, hlead, htrail, h⟩
  · rintro ⟨lead, word, trail, hs, hlead, htrail, hword⟩
    rw [hs, Text.trim_append_of_head hlead, Text.trim_append_of_last htrail, trim_of_marker hword]
    exact hword

end Marker

section Unlike

/-- A text that does not begin like the outline. -/
def Unlike : List Char → Prop
  | [] => True
  | [c] => c ≠ '#'
  -- Other calls begin with a hash as well, but none with this letter behind it.
  | c :: d :: _ => ¬ (c = '#' ∧ d = 'o')

instance : DecidablePred Unlike
  | [] => isTrue trivial
  | [_] => inferInstanceAs (Decidable (_ ≠ _))
  | _ :: _ :: _ => inferInstanceAs (Decidable (¬ (_ ∧ _)))

theorem unlike_of_head (h : ∀ c ∈ cs.head?, c ≠ '#') : Unlike cs := by
  cases cs with
  | nil => trivial
  | cons c cs =>
    have hc : c ≠ '#' := h c rfl
    cases cs with
    | nil => exact hc
    | cons d cs => exact fun hd => hc hd.1

theorem Unlike.append (hx : Unlike xs) (hy : Unlike ys) : Unlike (xs ++ ys) := by
  cases xs with
  | nil => exact hy
  | cons c xs =>
    cases xs with
    | nil =>
      refine unlike_of_head fun d hd => ?_
      cases hd
      exact hx
    | cons d xs => exact hx

/-- Inlines that are shown do not begin like the outline. -/
def Distinct (r : Rendering String) : Prop := Yields (fun text => Unlike text.toList) r

theorem unlike_escape (s : String) : Unlike (Markup.escape s).toList := by
  rw [Markup.escape, String.toList_ofList]
  cases s.toList with
  | nil => trivial
  | cons c cs =>
    refine unlike_of_head fun d hd => ?_
    rw [Markup.escapeChars] at hd
    split at hd
    · cases hd
      decide
    next hplain =>
      cases hd
      rintro rfl
      exact hplain rfl

theorem distinct_escapeValue (v : Value) :
    Distinct (liftM (Markup.escapeValue v) : Rendering String) := by
  refine yields_lift fun text h => ?_
  cases v with
  | str s =>
    cases h
    exact unlike_escape s
  | _ => cases h

theorem distinct_textMarkup (token : Value) :
    Distinct (liftM (textMarkup token) : Rendering String) := by
  refine yields_lift fun text h => ?_
  obtain ⟨raw, -, h⟩ := Failure.exists_of_bind h
  exact distinct_escapeValue raw text h

theorem distinct_codeMarkup (token : Value) :
    Distinct (liftM (codeMarkup token) : Rendering String) := by
  refine yields_lift fun text h => ?_
  obtain ⟨code, -, h⟩ := Failure.exists_of_bind h
  have hend (asArgument : Bool)
      (h : (if asArgument = true then do
          return "#raw(\"" ++ (← Markup.escapeStringValue code) ++ "\")"
        else return "`" ++ code.shown ++ "`" : Except Failure String) = .ok text) :
      Unlike text.toList := by
    split at h
    · obtain ⟨literal, -, h⟩ := Failure.exists_of_bind h
      cases h
      simp [Unlike]
    · cases h
      exact unlike_of_head (by simp)
  split at h
  · obtain ⟨asArgument, -, h⟩ := Failure.exists_of_bind h
    exact hend asArgument h
  · exact hend true h

theorem distinct_linkMarkup (url : Value) (label : String) :
    Distinct (liftM (linkMarkup url label) : Rendering String) := by
  refine yields_lift fun text h => ?_
  have hend (label : String)
      (h : (do
        return "#link(\"" ++ (← Markup.escapeStringValue url) ++ "\")[" ++ label ++ "]" :
          Except Failure String) = .ok text) : Unlike text.toList := by
    obtain ⟨literal, -, h⟩ := Failure.exists_of_bind h
    cases h
    simp [Unlike]
  rw [linkMarkup] at h
  split at h
  · obtain ⟨label, -, h⟩ := Failure.exists_of_bind h
    exact hend label h
  · exact hend label h

theorem distinct_imageMarkup (url : Value) : Distinct (imageMarkup url) := by
  refine yields_bind fun address => ?_
  dsimp only
  split
  · exact yields_bind fun _ => yields_pure (by simp [Unlike])
  · exact yields_pure (by simp [Unlike])

theorem distinct_imageReferenceMarkup (token : Value) :
    Distinct (imageReferenceMarkup env token) := by
  refine yields_bind fun identifier => ?_
  split
  · exact distinct_imageMarkup _
  · exact yields_bind fun _ => yields_bind fun _ => yields_bind fun _ => distinct_escapeValue _

theorem distinct_inlineFormula (expression span : Value) :
    Distinct (inlineFormula env expression span) := by
  refine yields_bind fun latex => yields_bind fun text => yields_bind fun display => ?_
  split
  · exact yields_pure (unlike_of_head (by simp))
  · exact yields_pure (unlike_of_head (by simp))

theorem distinct_footnoteReference (token : Value) :
    Distinct (footnoteReference env active token) := by
  rw [footnoteReference_eq]
  refine yields_bind fun identifier text h => ?_
  rcases expands_or_not env active identifier with ⟨body, parts, hexpands⟩ | hnot
  · cases (noteFor_of_expands hexpands).symm.trans h
    simp [footnoteMarkup, Unlike]
  · cases (noteFor_of_not_expands hnot).symm.trans h
    trivial

theorem distinct_unknownInline (kind : Value) : Distinct (unknownInline env kind) := by
  rw [unknownInline]
  split
  · exact yields_bind fun _ => yields_pure trivial
  · exact yields_pure trivial

theorem unlike_wrapped {name opening closing text : String}
    (h : inlineKind? name = some (.wrapped opening closing)) :
    Unlike (opening ++ text ++ closing).toList := by
  unfold inlineKind? at h
  split at h <;> cases h
  · exact unlike_of_head (by simp)
  · exact unlike_of_head (by simp)
  · simp [Unlike]
  · simp [Unlike]
  · simp [Unlike]
  · simp [Unlike]

theorem distinct_inline (hb : Distinct (inlinesBelow env active token)) :
    Distinct (Render.inline env active token) := by
  rw [inline_eq]
  refine yields_bind fun kind => yields_bind fun key => ?_
  cases hform : key.bind inlineKind? with
  | none => exact distinct_unknownInline kind
  | some form =>
    obtain ⟨name, -, hform⟩ := Option.bind_eq_some_iff.mp hform
    dsimp only
    unfold inlineOf
    cases form with
    | text => exact distinct_textMarkup token
    | wrapped opening closing =>
      exact yields_bind fun text => yields_pure (unlike_wrapped hform)
    | code => exact distinct_codeMarkup token
    | link => exact yields_bind fun url => yields_bind fun label => distinct_linkMarkup url label
    | linkReference =>
      refine yields_bind fun identifier => ?_
      split
      · exact yields_bind fun label => distinct_linkMarkup _ label
      · refine yields_bind fun _ => hb.bind fun text ht => ?_
        split
        · exact yields_pure ht
        · exact yields_bind fun label => distinct_escapeValue _
    | image => exact yields_bind fun url => distinct_imageMarkup url
    | imageReference => exact distinct_imageReferenceMarkup token
    | footnoteReference => exact distinct_footnoteReference token
    | formula =>
      exact yields_bind fun span => yields_bind fun raw => distinct_inlineFormula raw span
    | lineBreak => exact yields_pure (by decide)
    | softBreak => exact yields_pure (by decide)

/-- The inlines that are rendered do not begin like the outline; of blocks nothing is said. -/
def distinction (env : Environment) : Property where
  inlines active tokens := Distinct (inlines env active tokens)
  inlinesBelow active token := Distinct (inlinesBelow env active token)
  inline active token := Distinct (Render.inline env active token)
  footnoteReference _ _ := True
  blocks _ _ _ := True
  block _ _ _ := True
  blockOf _ _ _ _ := True
  paragraph _ _ := True
  items _ _ _ _ := True
  item _ _ _ _ := True
  cells _ _ := True
  rows _ _ := True
  row _ _ := True
  table _ _ _ := True

theorem distinction_inductive (env : Environment) : (distinction env).Inductive env where
  inlinesNil {active} := by
    change Distinct (inlines env active [])
    rw [inlines]
    exact yields_pure trivial
  inlinesCons {active token rest} h hr := by
    change Distinct (inlines env active (token :: rest))
    rw [inlines]
    refine h.bind fun here hhere => hr.bind fun more hmore => yields_pure ?_
    rw [String.toList_append]
    exact Unlike.append hhere hmore
  inlinesBelow {active token} h := by
    change Distinct (inlinesBelow env active token)
    rw [inlinesBelow]
    split
    next f _ => exact yields_fail f
    next children hc => exact h children hc
  inline hb _ := distinct_inline hb
  footnoteReference _ := trivial
  blocksNil := trivial
  blocksCons _ _ := trivial
  block _ := trivial
  heading _ := trivial
  paragraphBlock _ := trivial
  list _ := trivial
  listItem _ := trivial
  code := trivial
  quote _ := trivial
  rule := trivial
  tableBlock _ := trivial
  formula := trivial
  html := trivial
  paragraph _ := trivial
  itemsNil := trivial
  itemsCons _ _ := trivial
  item _ := trivial
  cellsNil := trivial
  cellsCons _ _ := trivial
  rowsNil := trivial
  rowsCons _ _ := trivial
  row _ := trivial
  table _ := trivial

/-- No inlines are rendered to what takes the place of the marker. -/
theorem inlinesBelow_ne_outline (env : Environment) (active : List String) (token : Value) :
    (inlinesBelow env active token).outcome ≠ .ok outline := by
  intro h
  have hdistinct : Distinct (inlinesBelow env active token) := by
    rw [inlinesBelow]
    split
    next f _ => exact yields_fail f
    next children _ => exact (distinction_inductive env).holds.inlines active children
  exact absurd (hdistinct outline h) (by decide)

end Unlike

section Paragraph

theorem isOutlineMarker_eq (h : Tree Regular token) (hd : Addressed env.definitions) :
    isOutlineMarker env token =
      .ok (Text.lower (Text.strip (wordings env.definitions (listed token))) == "[toc]") := by
  obtain ⟨parts, hparts, hjoin⟩ := plainParts_wordings hd (listed token) h.listed
  exact isOutlineMarker_of_plainParts h.children_eq hparts hjoin

theorem paragraph_of_marker (h : Tree Regular token) (hd : Addressed env.definitions)
    (hm : IsMarker (wordings env.definitions (listed token))) :
    paragraph env active token = pure outline := by
  rw [paragraph, Rendering.lift_bind_of_ok (isOutlineMarker_eq h hd),
    if_pos (beq_iff_eq.mpr (lower_strip_eq_iff.mpr hm))]

theorem paragraph_of_words (h : Tree Regular token) (hd : Addressed env.definitions)
    (hm : ¬ IsMarker (wordings env.definitions (listed token))) :
    paragraph env active token = inlinesBelow env active token := by
  rw [paragraph, Rendering.lift_bind_of_ok (isOutlineMarker_eq h hd),
    if_neg fun hlower => hm (lower_strip_eq_iff.mp (beq_iff_eq.mp hlower))]

/-- A paragraph is decided upon by its words alone: it shows its inlines where they are not the
marker, and there only, for no inlines come to the outline. -/
theorem paragraph_shows_inlines_iff (h : Tree Regular token) (hd : Addressed env.definitions) :
    (paragraph env active token = inlinesBelow env active token ↔
      ¬ IsMarker (wordings env.definitions (listed token))) ∧
      (IsMarker (wordings env.definitions (listed token)) →
        paragraph env active token = pure outline) := by
  refine ⟨⟨fun hsame hm => ?_, paragraph_of_words h hd⟩, paragraph_of_marker h hd⟩
  refine inlinesBelow_ne_outline env active token ?_
  rw [← hsame, paragraph_of_marker h hd hm]
  rfl

/-- A paragraph of the marker and an image. -/
def illustratedMarker : Value := branch "paragraph" [text "[toc]", imageAt (.str "a.png")]

/-- A paragraph of code that quotes the marker. -/
def quotedMarker : Value := branch "paragraph" [leaf "codespan" "[toc]"]

theorem regular_illustratedMarker : Tree Regular illustratedMarker := by
  refine regular_branch _ (List.forall_mem_cons.mpr ⟨regular_leaf _ _, ?_⟩)
  exact List.forall_mem_singleton.mpr (regular_marked _ ⟨by simp, by simp, by simp⟩)

theorem isMarker_toc : IsMarker "[toc]" :=
  ⟨[], "[toc]".toList, [], rfl, by simp, by simp, by decide⟩

theorem isMarker_illustratedMarker : IsMarker (wordings [] (listed illustratedMarker)) := by
  have hlisted : listed illustratedMarker = [text "[toc]", imageAt (.str "a.png")] := rfl
  have hwords : wordings [] (listed illustratedMarker) = "[toc]" := by
    rw [hlisted, wordings_cons, wordings_cons, wording_eq, wording_eq]
    decide
  rw [hwords]
  exact isMarker_toc

theorem paragraph_shows_inlines_iff_illustrated :
    Tree Regular illustratedMarker ∧ Addressed [] ∧
      paragraph { convertMath := .ok } [] illustratedMarker ≠
        inlinesBelow { convertMath := .ok } [] illustratedMarker := by
  have hd : Addressed [] := List.forall_mem_nil _
  refine ⟨regular_illustratedMarker, hd, fun h => ?_⟩
  exact (@paragraph_shows_inlines_iff { convertMath := .ok } [] illustratedMarker
    regular_illustratedMarker hd).1.mp h isMarker_illustratedMarker

/-- The image beside the marker is not shown, and code that quotes the marker is taken for it. -/
theorem marker_drops_image_and_code :
    (block { convertMath := .ok } [] illustratedMarker 0).outcome = .ok (some outline) ∧
      (inlinesBelow { convertMath := .ok } [] illustratedMarker).outcome =
        .ok "\\[toc\\]#image(\"a.png\")" ∧
      (block { convertMath := .ok } [] quotedMarker 0).outcome = .ok (some outline) ∧
      (inlinesBelow { convertMath := .ok } [] quotedMarker).outcome = .ok "`[toc]`" := by
  have hd : Addressed [] := List.forall_mem_nil _
  have hquoted : Tree Regular quotedMarker :=
    regular_branch _ (List.forall_mem_singleton.mpr (regular_leaf _ _))
  have hquotedWords : wordings [] (listed quotedMarker) = "[toc]" := by
    have hlisted : listed quotedMarker = [leaf "codespan" "[toc]"] := rfl
    rw [hlisted, wordings_cons, wording_eq]
    decide
  have hblock {token : Value} (hk : Token.kind token = .ok (.str "paragraph"))
      (h : paragraph { convertMath := .ok } [] token = pure outline) :
      (block { convertMath := .ok } [] token 0).outcome = .ok (some outline) := by
    have hshown : (paragraph { convertMath := .ok } [] token).outcome = .ok outline := by
      rw [h]
      rfl
    rw [block_of_paragraph hk hshown]
    rfl
  refine ⟨hblock rfl (paragraph_of_marker regular_illustratedMarker hd isMarker_illustratedMarker),
    ?_, hblock rfl (paragraph_of_marker hquoted hd (hquotedWords ▸ isMarker_toc)), ?_⟩
  · have hchildren : illustratedMarker.children = .ok [text "[toc]", imageAt (.str "a.png")] := rfl
    have hmarker : (Render.inline { convertMath := .ok } [] (text "[toc]")).outcome =
        .ok (Markup.escape "[toc]") :=
      inline_literal (rfl : inlineKind? "text" = some .text) "[toc]"
    have htext : Markup.escape "[toc]" ++ imageText "a.png" = "\\[toc\\]#image(\"a.png\")" := by
      decide
    rw [inlinesBelow_of_children hchildren,
      inlines_cons hmarker (inlines_singleton (outcome_imageAt "a.png")), htext]
  · have hchildren : quotedMarker.children = .ok [leaf "codespan" "[toc]"] := rfl
    have hcode : (Render.inline { convertMath := .ok } [] (leaf "codespan" "[toc]")).outcome =
        .ok "`[toc]`" := by
      have hkind : Token.kind (leaf "codespan" "[toc]") = .ok (.str "codespan") := rfl
      rw [inline_of_form hkind rfl]
      rfl
    rw [inlinesBelow_of_children hchildren, inlines_singleton hcode]

/-- A token that shows something and has no words. -/
def IsWordless (token : Value) : Prop :=
  (∃ kind ∈ ["image", "image_reference", "footnote_ref"], nameOf token = some kind) ∨
    nameOf token = some "inline_math" ∧ listed token = []

theorem IsWordless.wording_eq {definitions : Targets Definition} (h : IsWordless token) :
    wording definitions token = "" := by
  rw [Token.wording_eq]
  rcases h with ⟨kind, hkind, hname⟩ | ⟨hname, hlisted⟩
  · simp only [List.mem_cons, List.not_mem_nil, or_false] at hkind
    rw [hname]
    rcases hkind with rfl | rfl | rfl <;> rfl
  · rw [hname, hlisted]
    rfl

theorem wordings_of_wordless {definitions : Targets Definition} {tokens : List Value}
    (h : ∀ t ∈ tokens, IsWordless t) : wordings definitions tokens = "" := by
  induction tokens with
  | nil => rfl
  | cons t tokens ih =>
    obtain ⟨ht, hmore⟩ := List.forall_mem_cons.mp h
    rw [wordings_cons, ht.wording_eq, ih hmore]
    rfl

/-- Nothing without words keeps the marker from being taken for the outline, and none of it is
shown. -/
theorem paragraph_of_marker_among {before marker after : List Value} (h : Tree Regular token)
    (hd : Addressed env.definitions) (hlisted : listed token = before ++ (marker ++ after))
    (hwordless : ∀ t ∈ before ++ after, IsWordless t)
    (hmarker : IsMarker (wordings env.definitions marker)) :
    paragraph env active token = pure outline := by
  obtain ⟨hbefore, hafter⟩ := List.forall_mem_append.mp hwordless
  refine paragraph_of_marker h hd ?_
  rw [hlisted, wordings_append, wordings_append, wordings_of_wordless hbefore,
    wordings_of_wordless hafter]
  simpa using hmarker

end Paragraph

end Typeset.Layout
