import Typeset.Proofs.Layout.Outline
import Typeset.Proofs.Markup.Rows
import Typeset.Proofs.Render.Form
import Typeset.Proofs.Token.Finished

/-! References that lead nowhere. Every reference that stands where it is shown is met once, in the
order of the document, and warned about if nothing defines it. -/

namespace Typeset.Render

open Token Rendering

variable {α β : Type} {env : Environment} {active : List String} {definitions : Targets Definition}
  {token : Value} {tokens refs more : List Value} {name : String} {form : InlineKind}

/-- The kinds of references to links and images. -/
def targetKinds : List String := ["link_reference", "image_reference"]

/-- The references in a token that are shown, each before those below it. Nothing below an image is
shown. -/
def references (token : Value) : List Value :=
  let kind := (nameOf token).getD ""
  (if kind ∈ targetKinds then [token] else []) ++
    if (typesBelow kind).isSome then (listed token).attach.flatMap fun t => references t.1 else []
termination_by sizeOf token
decreasing_by exact sizeOf_lt_of_mem_listed t.2

/-- Whether nothing is defined under the key of a reference. -/
def isLost (definitions : Targets Definition) (token : Value) : Bool :=
  (definitions.find (Text.lower (attrText "identifier" token))).isNone

/-- The warning about a reference that nothing is defined for. -/
def lostWarning (token : Value) : Issue :=
  unresolved (if nameOf token = some "image_reference" then "Image" else "Link")
    (attrText "identifier" token)

/-- The warnings about references, one for each that nothing is defined for. -/
def lostWarnings (definitions : Targets Definition) (refs : List Value) : List Issue :=
  (refs.filter (isLost definitions)).map lostWarning

/-- A warning about a reference to a link or an image. -/
def IsLostWarning (issue : Issue) : Prop := issue.code = .unresolvedLinkReference

instance : DecidablePred IsLostWarning := fun _ => inferInstanceAs (Decidable (_ = _))

section References

theorem references_eq (hname : nameOf token = some name) :
    references token = (if name ∈ targetKinds then [token] else []) ++
      if (typesBelow name).isSome then (listed token).flatMap references else [] := by
  rw [references, hname]
  simp

theorem references_of_holder (hname : nameOf token = some name) (htarget : name ∉ targetKinds)
    (hbelow : (typesBelow name).isSome) : references token = (listed token).flatMap references := by
  rw [references_eq hname, if_neg htarget, if_pos hbelow, List.nil_append]

theorem references_of_other (hname : nameOf token = some name) (htarget : name ∉ targetKinds)
    (hbelow : typesBelow name = none) : references token = [] := by
  rw [references_eq hname, if_neg htarget, hbelow]
  rfl

theorem references_markedBranch (kind : String) (attrs : Fields) (tokens : List Value) :
    references (markedBranch kind attrs tokens) =
      (if kind ∈ targetKinds then [markedBranch kind attrs tokens] else []) ++
        if (typesBelow kind).isSome then tokens.flatMap references else [] := references_eq rfl

theorem lostWarnings_append (xs ys : List Value) :
    lostWarnings definitions (xs ++ ys) =
      lostWarnings definitions xs ++ lostWarnings definitions ys := by
  rw [lostWarnings, List.filter_append, List.map_append, lostWarnings, lostWarnings]

end References

section Says

/-- A computation that comes to an end, reports nothing but warnings, and of references only that
some of these lead nowhere, in their order. -/
structure Says (definitions : Targets Definition) (refs : List Value) (r : Rendering α) : Prop where
  ends : ∃ a, r.outcome = .ok a
  warns : ∀ issue ∈ r.issues, issue.severity = .warning
  said : r.issues.filter IsLostWarning = lostWarnings definitions refs

theorem says_quiet {r : Rendering α} (hends : ∃ a, r.outcome = .ok a) (hquiet : r.issues = []) :
    Says definitions [] r := by
  refine ⟨hends, ?_, ?_⟩ <;> rw [hquiet]
  · exact List.forall_mem_nil _
  · rfl

theorem says_pure (a : α) : Says definitions [] (pure a : Rendering α) := says_quiet ⟨a, rfl⟩ rfl

theorem says_lift {e : Except Failure α} (h : ∃ a, e = .ok a) :
    Says definitions [] (liftM e : Rendering α) := says_quiet h rfl

theorem says_report {issue : Issue} (hwarns : issue.severity = .warning)
    (hother : ¬ IsLostWarning issue) : Says definitions [] (report issue) := by
  refine ⟨⟨(), rfl⟩, List.forall_mem_singleton.mpr hwarns, ?_⟩
  rw [report, List.filter_singleton]
  simp [hother]
  rfl

theorem Says.bind {r : Rendering α} {next : α → Rendering β} (hr : Says definitions refs r)
    (hn : ∀ a, Says definitions more (next a)) : Says definitions (refs ++ more) (r >>= next) := by
  obtain ⟨⟨a, ha⟩, hwarns, hsaid⟩ := hr
  obtain ⟨⟨b, hb⟩, hmore, hlater⟩ := hn a
  rw [Rendering.bind_of_ok ha]
  refine ⟨⟨b, hb⟩, List.forall_mem_append.mpr ⟨hwarns, hmore⟩, ?_⟩
  rw [Rendering.after, List.filter_append, hsaid, hlater, lostWarnings_append]

/-- What comes after is quiet. -/
theorem Says.then {r : Rendering α} {next : α → Rendering β} (hr : Says definitions refs r)
    (hn : ∀ a, Says definitions [] (next a)) : Says definitions refs (r >>= next) := by
  simpa using hr.bind hn

theorem Says.rescue {r : Rendering α} {handler : Failure → Rendering α}
    (hr : Says definitions refs r) : Says definitions refs (r.rescue handler) := by
  obtain ⟨a, ha⟩ := hr.ends
  rwa [Rendering.rescue, ha]

/-- A reference that nothing is defined for is warned about where it is met. -/
theorem says_lost
    (hnone : definitions.find (Text.lower (attrText "identifier" token)) = none) :
    Says definitions [token] (report (lostWarning token)) := by
  refine ⟨⟨(), rfl⟩, List.forall_mem_singleton.mpr rfl, ?_⟩
  rw [lostWarnings, List.filter_singleton, isLost, hnone]
  rfl

theorem says_found {r : Rendering α} {d : Definition}
    (hsome : definitions.find (Text.lower (attrText "identifier" token)) = some d)
    (hr : Says definitions refs r) : Says definitions (token :: refs) r := by
  refine ⟨hr.ends, hr.warns, ?_⟩
  rw [hr.said, lostWarnings, lostWarnings, List.filter_cons, isLost, hsome]
  rfl

end Says

/-- A token that nothing keeps from showing what is below it: no reference to a footnote, no
paragraph that gives way to an outline, and no table without columns. -/
structure Unhindered (definitions : Targets Definition) (token : Value) : Prop where
  note : nameOf token ≠ some "footnote_ref"
  marker : nameOf token = some "paragraph" →
    ¬ Layout.IsMarker (wordings definitions (listed token))
  header : nameOf token = some "table" → ∀ header body, listed token = header :: body →
    listed header ≠ []

/-- A token that is shown with all that is below it. -/
structure Shown (definitions : Targets Definition) (token : Value) : Prop where
  tree : Tree Finished token
  unhindered : token.Everywhere (Unhindered definitions)

theorem Shown.listed (h : Shown definitions token) :
    ∀ t ∈ Token.listed token, Shown definitions t :=
  fun t ht => ⟨h.tree.listed t ht, everywhere_listed h.unhindered t ht⟩

theorem Shown.kind (h : Shown definitions token) (hname : nameOf token = some name) :
    Token.kind token = .ok (.str name) := by
  rw [h.tree.regular.kind_text, hname]
  rfl

theorem shown_markedBranch {kind : String} {attrs : Fields} (hfit : Fit attrs)
    (hkind : kind ∉ ["footnote_ref", "table"])
    (hmarker : kind = "paragraph" → ¬ Layout.IsMarker (wordings definitions tokens))
    (hplaced : OfTypes ((typesBelow kind).getD []) tokens)
    (htokens : ∀ t ∈ tokens, Shown definitions t) :
    Shown definitions (markedBranch kind attrs tokens) := by
  simp only [List.mem_cons, List.not_mem_nil, or_false, not_or] at hkind
  obtain ⟨hnote, htable⟩ := hkind
  constructor
  · exact tree_markedBranch hfit hplaced fun t ht => (htokens t ht).tree
  · refine Value.everywhere_markedBranch ⟨?_, ?_, ?_⟩ fun t ht => (htokens t ht).unhindered
    · exact fun hname => hnote (Option.some.inj hname)
    · exact fun hname => hmarker (Option.some.inj hname)
    · exact fun hname => absurd (Option.some.inj hname) htable

section Leaf

variable {expression span : Value} {label : String}

theorem textMarkup_ends (h : Tree Regular token) : ∃ text, textMarkup token = .ok text := by
  rw [textMarkup, h.raw_text]
  exact ⟨_, rfl⟩

theorem codeMarkup_ends (h : Tree Regular token) : ∃ text, codeMarkup token = .ok text := by
  rw [codeMarkup, h.raw_text]
  dsimp only [bind, Except.bind]
  split
  · rw [holdsBacktick]
    dsimp only
    split <;> exact ⟨_, rfl⟩
  · exact ⟨_, rfl⟩

theorem linkMarkup_ends (url label : String) : ∃ text, linkMarkup (.str url) label = .ok text := by
  rw [linkMarkup]
  split <;> exact ⟨_, rfl⟩

theorem says_imageMarkup (url : String) : Says definitions [] (imageMarkup (.str url)) := by
  have haddress : (Value.str url).needText = .ok url := rfl
  rw [imageMarkup, Rendering.lift_bind_of_ok haddress]
  split
  · exact says_quiet ⟨_, rfl⟩ rfl
  · exact says_pure _

theorem says_convertOrKeep (stage : Stage) (latex : String) :
    Says definitions [] (convertOrKeep env stage latex) := by
  rw [convertOrKeep]
  split
  · exact says_pure _
  · exact (says_report rfl (by simp [IsLostWarning])).then fun _ => says_pure _

theorem isDisplay_ends (latex : String) (hspan : span = .null ∨ ∃ n, span = .int n) :
    ∃ answer, isDisplay (.str latex) span = .ok answer := by
  obtain rfl | ⟨n, rfl⟩ := hspan
  · exact ⟨false, rfl⟩
  · exact ⟨_, rfl⟩

theorem says_inlineFormula (latex : String) (hspan : span = .null ∨ ∃ n, span = .int n) :
    Says definitions [] (inlineFormula env (.str latex) span) := by
  have hlatex : (Value.str latex).asText = .ok latex := rfl
  obtain ⟨answer, hanswer⟩ := isDisplay_ends latex hspan
  rw [inlineFormula, Rendering.lift_bind_of_ok hlatex]
  refine (says_convertOrKeep _ _).then fun text => ?_
  rw [Rendering.lift_bind_of_ok hanswer]
  split <;> exact says_pure _

theorem says_blockFormula (latex : String) :
    Says definitions [] (blockFormula env (.str latex)) := by
  have hlatex : (Value.str latex).asText = .ok latex := rfl
  rw [blockFormula, Rendering.lift_bind_of_ok hlatex]
  exact (says_convertOrKeep _ _).then fun text => says_pure _

/-- An image reference, with its description in place of an image that nothing defines. -/
theorem says_imageReference (hd : Addressed env.definitions) (h : Tree Finished token)
    (hname : nameOf token = some "image_reference") :
    Says env.definitions [token] (imageReferenceMarkup env token) := by
  rw [imageReferenceMarkup, Rendering.lift_bind_of_ok h.regular.identifierOf_eq]
  cases hfind : env.definitions.find (Text.lower (attrText "identifier" token)) with
  | some d =>
    obtain ⟨url, hurl⟩ := hd _ (mem_of_lookup hfind)
    simp only at hurl ⊢
    rw [hurl]
    exact says_found hfind (says_imageMarkup url)
  | none =>
    have hwarning : unresolved "Image" (attrText "identifier" token) = lostWarning token := by
      rw [lostWarning, if_pos hname]
    obtain ⟨alt, halt, haltText⟩ := h.alt_gives
    obtain ⟨label, hlabel, hlabelText⟩ := h.label_gives
    obtain ⟨name, hname⟩ := orElse_text hlabelText (attrText "identifier" token)
    obtain ⟨shown, hshown⟩ := orElse_text haltText name
    dsimp only
    rw [hwarning]
    refine (says_lost hfind).then fun _ => ?_
    rw [Rendering.lift_bind_of_ok halt, Rendering.lift_bind_of_ok hlabel, hname, hshown]
    exact says_lift ⟨_, rfl⟩

/-- A link reference, with its label in place of a link to what nothing defines. -/
theorem says_linkReference (hd : Addressed env.definitions) (h : Tree Finished token)
    (hname : nameOf token = some "link_reference")
    (hb : Says env.definitions refs (inlinesBelow env active token)) :
    Says env.definitions (token :: refs) (inlineOf env active .linkReference token) := by
  rw [inlineOf, Rendering.lift_bind_of_ok h.regular.identifierOf_eq]
  cases hfind : env.definitions.find (Text.lower (attrText "identifier" token)) with
  | some d =>
    obtain ⟨url, hurl⟩ := hd _ (mem_of_lookup hfind)
    simp only at hurl ⊢
    rw [hurl]
    exact says_found hfind (hb.then fun label => says_lift (linkMarkup_ends url label))
  | none =>
    have hwarning : unresolved "Link" (attrText "identifier" token) = lostWarning token := by
      rw [lostWarning, hname]
      rfl
    obtain ⟨label, hlabel, hlabelText⟩ := h.label_gives
    obtain ⟨shown, hshown⟩ := orElse_text hlabelText (attrText "identifier" token)
    dsimp only
    rw [hwarning]
    -- The warning comes first, then those of the label, which is rendered once.
    refine (says_lost hfind).bind fun _ => hb.then fun text => ?_
    split
    · exact says_pure _
    · rw [Rendering.lift_bind_of_ok hlabel, hshown]
      exact says_lift ⟨_, rfl⟩

end Leaf

section Inline

theorem typesBelow_of_wrapped {opening closing : String}
    (hform : inlineKind? name = some (.wrapped opening closing)) :
    name ∉ targetKinds ∧ typesBelow name = some inlineTypes := by
  unfold inlineKind? at hform
  split at hform <;> cases hform <;> decide

/-- The forms of inlines that are shown without what is below them. -/
def IsLeafForm : InlineKind → Prop
  | .text | .code | .image | .formula | .lineBreak | .softBreak => True
  | _ => False

theorem references_of_leafForm (hname : nameOf token = some name)
    (hform : inlineKind? name = some form) (hleaf : IsLeafForm form) : references token = [] := by
  have hkind : name ∉ targetKinds ∧ typesBelow name = none := by
    unfold inlineKind? at hform
    split at hform <;> cases hform <;> first | exact hleaf.elim | decide
  exact references_of_other hname hkind.1 hkind.2

theorem eq_of_referenceForm (hform : inlineKind? name = some form) :
    (form = .link → name = "link") ∧ (form = .linkReference → name = "link_reference") ∧
      (form = .imageReference → name = "image_reference") := by
  unfold inlineKind? at hform
  split at hform <;> cases hform <;> simp

/-- An inline says what is below it to say, and what it refers to itself. -/
theorem says_inline (hd : Addressed env.definitions) (h : Shown env.definitions token)
    (hname : nameOf token = some name) (hform : inlineKind? name = some form)
    (hb : typesBelow name = some inlineTypes →
      Says env.definitions ((listed token).flatMap references) (inlinesBelow env active token)) :
    Says env.definitions (references token) (Render.inline env active token) := by
  obtain ⟨hlink, hlinkReference, himageReference⟩ := eq_of_referenceForm hform
  have hleaf (hf : IsLeafForm form) := references_of_leafForm hname hform hf
  rw [inline_of_form (h.kind hname) hform]
  cases form with
  | text =>
    rw [hleaf trivial]
    exact says_lift (textMarkup_ends h.tree.regular)
  | wrapped opening closing =>
    obtain ⟨htarget, hbelow⟩ := typesBelow_of_wrapped hform
    rw [references_of_holder hname htarget (Option.isSome_of_eq_some hbelow)]
    exact (hb hbelow).then fun text => says_pure _
  | code =>
    rw [hleaf trivial]
    exact says_lift (codeMarkup_ends h.tree.regular)
  | link =>
    obtain rfl := hlink rfl
    obtain ⟨_, hurl, url, rfl⟩ := h.tree.url_gives
    rw [references_of_holder hname (by decide) (by decide), inlineOf,
      Rendering.lift_bind_of_ok hurl]
    exact (hb rfl).then fun label => says_lift (linkMarkup_ends url label)
  | linkReference =>
    obtain rfl := hlinkReference rfl
    rw [references_eq hname, if_pos (by decide), if_pos (by decide)]
    exact says_linkReference hd h.tree hname (hb rfl)
  | image =>
    obtain ⟨_, hurl, url, rfl⟩ := h.tree.url_gives
    rw [hleaf trivial, inlineOf, Rendering.lift_bind_of_ok hurl]
    exact says_imageMarkup url
  | imageReference =>
    obtain rfl := himageReference rfl
    rw [references_eq hname, if_pos (by decide), if_neg (by decide), List.append_nil]
    exact says_imageReference hd h.tree hname
  | footnoteReference =>
    obtain rfl := (eq_of_inlineKind? hform).2.1 rfl
    exact absurd hname h.unhindered.self.note
  | formula =>
    obtain ⟨span, hspan, hwhole⟩ := h.tree.span_gives
    rw [hleaf trivial, inlineOf, Rendering.lift_bind_of_ok hspan,
      Rendering.lift_bind_of_ok h.tree.regular.raw_text]
    exact says_inlineFormula _ hwhole
  | lineBreak =>
    rw [hleaf trivial]
    exact says_pure _
  | softBreak =>
    rw [hleaf trivial]
    exact says_pure _

end Inline

section Block

variable {indent : Int}

theorem says_heading (h : Shown env.definitions token) (hname : nameOf token = some "heading")
    (hb : Says env.definitions ((listed token).flatMap references)
      (inlinesBelow env active token)) :
    Says env.definitions (references token) (blockOf env active .heading token indent) := by
  obtain ⟨_, hattr, n, rfl⟩ := h.tree.level_gives
  have hlevel : headingLevel (.int n) = .ok (some (min (max n 1) 6).toNat) := rfl
  rw [references_of_holder hname (by decide) (by decide), blockOf,
    Rendering.lift_bind_of_ok hattr, Rendering.lift_bind_of_ok hlevel]
  exact hb.then fun text => says_pure _

theorem says_paragraph (hd : Addressed env.definitions) (h : Shown env.definitions token)
    (hname : nameOf token = some "paragraph")
    (hb : Says env.definitions ((listed token).flatMap references)
      (inlinesBelow env active token)) :
    Says env.definitions (references token) (paragraph env active token) := by
  rw [references_of_holder hname (by decide) (by decide),
    Layout.paragraph_of_words h.tree.regular hd (h.unhindered.self.marker hname)]
  exact hb

theorem says_codeBlock (h : Shown env.definitions token) :
    Says env.definitions [] (blockOf env active .code token indent) := by
  obtain ⟨_, hattr, hinfo⟩ := h.tree.info_gives
  obtain ⟨info, hinfo⟩ := orElse_text hinfo ""
  have hraw := h.tree.regular.raw_text
  rw [blockOf]
  refine (says_lift ?_).then fun text => says_pure _
  simp only [codeBlock, hraw, hattr, hinfo, Markup.indentValue_str, bind, Except.bind]
  exact ⟨_, rfl⟩

theorem says_htmlBlock (h : Shown env.definitions token) :
    Says env.definitions [] (blockOf env active .html token indent) := by
  have hraw := h.tree.regular.raw_text
  rw [blockOf]
  refine says_lift ?_
  simp only [htmlBlock, hraw, bind, Except.bind, Value.asText]
  exact ⟨_, rfl⟩

theorem says_list (h : Shown env.definitions token) (hname : nameOf token = some "list")
    (hb : ∀ marker, Says env.definitions ((listed token).flatMap references)
      (items env active marker (listed token) indent)) :
    Says env.definitions (references token) (blockOf env active .list token indent) := by
  obtain ⟨ordered, hattr, -⟩ := h.tree.attr_gives "ordered" .null
  have hmarker : ∃ marker, listMarker token = .ok marker := by
    simp only [listMarker, hattr, bind, Except.bind]
    exact ⟨_, rfl⟩
  obtain ⟨marker, hmarker⟩ := hmarker
  rw [references_of_holder hname (by decide) (by decide), blockOf_list hmarker h.tree.children_eq]
  exact (hb marker).then fun parts => says_pure _

/-- A paragraph at the head of an item is rendered once, and so is every block after it. -/
theorem says_item {marker : String} (h : Shown env.definitions token)
    (hname : nameOf token = some "list_item")
    (hlead : ∀ first more, listed token = first :: more → nameOf first = some "paragraph" →
      Says env.definitions (references first) (paragraph env active first))
    (hmore : ∀ first more, listed token = first :: more →
      Says env.definitions (more.flatMap references) (blocks env active more (indent + 1)))
    (hall : Says env.definitions ((listed token).flatMap references)
      (blocks env active (listed token) (indent + 1))) :
    Says env.definitions (references token) (item env active marker token indent) := by
  have hplaced := h.tree.ofTypes hname rfl
  rw [references_of_holder hname (by decide) (by decide)]
  cases hparts : listed token with
  | nil =>
    rw [item_of_leadless (h.tree.itemParts_eq.trans (congrArg _ hparts)) leadless_nil, ← hparts]
    exact hall.then fun parts => says_pure _
  | cons first more =>
    rw [hparts, ofTypes_cons] at hplaced
    obtain ⟨⟨name, hkind, hfirst⟩, -⟩ := hplaced
    have hitem := h.tree.itemParts_eq.trans (congrArg _ hparts)
    -- Only a paragraph is taken out from among the blocks: anything else is rendered with them.
    by_cases hp : name = "paragraph"
    · rw [item_of_lead hitem (type_of_name (hp ▸ hfirst)), List.flatMap_cons]
      refine (hlead first more hparts (hp ▸ hfirst)).bind fun text => ?_
      exact (hmore first more hparts).then fun parts => says_pure _
    · rw [item_of_leadless hitem ?_, ← hparts]
      · exact hall.then fun parts => says_pure _
      · rintro _ ⟨⟩
        exact ⟨_, type_of_name hfirst, by simpa [Value.isText] using hp⟩

/-- The header is rendered once, after its cells have been counted, and so is every other row. -/
theorem says_table (h : Shown env.definitions token) (hname : nameOf token = some "table")
    (hb : ∀ header body, listed token = header :: body →
      Says env.definitions (references header) (row env active header) ∧
        Says env.definitions (body.flatMap references) (rows env active body)) :
    Says env.definitions (references token) (table env active token indent) := by
  rw [references_of_holder hname (by decide) (by decide)]
  cases hrows : listed token with
  | nil =>
    rw [table_of_no_rows (h.tree.rowsOf_eq.trans (congrArg _ hrows))]
    exact (says_report rfl (by simp [IsLostWarning, emptyTable])).then fun _ => says_pure _
  | cons header body =>
    rw [table_of_rows (h.tree.rowsOf_eq.trans (congrArg _ hrows))]
    have hheader := h.listed header (hrows ▸ List.mem_cons_self ..)
    have hne := h.unhindered.self.header hname header body hrows
    have hcount : (Value.list (listed header)).count = .ok (listed header).length := rfl
    have hpos : (listed header).length ≠ 0 := List.length_eq_zero_iff.not.mpr hne
    obtain ⟨hhead, hbody⟩ := hb header body hrows
    rw [Rendering.lift_bind_of_ok hheader.tree.childrenField_eq, Rendering.lift_bind_of_ok hcount,
      if_neg hpos, Rendering.lift_bind_of_ok (h.tree.alignments_eq hpos), List.flatMap_cons]
    exact hhead.bind fun head => hbody.then fun body => says_pure _

/-- Every kind of blocks is either silent or rendered in its own form. -/
theorem silent_or_form : ∀ name ∈ blockTypes, isSilent name = true ∨ (blockKind? name).isSome := by
  decide

theorem references_of_silent (hname : nameOf token = some name) (hsilent : isSilent name = true) :
    references token = [] := by
  have hkind : name ∉ targetKinds ∧ typesBelow name = none := by
    simp only [isSilent, Bool.or_eq_true, beq_iff_eq] at hsilent
    rcases hsilent with (rfl | rfl) | rfl <;> decide
  exact references_of_other hname hkind.1 hkind.2

/-- A form of blocks belongs to one kind. -/
theorem eq_of_same_form {form : BlockKind} {other : String} (h : blockKind? name = some form)
    (hother : blockKind? other = some form) : name = other := by
  unfold blockKind? at h hother
  split at h <;> cases h <;> split at hother <;> cases hother <;> rfl

theorem says_block (h : Shown env.definitions token) (hplaced : ∃ kind ∈ blockTypes,
      nameOf token = some kind)
    (hb : ∀ form name, nameOf token = some name → blockKind? name = some form →
      Says env.definitions (references token) (blockOf env active form token indent)) :
    Says env.definitions (references token) (block env active token indent) := by
  obtain ⟨name, hkind, hname⟩ := hplaced
  by_cases hsilent : isSilent name = true
  · rw [references_of_silent hname hsilent, block_of_silent (h.kind hname) hsilent]
    exact says_pure _
  · obtain ⟨form, hform⟩ := Option.isSome_iff_exists.mp
      ((silent_or_form name hkind).resolve_left hsilent)
    rw [block_of_form (h.kind hname) hform]
    exact (hb form name hname hform).rescue

end Block

section Traversal

/-- The renderers say of what is shown what it refers to, in order. -/
def telling (env : Environment) : Property where
  inlines active tokens := (∀ t ∈ tokens, Shown env.definitions t) → OfTypes inlineTypes tokens →
    Says env.definitions (tokens.flatMap references) (inlines env active tokens)
  inlinesBelow active token := Shown env.definitions token → OfTypes inlineTypes (listed token) →
    Says env.definitions ((listed token).flatMap references) (inlinesBelow env active token)
  inline active token := Shown env.definitions token →
    (∃ kind ∈ inlineTypes, nameOf token = some kind) →
      Says env.definitions (references token) (Render.inline env active token)
  footnoteReference _ _ := True
  blocks active tokens indent := (∀ t ∈ tokens, Shown env.definitions t) →
    OfTypes blockTypes tokens →
      Says env.definitions (tokens.flatMap references) (blocks env active tokens indent)
  block active token indent := Shown env.definitions token →
    (∃ kind ∈ blockTypes, nameOf token = some kind) →
      Says env.definitions (references token) (block env active token indent)
  blockOf active form token indent := Shown env.definitions token →
    ∀ name, nameOf token = some name → blockKind? name = some form →
      Says env.definitions (references token) (blockOf env active form token indent)
  paragraph active token := Shown env.definitions token → nameOf token = some "paragraph" →
    Says env.definitions (references token) (paragraph env active token)
  items active marker tokens indent := (∀ t ∈ tokens, Shown env.definitions t) →
    OfTypes ["list_item"] tokens →
      Says env.definitions (tokens.flatMap references) (items env active marker tokens indent)
  item active marker token indent := Shown env.definitions token →
    nameOf token = some "list_item" →
      Says env.definitions (references token) (item env active marker token indent)
  cells active tokens := (∀ t ∈ tokens, Shown env.definitions t) → OfTypes ["table_cell"] tokens →
    Says env.definitions (tokens.flatMap references) (cells env active tokens)
  rows active tokens := (∀ t ∈ tokens, Shown env.definitions t) → OfTypes ["table_row"] tokens →
    Says env.definitions (tokens.flatMap references) (rows env active tokens)
  row active token := Shown env.definitions token → nameOf token = some "table_row" →
    Says env.definitions (references token) (row env active token)
  table active token indent := Shown env.definitions token → nameOf token = some "table" →
    Says env.definitions (references token) (table env active token indent)

theorem row_eq (h : Tree Finished token) :
    row env active token = cells env active (listed token) := by
  rw [row]
  split
  next f hf => cases hf.symm.trans h.children_eq
  next children hc => rw [Except.ok.inj (hc.symm.trans h.children_eq)]

theorem telling_inductive (hd : Addressed env.definitions) : (telling env).Inductive env where
  inlinesNil {active} _ _ := by
    rw [inlines]
    exact says_pure _
  inlinesCons {active token rest} h hr hshown hplaced := by
    obtain ⟨hhere, hmore⟩ := List.forall_mem_cons.mp hshown
    obtain ⟨hkind, hkinds⟩ := ofTypes_cons.mp hplaced
    rw [inlines]
    exact (h hhere hkind).bind fun here => (hr hmore hkinds).then fun more => says_pure _
  inlinesBelow {active token} h hshown hplaced := by
    have hchildren := hshown.tree.children_eq
    rw [inlinesBelow_of_children hchildren]
    exact h _ hchildren hshown.listed hplaced
  inline {active token} hb _ hshown hplaced := by
    obtain ⟨name, hkind, hname⟩ := hplaced
    have hforms : ∀ name ∈ inlineTypes, (inlineKind? name).isSome := by decide
    obtain ⟨form, hform⟩ := Option.isSome_iff_exists.mp (hforms name hkind)
    exact says_inline hd hshown hname hform fun hbelow =>
      hb hshown (hshown.tree.ofTypes hname hbelow)
  footnoteReference _ := trivial
  blocksNil {active indent} _ _ := by
    rw [blocks]
    exact says_pure _
  blocksCons {active token rest indent} h hr hshown hplaced := by
    obtain ⟨hhere, hmore⟩ := List.forall_mem_cons.mp hshown
    obtain ⟨hkind, hkinds⟩ := ofTypes_cons.mp hplaced
    rw [blocks]
    refine (h hhere hkind).bind fun here => (hr hmore hkinds).then fun more => ?_
    cases here <;> exact says_pure _
  block h hshown hplaced := says_block hshown hplaced fun form name => h form hshown name
  heading {active token indent} hb hshown name hname hform := by
    obtain rfl := eq_of_same_form hform (rfl : blockKind? "heading" = _)
    exact says_heading hshown hname (hb hshown (hshown.tree.ofTypes hname rfl))
  paragraphBlock {active token indent} hp hshown name hname hform := by
    obtain rfl := eq_of_same_form hform (rfl : blockKind? "paragraph" = _)
    rw [blockOf_paragraph]
    exact (hp hshown hname).then fun text => says_pure _
  list {active token indent} h hshown name hname hform := by
    obtain rfl := eq_of_same_form hform (rfl : blockKind? "list" = _)
    exact says_list hshown hname fun marker =>
      h marker _ hshown.tree.children_eq hshown.listed (hshown.tree.ofTypes hname rfl)
  listItem {active token indent} h hshown name hname hform := by
    obtain rfl := eq_of_same_form hform (rfl : blockKind? "list_item" = _)
    rw [blockOf_listItem]
    exact (h hshown hname).then fun text => says_pure _
  code {active token indent} hshown name hname hform := by
    obtain rfl := eq_of_same_form hform (rfl : blockKind? "block_code" = _)
    rw [references_of_other hname (by decide) (by decide)]
    exact says_codeBlock hshown
  quote {active token indent} h hshown name hname hform := by
    obtain rfl := eq_of_same_form hform (rfl : blockKind? "block_quote" = _)
    have hchildren := hshown.tree.children_eq
    rw [references_of_holder hname (by decide) (by decide), blockOf_quote hchildren]
    exact (h _ hchildren hshown.listed (hshown.tree.ofTypes hname rfl)).then fun parts =>
      says_pure _
  rule {active token indent} hshown name hname hform := by
    obtain rfl := eq_of_same_form hform (rfl : blockKind? "thematic_break" = _)
    rw [references_of_other hname (by decide) (by decide), blockOf]
    exact says_pure _
  tableBlock {active token indent} h hshown name hname hform := by
    obtain rfl := eq_of_same_form hform (rfl : blockKind? "table" = _)
    rw [blockOf]
    exact h hshown hname
  formula {active token indent} hshown name hname hform := by
    obtain rfl := eq_of_same_form hform (rfl : blockKind? "block_math" = _)
    rw [references_of_other hname (by decide) (by decide), blockOf,
      Rendering.lift_bind_of_ok hshown.tree.regular.raw_text]
    exact (says_blockFormula _).then fun text => says_pure _
  html {active token indent} hshown name hname hform := by
    obtain rfl := eq_of_same_form hform (rfl : blockKind? "html_block" = _)
    rw [references_of_other hname (by decide) (by decide)]
    exact says_htmlBlock hshown
  paragraph {active token} hb hshown hname :=
    says_paragraph hd hshown hname (hb hshown (hshown.tree.ofTypes hname rfl))
  itemsNil {active marker indent} _ _ := by
    rw [items]
    exact says_pure _
  itemsCons {active marker token rest indent} h hr hshown hplaced := by
    obtain ⟨hhere, hmore⟩ := List.forall_mem_cons.mp hshown
    obtain ⟨hname, hkinds⟩ := ofTypes_singleton_cons.mp hplaced
    rw [items]
    exact (h hhere hname).bind fun here => (hr hmore hkinds).then fun more => says_pure _
  item {active marker token indent} h hshown hname := by
    have hplaced := hshown.tree.ofTypes hname rfl
    have hall := hshown.listed
    have hparts := hshown.tree.itemParts_eq
    refine says_item hshown hname (fun first more hlisted hfirst => ?_)
      (fun first more hlisted => ?_) ?_
    · rw [hlisted] at hparts hall
      exact (h first more hparts).1 (hall first (List.mem_cons_self ..)) hfirst
    · rw [hlisted] at hparts hall hplaced
      exact (h first more hparts).2.1 (List.forall_mem_cons.mp hall).2 (ofTypes_cons.mp hplaced).2
    · cases hlisted : listed token with
      | nil =>
        rw [blocks]
        exact says_pure _
      | cons first more =>
        rw [hlisted] at hparts hall hplaced
        exact (h first more hparts).2.2 hall hplaced
  cellsNil {active} _ _ := by
    rw [cells]
    exact says_pure _
  cellsCons {active token rest} h hr hshown hplaced := by
    obtain ⟨hhere, hmore⟩ := List.forall_mem_cons.mp hshown
    obtain ⟨hname, hkinds⟩ := ofTypes_singleton_cons.mp hplaced
    rw [cells, List.flatMap_cons, references_of_holder hname (by decide) (by decide)]
    exact (h hhere (hhere.tree.ofTypes hname rfl)).bind fun here =>
      (hr hmore hkinds).then fun more => says_pure _
  rowsNil {active} _ _ := by
    rw [rows]
    exact says_pure _
  rowsCons {active token rest} h hr hshown hplaced := by
    obtain ⟨hhere, hmore⟩ := List.forall_mem_cons.mp hshown
    obtain ⟨hname, hkinds⟩ := ofTypes_singleton_cons.mp hplaced
    rw [rows]
    exact (h hhere hname).bind fun here => (hr hmore hkinds).then fun more => says_pure _
  row {active token} h hshown hname := by
    rw [references_of_holder hname (by decide) (by decide), row_eq hshown.tree]
    exact h _ hshown.tree.children_eq hshown.listed (hshown.tree.ofTypes hname rfl)
  table {active token indent} h hshown hname := by
    have hplaced := hshown.tree.ofTypes hname rfl
    have hall := hshown.listed
    have hrows := hshown.tree.rowsOf_eq
    refine says_table hshown hname fun header body hlisted => ?_
    rw [hlisted] at hrows hall hplaced
    obtain ⟨hheader, hbody⟩ := List.forall_mem_cons.mp hall
    obtain ⟨hhead, hkinds⟩ := ofTypes_singleton_cons.mp hplaced
    exact ⟨(h header body hrows).1 hheader hhead, (h header body hrows).2 hbody hkinds⟩

end Traversal

end Typeset.Render
