import Typeset.Proofs.Render.Issues
import Typeset.Proofs.Render.Form
import Typeset.Proofs.Token.Definitions

/-! References to links and images: what a document defines last under a key is where every
reference of that key leads, and a reference without a target is reported. -/

namespace Typeset.Render

open Token

variable {env : Environment} {active : List String} {token : Value} {identifier : String}
  {children : List Value} {d : Definition} {tokens : Value}

/-- A link to a target, written out. -/
def linkTo (url : Value) (children : List Value) : Value :=
  markedBranch "link" [("url", url)] children

/-- An image, written out. -/
def imageAt (url : Value) : Value := marked "image" [("url", url)]

theorem inline_linkTo (url : Value) (children : List Value) :
    inline env active (linkTo url children) =
      inlines env active children >>= fun label => linkMarkup url label := by
  have hkind : Token.kind (linkTo url children) = .ok (.str "link") := rfl
  have hurl : (linkTo url children).attr "url" (.str "") = .ok url := rfl
  have hchildren : (linkTo url children).children = .ok children := rfl
  rw [inline_of_form hkind rfl, inlineOf, Rendering.lift_bind_of_ok hurl,
    inlinesBelow_of_children hchildren]

theorem inline_imageAt (url : Value) : inline env active (imageAt url) = imageMarkup url := by
  have hkind : Token.kind (imageAt url) = .ok (.str "image") := rfl
  have hurl : (imageAt url).attr "url" (.str "") = .ok url := rfl
  rw [inline_of_form hkind rfl, inlineOf, Rendering.lift_bind_of_ok hurl]

theorem issues_linkTo (url : Value) (children : List Value) :
    (inline env active (linkTo url children)).issues = (inlines env active children).issues := by
  rw [inline_linkTo]
  exact Rendering.issues_bind_of_quiet fun _ _ => rfl

theorem issues_imageAt (url : Value) : (inline env active (imageAt url)).issues = [] := by
  rw [inline_imageAt, List.eq_nil_iff_forall_not_mem]
  exact fun issue h => imageMarkup_reports (R := fun _ => False) url issue h

/-- A link around a label; a blank one gives way to the address. -/
def linkText (url label : String) : String :=
  "#link(\"" ++ Markup.escapeString url ++ "\")[" ++
    (if Text.isBlankText label then Markup.escape url else label) ++ "]"

theorem outcome_linkTo {url label : String}
    (h : (inlines env active children).outcome = .ok label) :
    (inline env active (linkTo (.str url) children)).outcome = .ok (linkText url label) := by
  rw [inline_linkTo, Rendering.bind_of_ok h, linkText]
  cases hb : Text.isBlankText label <;>
    simp [linkMarkup, hb, Markup.escapeValue, Markup.escapeStringValue, Value.needText,
      Value.asText, Except.map, bind, Except.bind, pure, Except.pure, Rendering.after, liftM,
      monadLift, MonadLift.monadLift, Rendering.ofExcept]

/-- An image; one from the web is left to a helper. -/
def imageText (url : String) : String :=
  let literal := "\"" ++ Markup.escapeString url ++ "\""
  if isRemote url then "#external-image(\n  " ++ literal ++ "\n)" else "#image(" ++ literal ++ ")"

theorem outcome_imageAt (url : String) :
    (inline env active (imageAt (.str url))).outcome = .ok (imageText url) := by
  have haddress : (Value.str url).needText = .ok url := rfl
  rw [inline_imageAt, imageMarkup, Rendering.lift_bind_of_ok haddress, imageText]
  by_cases h : isRemote url = true
  · rw [if_pos h, if_pos h]
    rfl
  · rw [if_neg h, if_neg h]
    rfl

/-- A link reference with a target is rendered as a link to it. -/
theorem inline_linkReference_of_some (hk : Token.kind token = .ok (.str "link_reference"))
    (hid : identifierOf token = .ok identifier) (hc : token.children = .ok children)
    (hd : env.definitions.find (Text.lower identifier) = some d) :
    inline env active token = inline env active (linkTo d.url children) := by
  rw [inline_of_form hk rfl, inline_linkTo, inlineOf, Rendering.lift_bind_of_ok hid, hd,
    inlinesBelow_of_children hc]

theorem issues_linkReference_of_none (hk : Token.kind token = .ok (.str "link_reference"))
    (hid : identifierOf token = .ok identifier) (hc : token.children = .ok children)
    (hd : env.definitions.find (Text.lower identifier) = none) :
    (inline env active token).issues =
      unresolved "Link" identifier :: (inlines env active children).issues := by
  rw [inline_of_form hk rfl, inlineOf, Rendering.lift_bind_of_ok hid, hd,
    Rendering.issues_report_bind, inlinesBelow_of_children hc]
  congr 1
  refine Rendering.issues_bind_of_quiet fun text _ => ?_
  split
  · rfl
  · exact Rendering.issues_bind_of_quiet fun _ _ => rfl

/-- An image reference with a target is rendered as the image. -/
theorem inline_imageReference_of_some (hk : Token.kind token = .ok (.str "image_reference"))
    (hid : identifierOf token = .ok identifier)
    (hd : env.definitions.find (Text.lower identifier) = some d) :
    inline env active token = inline env active (imageAt d.url) := by
  rw [inline_of_form hk rfl, inline_imageAt, inlineOf, imageReferenceMarkup,
    Rendering.lift_bind_of_ok hid, hd]

theorem issues_imageReference_of_none (hk : Token.kind token = .ok (.str "image_reference"))
    (hid : identifierOf token = .ok identifier)
    (hd : env.definitions.find (Text.lower identifier) = none) :
    (inline env active token).issues = [unresolved "Image" identifier] := by
  rw [inline_of_form hk rfl, inlineOf, imageReferenceMarkup, Rendering.lift_bind_of_ok hid, hd,
    Rendering.issues_report_bind]
  congr 1
  rw [Rendering.issues_bind_of_quiet fun _ _ => Rendering.issues_bind_of_quiet fun _ _ => rfl]
  rfl

/-- Text is rendered without a word, and so is the label under a reference. -/
theorem issues_text (s : String) : (inline env active (text s)).issues = [] := by
  have hkind : Token.kind (text s) = .ok (.str "text") := rfl
  rw [inline_of_form hkind rfl]
  rfl

theorem issues_shownLabel (label : String) :
    (inlines env active (if label = "" then [] else [text label])).issues = [] := by
  split
  · rw [inlines]
    rfl
  · rw [inlines, Rendering.issues_bind_of_quiet fun _ _ => ?_, issues_text]
    rw [inlines]
    rfl

/-- What a reference to a link comes to: a link to its target, or the report that it has none. -/
def LinkResolves (env : Environment) (active : List String) (token : Value) (identifier : String)
    (children : List Value) : Option Entry → Prop
  | some e =>
    inline env active token = inline env active (linkTo e.url children) ∧
      (inline env active token).issues = (inlines env active children).issues ∧
      ∀ url label, e.url = .str url → (inlines env active children).outcome = .ok label →
        (inline env active token).outcome = .ok (linkText url label)
  | none =>
    (inline env active token).issues =
      unresolved "Link" identifier :: (inlines env active children).issues

/-- What a reference to an image comes to. -/
def ImageResolves (env : Environment) (active : List String) (token : Value)
    (identifier : String) : Option Entry → Prop
  | some e =>
    inline env active token = inline env active (imageAt e.url) ∧
      (inline env active token).issues = [] ∧
      ∀ url, e.url = .str url → (inline env active token).outcome = .ok (imageText url)
  | none => (inline env active token).issues = [unresolved "Image" identifier]

theorem linkResolves_of_holds {es : List Entry} (h : Holds es env.definitions)
    (hk : Token.kind token = .ok (.str "link_reference"))
    (hid : identifierOf token = .ok identifier) (hc : token.children = .ok children) :
    LinkResolves env active token identifier children (lastOf (Text.lower identifier) es) := by
  have hfind := h (Text.lower identifier)
  cases hlast : lastOf (Text.lower identifier) es with
  | none =>
    rw [hlast] at hfind
    exact issues_linkReference_of_none hk hid hc hfind
  | some e =>
    rw [hlast] at hfind
    have hlink : inline env active token = inline env active (linkTo e.url children) :=
      inline_linkReference_of_some hk hid hc hfind
    rw [LinkResolves, hlink]
    refine ⟨rfl, issues_linkTo e.url children, fun url label hurl hlabel => ?_⟩
    rw [hurl]
    exact outcome_linkTo hlabel

theorem imageResolves_of_holds {es : List Entry} (h : Holds es env.definitions)
    (hk : Token.kind token = .ok (.str "image_reference"))
    (hid : identifierOf token = .ok identifier) :
    ImageResolves env active token identifier (lastOf (Text.lower identifier) es) := by
  have hfind := h (Text.lower identifier)
  cases hlast : lastOf (Text.lower identifier) es with
  | none =>
    rw [hlast] at hfind
    exact issues_imageReference_of_none hk hid hfind
  | some e =>
    rw [hlast] at hfind
    have himage : inline env active token = inline env active (imageAt e.url) :=
      inline_imageReference_of_some hk hid hfind
    rw [ImageResolves, himage]
    refine ⟨rfl, issues_imageAt e.url, fun url hurl => ?_⟩
    rw [hurl]
    exact outcome_imageAt url

/-- The search for definitions and the references agree on what is defined, and on a malformed token
the search keeps what it has. -/
theorem references_agree_with_definitions (tokens : Value) :
    (∀ key, (definitions tokens).answer.find key =
        (lastOf key (entriesIn tokens).1).map Entry.definition) ∧
      (definitions tokens).issues =
        warnings (entriesIn tokens).1 ++ ((entriesIn tokens).2.map brokenOff).toList ∧
      (warnings (entriesIn tokens).1).length +
          ((entriesIn tokens).1.map Entry.key).toFinset.card = (entriesIn tokens).1.length ∧
      (∀ items, tokens = .list items → (∀ t ∈ items, ∃ e, entryOf t = .ok e) →
        (definitions tokens).issues = warnings (entriesIn tokens).1) ∧
      (∀ before bad after f, tokens = .list (before ++ bad :: after) →
        (∀ t ∈ before, ∃ e, entryOf t = .ok e) → entryOf bad = .error f →
        (∀ key, (definitions tokens).answer.find key =
          (definitions (.list before)).answer.find key) ∧
        (definitions tokens).issues = (definitions (.list before)).issues ++ [brokenOff f]) ∧
      ∀ env active token identifier children,
        env.definitions = (definitions tokens).answer → identifierOf token = .ok identifier →
        token.children = .ok children →
        (Token.kind token = .ok (.str "link_reference") →
          LinkResolves env active token identifier children
            (lastOf (Text.lower identifier) (entriesIn tokens).1)) ∧
        (Token.kind token = .ok (.str "image_reference") →
          ImageResolves env active token identifier
            (lastOf (Text.lower identifier) (entriesIn tokens).1)) := by
  obtain ⟨hholds, hissues⟩ := definitions_of_entries tokens
  refine ⟨hholds, hissues, length_warnings _, ?_, ?_, ?_⟩
  · rintro items rfl hwell
    have hnone : (entriesIn (.list items)).2 = none := entriesOf_wellFormed hwell
    rw [hissues, hnone]
    exact List.append_nil _
  · rintro before bad after f rfl hwell hbad
    obtain ⟨hbefore, hearlier⟩ := definitions_of_entries (.list before)
    have hsplit : entriesIn (.list (before ++ bad :: after)) =
        ((entriesIn (.list before)).1, some f) := entriesOf_append_malformed hwell hbad
    have hnone : (entriesIn (.list before)).2 = none := entriesOf_wellFormed hwell
    rw [hsplit] at hholds hissues
    refine ⟨fun key => (hholds key).trans (hbefore key).symm, ?_⟩
    rw [hissues, hearlier, hnone]
    exact congrArg (· ++ [brokenOff f]) (List.append_nil _).symm
  · intro env active token identifier children henv hid hc
    rw [← henv] at hholds
    exact ⟨fun hk => linkResolves_of_holds hholds hk hid hc,
      fun hk => imageResolves_of_holds hholds hk hid⟩

/-- Two definitions of one key, and one below another token. -/
def wellFormedPart : List Value :=
  [marked "definition" [("identifier", .str "Key"), ("url", .str "first")],
    branch "block_quote" [marked "definition" [("identifier", .str "key"), ("url", .str "nested")]],
    marked "definition" [("identifier", .str "kEy"), ("url", .str "second")]]

/-- A third definition of the key stands behind one without attributes. -/
def brokenDocument : Value :=
  .list (wellFormedPart ++ leaf "definition" "" ::
    [marked "definition" [("identifier", .str "key"), ("url", .str "third")]])

/-- Rendering with what the broken document defines. -/
def brokenEnvironment : Environment :=
  { definitions := (definitions brokenDocument).answer
    convertMath := fun _ => .error .latexSyntax }

theorem references_agree_with_definitions_broken :
    (∀ t ∈ wellFormedPart, ∃ e, entryOf t = .ok e) ∧
      entryOf (leaf "definition" "") = .error .missingKey ∧
      (definitions brokenDocument).issues =
        [duplicateDefinition "kEy" (.str "first") (.str "second"), brokenOff .missingKey] ∧
      (inline brokenEnvironment []
        (markedBranch "link_reference" [("identifier", .str "KEY")] [])).outcome =
          .ok (linkText "second" "") ∧
      (inline brokenEnvironment []
        (markedBranch "image_reference" [("identifier", .str "other")] [])).issues =
          [unresolved "Image" "other"] := by
  obtain ⟨-, -, -, -, hmalformed, hreferences⟩ := references_agree_with_definitions brokenDocument
  have hwell : ∀ t ∈ wellFormedPart, ∃ e, entryOf t = .ok e := by
    simp only [wellFormedPart, List.forall_mem_cons]
    exact ⟨⟨_, rfl⟩, ⟨_, rfl⟩, ⟨_, rfl⟩, List.forall_mem_nil _⟩
  have hissues := (hmalformed wellFormedPart _ _ .missingKey rfl hwell rfl).2
  have hlink := (hreferences brokenEnvironment []
    (markedBranch "link_reference" [("identifier", .str "KEY")] []) "KEY" [] rfl rfl rfl).1 rfl
  have himage := (hreferences brokenEnvironment []
    (markedBranch "image_reference" [("identifier", .str "other")] []) "other" [] rfl rfl rfl).2 rfl
  have hKEY : lastOf (Text.lower "KEY") (entriesIn brokenDocument).1 =
      some ⟨"kEy", .str "second", .null, .null⟩ := by
    rfl
  have hother : lastOf (Text.lower "other") (entriesIn brokenDocument).1 = none := by
    rfl
  rw [hKEY] at hlink
  rw [hother] at himage
  refine ⟨hwell, rfl, hissues, hlink.2.2 "second" "" rfl ?_, himage⟩
  rw [inlines]
  rfl

end Typeset.Render
