import Typeset.Render.Block

/-! Tokens by their kind. -/

namespace Typeset.Render

/-! Inlines by their kind, apart from the lookup of the kind. -/

section Inline

variable {env : Environment} {active : List String} {token : Value}

/-- An inline of a known kind. -/
def inlineOf (env : Environment) (active : List String) (form : InlineKind) (token : Value) :
    Rendering String := do
  match form with
  | .text => textMarkup token
  | .wrapped opening closing => do
    let text ← inlinesBelow env active token
    pure (opening ++ text ++ closing)
  | .code => codeMarkup token
  | .link => do
    let url ← token.attr "url" (.str "")
    let label ← inlinesBelow env active token
    linkMarkup url label
  | .linkReference => do
    let identifier ← identifierOf token
    match env.definitions.find (Text.lower identifier) with
    | some d => do
      let label ← inlinesBelow env active token
      linkMarkup d.url label
    | none => do
      Rendering.report (unresolved "Link" identifier)
      let text ← inlinesBelow env active token
      if text ≠ "" then pure text
      else Markup.escapeValue ((← token.attr "label" .null).orElse (.str identifier))
  | .image => do imageMarkup (← token.attr "url" (.str ""))
  | .imageReference => imageReferenceMarkup env token
  | .footnoteReference => footnoteReference env active token
  | .formula => do
    let span ← token.attr "span" .null
    inlineFormula env (← token.field "raw" (.str "")) span
  | .lineBreak => pure "\\\n"
  | .softBreak => pure " "

theorem inline_eq (env : Environment) (active : List String) (token : Value) :
    Render.inline env active token = (do
      let kind ← Token.kind token
      match (← Token.kindKey kind).bind inlineKind? with
      | none => unknownInline env kind
      | some form => inlineOf env active form token) := by
  rw [Render.inline]
  congr 1
  funext kind
  congr 1
  funext key
  rcases key.bind inlineKind? with _ | form
  · rfl
  · cases form <;> rfl

theorem inline_of_form {name : String} {form : InlineKind}
    (hk : Token.kind token = .ok (.str name)) (hform : inlineKind? name = some form) :
    Render.inline env active token = inlineOf env active form token := by
  rw [inline_eq, Rendering.lift_bind_of_ok hk, Rendering.lift_bind_of_ok (Token.kindKey_str name),
    Option.bind_some, hform]

theorem inline_of_unknown {name : String} (hk : Token.kind token = .ok (.str name))
    (hform : inlineKind? name = none) :
    Render.inline env active token = unknownInline env (.str name) := by
  rw [inline_eq, Rendering.lift_bind_of_ok hk, Rendering.lift_bind_of_ok (Token.kindKey_str name),
    Option.bind_some, hform]

/-- The kinds that a single type stands for. -/
theorem eq_of_inlineKind? {name : String} {form : InlineKind} (h : inlineKind? name = some form) :
    (form = .code → name = "codespan") ∧ (form = .footnoteReference → name = "footnote_ref") ∧
      (form = .formula → name = "inline_math") := by
  unfold inlineKind? at h
  split at h <;> cases h <;> simp

/-- The types of the tokens that refer to something. -/
def referenceKinds : List String := ["link_reference", "image_reference", "footnote_ref"]

/-- A token that refers to something. -/
def IsReferenceToken (token : Value) : Prop :=
  ∃ name ∈ referenceKinds, Token.kind token = .ok (.str name)

theorem mem_referenceKinds {name : String} {form : InlineKind} (h : inlineKind? name = some form)
    (hform : form = .linkReference ∨ form = .imageReference ∨ form = .footnoteReference) :
    name ∈ referenceKinds := by
  unfold inlineKind? at h
  split at h <;> cases h <;> simp [referenceKinds] at hform ⊢

theorem inlinesBelow_of_children {children : List Value} (h : token.children = .ok children) :
    inlinesBelow env active token = inlines env active children := by
  rw [inlinesBelow]
  split <;> simp_all

end Inline

/-! Blocks by their kind, apart from the lookup of the kind and from what is done when they fail. -/

section Block

variable {env : Environment} {active : List String} {token first : Value} {indent : Int}
  {name marker : String} {form : BlockKind} {children more : List Value}

/-- What takes the place of a block that fails: nothing but the report. -/
def blockFailed (name : String) (cause : Failure) : Rendering (Option String) := do
  Rendering.report (brokenBlock (.str name) cause)
  pure none

/-- A block of some kind. -/
def OfForm (form : BlockKind) (token : Value) : Prop :=
  ∃ name, Token.kind token = .ok (.str name) ∧ blockKind? name = some form

/-- The kinds that are asked for by the type that stands for them. -/
theorem eq_of_blockKind? (h : blockKind? name = some form) :
    (form = .code → name = "block_code") ∧ (form = .formula → name = "block_math") ∧
      (form = .list → name = "list") := by
  unfold blockKind? at h
  split at h <;> cases h <;> simp

theorem not_isSilent_of_form (h : blockKind? name = some form) : isSilent name = false := by
  unfold blockKind? at h
  split at h <;> cases h <;> rfl

theorem block_of_form (hk : Token.kind token = .ok (.str name))
    (hform : blockKind? name = some form) :
    block env active token indent =
      (blockOf env active form token indent).rescue (blockFailed name) := by
  have hsilent : ((some name).map isSilent).getD false = false := not_isSilent_of_form hform
  rw [block, Rendering.lift_bind_of_ok hk, Rendering.lift_bind_of_ok (Token.kindKey_str name),
    hsilent, Option.bind_some, hform]
  rfl

theorem block_eq_some_iff {text : String} (hk : Token.kind token = .ok (.str name))
    (hform : blockKind? name = some form) :
    (block env active token indent).outcome = .ok (some text) ↔
      (blockOf env active form token indent).outcome = .ok (some text) := by
  rw [block_of_form hk hform, Rendering.rescue]
  cases ho : (blockOf env active form token indent).outcome with
  | ok shown => simp [ho]
  | error f =>
    have hnone : ((blockOf env active form token indent).after (blockFailed name f)).outcome =
        .ok none := rfl
    simp [hnone]

theorem block_of_silent (hk : Token.kind token = .ok (.str name)) (hsilent : isSilent name) :
    block env active token indent = pure none := by
  have hmap : ((some name).map isSilent).getD false = true := hsilent
  rw [block, Rendering.lift_bind_of_ok hk, Rendering.lift_bind_of_ok (Token.kindKey_str name),
    hmap, if_pos rfl]

theorem blockOf_heading {level : Nat} {text : String}
    (hlevel : token.attr "level" (.int 1) >>= headingLevel = .ok (some level))
    (htext : (inlinesBelow env active token).outcome = .ok text) :
    (blockOf env active .heading token indent).outcome =
      .ok (some (Markup.indent (headingMark level ++ " " ++ text) indent)) := by
  obtain ⟨value, hvalue, hlevel⟩ := Failure.exists_of_bind hlevel
  rw [blockOf, Rendering.lift_bind_of_ok hvalue, Rendering.lift_bind_of_ok hlevel,
    Rendering.bind_of_ok htext]
  rfl

theorem blockOf_paragraph :
    blockOf env active .paragraph token indent =
      paragraph env active token >>= fun text => pure (some (Markup.indent text indent)) := by
  rw [blockOf]

theorem blockOf_list (hm : listMarker token = .ok marker) (hc : token.children = .ok children) :
    blockOf env active .list token indent =
      items env active marker children indent >>= fun parts => pure (some (lines parts)) := by
  rw [blockOf, Rendering.lift_bind_of_ok hm]
  split <;> simp_all

theorem blockOf_listItem :
    blockOf env active .listItem token indent =
      item env active "-" token indent >>= fun text => pure (some text) := by
  rw [blockOf]

theorem blockOf_quote (hc : token.children = .ok children) :
    blockOf env active .quote token indent =
      blocks env active children 0 >>= fun parts =>
        pure (some (quoteBlock (String.intercalate "\n\n" parts) indent)) := by
  rw [blockOf]
  split <;> simp_all

/-- A paragraph, as an item looks at its first token. -/
def IsLead (token : Value) : Prop := token.field "type" .null = .ok (.str "paragraph")

/-- Tokens that do not begin with a paragraph. -/
def Leadless (tokens : List Value) : Prop :=
  ∀ first ∈ tokens.head?, ∃ kind, first.field "type" .null = .ok kind ∧
    kind.isText "paragraph" = false

theorem leadless_nil : Leadless [] := by
  rintro _ ⟨⟩

theorem IsLead.kind (h : IsLead token) : Token.kind token = .ok (.str "paragraph") := by
  unfold IsLead Value.field Value.field? at h
  unfold Token.kind Value.field Value.field?
  split at h
  next fields =>
    cases hl : fields.lookup "type" with
    | none => simp [Except.map, hl] at h
    | some kind => simpa [Except.map, hl] using h
  next => cases h

theorem item_of_lead (h : itemParts token = .ok (first :: more)) (hlead : IsLead first) :
    item env active marker token indent =
      paragraph env active first >>= fun text =>
        blocks env active more (indent + 1) >>= fun parts =>
          pure (lines (itemLead marker text indent ++ parts)) := by
  rw [item]
  split
  · simp_all
  · simp_all
  next first' more' h' =>
    obtain ⟨rfl, rfl⟩ : first' = first ∧ more' = more := by simpa [h] using h'.symm
    rw [Rendering.lift_bind_of_ok hlead]
    rfl

theorem item_of_leadless {tokens : List Value} (h : itemParts token = .ok tokens)
    (hlead : Leadless tokens) :
    item env active marker token indent =
      blocks env active tokens (indent + 1) >>= fun parts =>
        pure (lines (Markup.indent marker indent :: parts)) := by
  rw [item]
  split
  · simp_all
  next h' =>
    obtain rfl : tokens = [] := by simpa [h] using h'
    rw [blocks]
    simp [lines]
  next first more h' =>
    obtain rfl : tokens = first :: more := by simpa [h] using h'
    obtain ⟨kind, hkind, htext⟩ := hlead first rfl
    rw [Rendering.lift_bind_of_ok hkind, if_neg (by simp [htext])]

theorem table_of_rows {header : Value} {body : List Value}
    (h : rowsOf token = .ok (header :: body)) :
    table env active token indent = (do
      let columns ← (← header.field "children" (.list [])).count
      if columns = 0 then
        Rendering.report (emptyTable "Table has no columns")
        pure none
      else
        let align ← alignments token columns
        let head ← row env active header
        let body ← rows env active body
        pure (some (Markup.indent (tableMarkup align head body) indent))) := by
  rw [table]
  split <;> simp_all

theorem table_of_no_rows (h : rowsOf token = .ok []) :
    table env active token indent = (do
      Rendering.report (emptyTable "Empty table found (no rows)")
      pure none) := by
  rw [table]
  split <;> simp_all

theorem blocks_cons_of_shown {rest : List Value} {text : String} {parts : List String}
    (h : (block env active token indent).outcome = .ok (some text)) (hne : text ≠ "")
    (hrest : (blocks env active rest indent).outcome = .ok parts) :
    (blocks env active (token :: rest) indent).outcome = .ok (text :: parts) := by
  rw [blocks, Rendering.bind_of_ok h, Rendering.bind_of_ok hrest]
  dsimp only
  rw [if_neg hne]
  rfl

theorem blocks_cons_of_none {rest : List Value} {parts : List String}
    (h : (block env active token indent).outcome = .ok none)
    (hrest : (blocks env active rest indent).outcome = .ok parts) :
    (blocks env active (token :: rest) indent).outcome = .ok parts := by
  rw [blocks, Rendering.bind_of_ok h, Rendering.bind_of_ok hrest]
  rfl

theorem blocks_nil : (blocks env active [] indent).outcome = .ok [] := by
  rw [blocks]
  rfl

theorem items_nil : (items env active marker [] indent).outcome = .ok [] := by
  rw [items]
  rfl

theorem items_cons {rest : List Value} {text : String} {parts : List String}
    (h : (item env active marker token indent).outcome = .ok text)
    (hrest : (items env active marker rest indent).outcome = .ok parts) :
    (items env active marker (token :: rest) indent).outcome = .ok (text :: parts) := by
  rw [items, Rendering.bind_of_ok h, Rendering.bind_of_ok hrest]
  rfl

theorem block_of_items {parts : List String} (hk : Token.kind token = .ok (.str "list"))
    (hm : listMarker token = .ok marker) (hc : token.children = .ok children)
    (h : (items env active marker children indent).outcome = .ok parts) :
    (block env active token indent).outcome = .ok (some (lines parts)) := by
  rw [block_eq_some_iff hk rfl, blockOf_list hm hc, Rendering.bind_of_ok h]
  rfl

end Block

end Typeset.Render
