import Typeset.Render.Layout
import Typeset.Render.Leaf
import Typeset.Token.PlainText

/-! Rendering of blocks and inlines. A block that cannot be rendered is left out and reported, and
the blocks around it do not notice. A footnote is expanded where it is referred to; inside its own
expansion it is left out, so that the footnotes still to be expanded become fewer with each one. -/

namespace Typeset.Render

/-- The report of a footnote that could not be rendered. -/
def brokenFootnote (identifier : String) (cause : Failure) : Issue where
  severity := .error
  code := .inlineRenderError
  message := "Error rendering footnote [^" ++ identifier ++ "]: " ++ cause.text
  stage := .inlineRendering
  details := [("identifier", .str identifier)]
  cause := some cause

/-- The tokens below a token, taken by position, where what counts as absent has none. -/
def rowsOf (token : Value) : Except Failure (List Value) :=
  token.childrenAs Value.membersIfAny

/-- The tokens below a token, taken by position. -/
def itemParts (token : Value) : Except Failure (List Value) := token.childrenAs Value.members

theorem sizeOf_rowsOf_lt {token : Value} {rows : List Value} (h : rowsOf token = .ok rows) :
    sizeOf rows < sizeOf token := Value.sizeOf_childrenAs_lt Value.sizeOf_membersIfAny_le h

theorem sizeOf_itemParts_lt {token : Value} {parts : List Value}
    (h : itemParts token = .ok parts) : sizeOf parts < sizeOf token :=
  Value.sizeOf_childrenAs_lt Value.sizeOf_members_le h

/-- Whether a paragraph is nothing but the marker of an outline. -/
def isOutlineMarker (env : Environment) (token : Value) : Except Failure Bool := do
  let children ← token.field "children" (.list [])
  let plain ← Token.plainText env.definitions children
  return Text.lower (Text.strip plain) == "[toc]"

mutual

/-- Inlines, one after the other. -/
def inlines (env : Environment) (active : List String) : List Value → Rendering String
  | [] => pure ""
  | token :: rest => do
    let here ← inline env active token
    let more ← inlines env active rest
    pure (here ++ more)
termination_by tokens => (env.remaining active, 4 * sizeOf tokens)

/-- The inlines below a token. -/
def inlinesBelow (env : Environment) (active : List String) (token : Value) : Rendering String :=
  match _h : token.children with
  | .error f => Rendering.fail f
  | .ok children => inlines env active children
termination_by (env.remaining active, 4 * sizeOf token)
decreasing_by
  all_goals
    apply Prod.Lex.right
    have := Value.sizeOf_children_lt _h
    omega

/-- One inline token; one of an unknown kind shows nothing. -/
def inline (env : Environment) (active : List String) (token : Value) : Rendering String := do
  let kind ← Token.kind token
  match (← Token.kindKey kind).bind inlineKind? with
  | none => unknownInline env kind
  | some .text => textMarkup token
  | some (.wrapped opening closing) => do
    let text ← inlinesBelow env active token
    pure (opening ++ text ++ closing)
  | some .code => codeMarkup token
  | some .link => do
    let url ← token.attr "url" (.str "")
    let label ← inlinesBelow env active token
    linkMarkup url label
  | some .linkReference => do
    let identifier ← identifierOf token
    match env.definitions.find (Text.lower identifier) with
    | some d => do
      let label ← inlinesBelow env active token
      linkMarkup d.url label
    | none => do
      Rendering.report (unresolved "Link" identifier)
      let text ← inlinesBelow env active token
      if text ≠ "" then pure text
      else Markup.escapeValue ((← token.attr "label" .null).orElse (.str identifier))
  | some .image => do imageMarkup (← token.attr "url" (.str ""))
  | some .imageReference => imageReferenceMarkup env token
  | some .footnoteReference => footnoteReference env active token
  | some .formula => do
    let span ← token.attr "span" .null
    inlineFormula env (← token.field "raw" (.str "")) span
  | some .lineBreak => pure "\\\n"
  | some .softBreak => pure " "
termination_by (env.remaining active, 4 * sizeOf token + 1)

/-- A footnote in the place of a reference to it. -/
def footnoteReference (env : Environment) (active : List String) (token : Value) :
    Rendering String := do
  let identifier ← identifierOf token
  let key := Text.lower identifier
  match _hf : env.footnotes.find key with
  | none => do
    Rendering.report (inlineWarning .unresolvedFootnote
      ("Footnote reference [^" ++ identifier ++ "] has no matching definition")
      "identifier" (.str identifier))
    pure ""
  | some note =>
    if _ha : key ∈ active then do
      Rendering.report (inlineWarning .footnoteCycle
        ("Footnote [^" ++ identifier ++ "] references itself") "identifier" (.str identifier))
      pure ""
    else
      Rendering.rescue
        (do
          if env.rendersFootnotes then pure () else Rendering.fail .noBlockRenderer
          let body ← note.body.tokens
          let parts ← blocks env (key :: active) body 0
          pure ("#footnote[" ++ Text.strip (String.intercalate " " parts) ++ "]"))
        (fun cause => do
          Rendering.report (brokenFootnote identifier cause)
          pure "")
termination_by (env.remaining active, 4 * sizeOf token)
decreasing_by exact Prod.Lex.left _ _ (Environment.remaining_lt _hf _ha)

/-- Blocks, those that show something. -/
def blocks (env : Environment) (active : List String) (tokens : List Value) (indent : Int) :
    Rendering (List String) :=
  match tokens with
  | [] => pure []
  | token :: rest => do
    let here ← block env active token indent
    let more ← blocks env active rest indent
    match here with
    | some text => pure (if text = "" then more else text :: more)
    | none => pure more
termination_by (env.remaining active, 4 * sizeOf tokens)

/-- One block at a level of indentation; none if it shows nothing. A type that cannot be looked up
stops what is around it, any other failure only the block itself. -/
def block (env : Environment) (active : List String) (token : Value) (indent : Int) :
    Rendering (Option String) := do
  let kind ← Token.kind token
  let key ← Token.kindKey kind
  if (key.map isSilent).getD false then pure none
  else match key.bind blockKind? with
  | none => do
    Rendering.report (unknownBlock kind)
    pure none
  | some form =>
    Rendering.rescue (blockOf env active form token indent)
      (fun cause => do
        Rendering.report (brokenBlock kind cause)
        pure none)
termination_by (env.remaining active, 4 * sizeOf token + 3)

/-- A block of a known kind. -/
def blockOf (env : Environment) (active : List String) (form : BlockKind) (token : Value)
    (indent : Int) : Rendering (Option String) := do
  match form with
  | .heading => do
    let level ← headingLevel (← token.attr "level" (.int 1))
    let text ← inlinesBelow env active token
    match level with
    | some level => pure (some (Markup.indent (headingMark level ++ " " ++ text) indent))
    | none => Rendering.fail .mismatch
  | .paragraph => do
    let text ← paragraph env active token
    pure (some (Markup.indent text indent))
  | .list => do
    let marker ← listMarker token
    match _h : token.children with
    | .error f => Rendering.fail f
    | .ok children => do
      let parts ← items env active marker children indent
      pure (some (lines parts))
  | .listItem => do
    let text ← item env active "-" token indent
    pure (some text)
  | .code => do pure (some (← codeBlock token indent))
  | .quote =>
    match _h : token.children with
    | .error f => Rendering.fail f
    | .ok children => do
      let parts ← blocks env active children 0
      pure (some (quoteBlock (String.intercalate "\n\n" parts) indent))
  | .rule => pure (some (Markup.indent rule indent))
  | .table => table env active token indent
  | .formula => do
    let text ← blockFormula env (← token.field "raw" (.str ""))
    pure (some (Markup.indent text indent))
  | .html => htmlBlock token indent
termination_by (env.remaining active, 4 * sizeOf token + 2)
decreasing_by
  all_goals
    apply Prod.Lex.right
    first
      | omega
      | exact Nat.lt_add_right 2
          (Nat.mul_lt_mul_of_pos_left (Value.sizeOf_children_lt _h) (by simp))

/-- The text of a paragraph. -/
def paragraph (env : Environment) (active : List String) (token : Value) : Rendering String := do
  if ← isOutlineMarker env token then pure outline else inlinesBelow env active token
termination_by (env.remaining active, 4 * sizeOf token + 1)

/-- The items of a list. -/
def items (env : Environment) (active : List String) (marker : String) (tokens : List Value)
    (indent : Int) : Rendering (List String) :=
  match tokens with
  | [] => pure []
  | token :: rest => do
    let here ← item env active marker token indent
    let more ← items env active marker rest indent
    pure (here :: more)
termination_by (env.remaining active, 4 * sizeOf tokens)

/-- One item of a list: a paragraph at its head follows the marker, all else is one level deeper. -/
def item (env : Environment) (active : List String) (marker : String) (token : Value)
    (indent : Int) : Rendering String :=
  match _h : itemParts token with
  | .error f => Rendering.fail f
  | .ok [] => pure (Markup.indent marker indent)
  | .ok (first :: more) => do
    let kind ← first.field "type" .null
    if kind.isText "paragraph" then
      let text ← paragraph env active first
      let parts ← blocks env active more (indent + 1)
      pure (lines (itemLead marker text indent ++ parts))
    else
      let parts ← blocks env active (first :: more) (indent + 1)
      pure (lines (Markup.indent marker indent :: parts))
termination_by (env.remaining active, 4 * sizeOf token)
decreasing_by
  all_goals
    apply Prod.Lex.right
    have := sizeOf_itemParts_lt _h
    simp at this ⊢
    omega

/-- The cells of a row. -/
def cells (env : Environment) (active : List String) : List Value → Rendering (List String)
  | [] => pure []
  | token :: rest => do
    let here ← inlinesBelow env active token
    let more ← cells env active rest
    pure (here :: more)
termination_by tokens => (env.remaining active, 4 * sizeOf tokens)

/-- The rows of a table, each with its cells. -/
def rows (env : Environment) (active : List String) : List Value → Rendering (List (List String))
  | [] => pure []
  | token :: rest => do
    let here ← row env active token
    let more ← rows env active rest
    pure (here :: more)
termination_by tokens => (env.remaining active, 4 * sizeOf tokens)

/-- The cells below a row. -/
def row (env : Environment) (active : List String) (token : Value) : Rendering (List String) :=
  match _h : token.children with
  | .error f => Rendering.fail f
  | .ok children => cells env active children
termination_by (env.remaining active, 4 * sizeOf token)
decreasing_by
  all_goals
    apply Prod.Lex.right
    have := Value.sizeOf_children_lt _h
    omega

/-- A table. Its first row is the header and says how many columns there are; a table without rows
or columns shows nothing. -/
def table (env : Environment) (active : List String) (token : Value) (indent : Int) :
    Rendering (Option String) :=
  match _h : rowsOf token with
  | .error f => Rendering.fail f
  | .ok [] => do
    Rendering.report (emptyTable "Empty table found (no rows)")
    pure none
  | .ok (header :: body) => do
    let columns ← (← header.field "children" (.list [])).count
    if columns = 0 then
      Rendering.report (emptyTable "Table has no columns")
      pure none
    else
      let align ← alignments token columns
      let head ← row env active header
      let body ← rows env active body
      pure (some (Markup.indent (tableMarkup align head body) indent))
termination_by (env.remaining active, 4 * sizeOf token)
decreasing_by
  all_goals
    apply Prod.Lex.right
    have := sizeOf_rowsOf_lt _h
    simp at this
    omega

end

end Typeset.Render
