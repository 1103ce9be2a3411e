import Typeset.Markup.Loose
import Typeset.Render.Environment
import Typeset.Text.Blank
import Typeset.Text.Case
import Typeset.Text.Hex
import Typeset.Value.Basic

/-! Inline tokens that hold no other tokens. -/

namespace Typeset.Render

section Leaf

/-- The kinds of inline tokens. -/
inductive InlineKind
  | text
  /-- Inlines between a beginning and an end. -/
  | wrapped (opening closing : String)
  | code
  | link
  | linkReference
  | image
  | imageReference
  | footnoteReference
  | formula
  | lineBreak
  | softBreak
  deriving DecidableEq, Repr

/-- The kind of inline token that a type names. -/
def inlineKind? : String → Option InlineKind
  | "text" => some .text
  | "html_inline" => some .text
  | "strong" => some (.wrapped "*" "*")
  | "emphasis" => some (.wrapped "_" "_")
  | "strikethrough" => some (.wrapped "#strike[" "]")
  | "mark" => some (.wrapped "#highlight[" "]")
  | "superscript" => some (.wrapped "#super[" "]")
  | "subscript" => some (.wrapped "#sub[" "]")
  | "codespan" => some .code
  | "link" => some .link
  | "link_reference" => some .linkReference
  | "image" => some .image
  | "image_reference" => some .imageReference
  | "footnote_ref" => some .footnoteReference
  | "inline_math" => some .formula
  | "linebreak" => some .lineBreak
  | "softbreak" => some .softBreak
  | _ => none

/-- Text of a token, taken literally. -/
def textMarkup (token : Value) : Except Failure String := do
  Markup.escapeValue (← token.field "raw" (.str ""))

/-- Whether a value holds a backtick among its parts, or as text anywhere. -/
def holdsBacktick (code : Value) : Except Failure Bool :=
  match code with
  | .str s => .ok (s.toList.contains '`')
  | .list items => .ok (items.any fun v => v.isText "`")
  | .object fields => .ok (fields.any fun f => f.1 == "`")
  | _ => .error .mismatch

/-- Code in running text. Between backticks nothing can be escaped, so code with backticks, and no
code at all, is written as an argument instead. -/
def codeMarkup (token : Value) : Except Failure String := do
  let code ← token.field "raw" (.str "")
  let asArgument ← if code.truthy then holdsBacktick code else .ok true
  if asArgument then return "#raw(\"" ++ (← Markup.escapeStringValue code) ++ "\")"
  else return "`" ++ code.shown ++ "`"

/-- A link around a label. A blank label gives way to the address itself. -/
def linkMarkup (url : Value) (label : String) : Except Failure String := do
  let label ← if Text.isBlankText label then Markup.escapeValue url else .ok label
  return "#link(\"" ++ (← Markup.escapeStringValue url) ++ "\")[" ++ label ++ "]"

/-- A letter of a scheme in lower case, the long s among the forms of s. -/
def schemeLetter (c : Char) : Char := if c == 'ſ' then 's' else c.toLower

/-- Whether an address is on the web, in whatever case its scheme is written. -/
def isRemote (url : String) : Bool :=
  let head := (url.toList.take 8).map schemeLetter
  Text.startsWith "http://".toList head || Text.startsWith "https://".toList head

/-- An image. Typst shows no image from the web, so a remote one is left to a helper. -/
def imageMarkup (url : Value) : Rendering String := do
  let address ← url.needText
  let literal := "\"" ++ Markup.escapeString address ++ "\""
  if isRemote address then
    Rendering.noteRemoteImage
    pure ("#external-image(\n  " ++ literal ++ "\n)")
  else pure ("#image(" ++ literal ++ ")")

/-- The report of a reference that has no target. -/
def unresolved (what : String) (identifier : String) : Issue :=
  inlineWarning .unresolvedLinkReference
    (what ++ " reference [" ++ identifier ++ "] has no matching definition")
    "identifier" (.str identifier)

/-- The identifier of a reference. -/
def identifierOf (token : Value) : Except Failure String := do
  (← token.attr "identifier" (.str "")).asText

/-- An image by reference. Without a target its description is shown, or what names it. -/
def imageReferenceMarkup (env : Environment) (token : Value) : Rendering String := do
  let identifier ← identifierOf token
  match env.definitions.find (Text.lower identifier) with
  | some d => imageMarkup d.url
  | none => do
    Rendering.report (unresolved "Image" identifier)
    let alt ← token.attr "alt" .null
    let label ← token.attr "label" .null
    Markup.escapeValue (alt.orElse (label.orElse (.str identifier)))

/-- What stands for an inline token of an unknown kind: nothing. -/
def unknownInline (env : Environment) (kind : Value) : Rendering String := do
  if env.warnUnknownInline then
    Rendering.report (inlineWarning .unknownInline
      ("Unknown inline node type: " ++ kind.shown) "node_type" kind)
  pure ""

end Leaf

/-! Formulas. One that cannot be converted stays LaTeX. -/

section Formula

/-- A formula's Typst form, or the formula itself and a warning. -/
def convertOrKeep (env : Environment) (stage : Stage) (latex : String) : Rendering String :=
  match env.convertMath latex with
  | .ok text => pure text
  | .error cause => do
    Rendering.report
      { severity := .warning
        code := .mathFallback
        message := "Failed to convert " ++ stage.name ++ " LaTeX to Typst: " ++ cause.text
        stage := stage
        details := [("latex", .str latex)]
        cause := some cause }
    pure latex

/-- A formula on a line of its own. -/
def blockFormula (env : Environment) (expression : Value) : Rendering String := do
  let latex := Text.strip (← expression.asText)
  let text ← convertOrKeep env .blockMath latex
  pure ("$ " ++ text ++ " $")

/-- The characters that a pair of double dollars has beyond what stands between them. -/
def displayOverhead : Nat := 4

/-- Whether a formula in running text was written between double dollars: the source it spans is
that much longer than the formula. Without a span it was not. -/
def isDisplay (expression span : Value) : Except Failure Bool :=
  match span with
  | .null => .ok false
  | span => do
    let latex ← expression.asText
    match span.compareTo? ((Text.strip latex).length + displayOverhead) with
    | some order => .ok (order != .lt)
    | none => .error .mismatch

/-- A formula in running text. -/
def inlineFormula (env : Environment) (expression span : Value) : Rendering String := do
  let latex := Text.strip (← expression.asText)
  let text ← convertOrKeep env .inlineMath latex
  if ← isDisplay expression span then pure ("$ " ++ text ++ " $") else pure ("$" ++ text ++ "$")

end Formula

end Typeset.Render
