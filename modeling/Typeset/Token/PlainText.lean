import Typeset.Token.Basic
import Typeset.Definition
import Typeset.Text.Blank
import Typeset.Text.Case

/-! Inline tokens as plain text, without their formatting. -/

namespace Typeset.Token

/-- The text of a reference without a label: its target, else the label it was given, else its
identifier. -/
def referenceText (definitions : Targets Definition) (token : Value) : Except Failure Value := do
  let attrs ← token.field "attrs" (.object [])
  let identifier ← attrs.field "identifier" (.str "")
  let key ← identifier.asText
  match definitions.find (Text.lower key) with
  | some d => .ok d.url
  | none => .ok ((← attrs.field "label" .null).orElse identifier)

/-- The texts of parts that must all be text, as one. -/
def join (parts : List Value) : Except Failure String :=
  (Value.needTexts parts).map String.join

mutual

/-- The parts of the plain text of some tokens, one after the other. -/
def plainParts (definitions : Targets Definition) : List Value → Except Failure (List Value)
  | [] => .ok []
  | token :: rest => do
    let here ← plainPart definitions token
    let more ← plainParts definitions rest
    .ok (here ++ more)
termination_by tokens => sizeOf tokens

/-- The parts of the plain text of one token. Images and footnotes have none; a token of any other
kind has that of its children. -/
def plainPart (definitions : Targets Definition) (token : Value) : Except Failure (List Value) := do
  let kind ← Token.kind token
  if kind.isText "text" || kind.isText "codespan" then
    return [← token.field "raw" (.str "")]
  else if kind.isText "link_reference" then
    match _h : token.children with
    | .error f => throw f
    | .ok children =>
      let label ← join (← plainParts definitions children)
      if Text.isBlankText label then return [← referenceText definitions token]
      else return [.str label]
  else if kind.isText "linebreak" then return [.str "\n"]
  else if kind.isText "softbreak" then return [.str " "]
  else if kind.isText "image" || kind.isText "image_reference" || kind.isText "footnote_ref" then
    return []
  else
    match _h : token.children with
    | .error f => throw f
    | .ok children => return [.str (← join (← plainParts definitions children))]
termination_by sizeOf token
decreasing_by all_goals exact Value.sizeOf_children_lt _h

end

/-- The plain text of inline tokens. -/
def plainText (definitions : Targets Definition) (children : Value) : Except Failure String := do
  join (← plainParts definitions (← children.tokens))

end Typeset.Token
