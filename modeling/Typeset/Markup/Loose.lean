import Typeset.Markup.Escape
import Typeset.Markup.Layout
import Typeset.Value.Access
import Typeset.Value.Text

/-! The helpers of markup on values of any shape, each with the failure of a value that it cannot
take. -/

namespace Typeset.Markup

/-- Escaped text of a value that must be text. -/
def escapeValue (v : Value) : Except Failure String := v.needText.map escape

/-- Text between the marks of a string literal, of a value that must be text. -/
def escapeStringValue (v : Value) : Except Failure String := v.asText.map escapeString

/-- The longest run of parts equal to a given one. -/
def longestRunValue (v part : Value) : Except Failure Nat :=
  v.parts.map (longestRun (· == part))

/-- Backticks enough to fence the parts of a value. -/
def fenceValue (v : Value) : Except Failure String :=
  (longestRunValue v (.str "`")).map fenceOver

/-- A value pushed in by a number of levels; at no level it stays as it is. -/
def indentValue (v level : Value) : Except Failure Value :=
  if level.truthy then
    match level with
    | .int n => do return .str (indent (← v.asText) n)
    | .bool _ => do return .str (indent (← v.asText) 1)
    | _ => .error .mismatch
  else .ok v

/-- An array literal of the parts of a value. A single part is shown in whatever form it has. -/
def arrayValue (v : Value) : Except Failure String := do
  let parts ← v.parts
  match parts with
  | [_] => return array [(← v.at? 0).shown]
  | _ => return array (← Value.needTexts parts)

end Typeset.Markup
