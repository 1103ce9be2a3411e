import Typeset.Value.Basic
import Typeset.Text.Quoted

/-! Values as text, on one line: quoted wherever text stands inside another value. -/

namespace Typeset.Value

mutual

/-- The literal form of a value. -/
def literal : Value → String
  | .null => "None"
  | .bool true => "True"
  | .bool false => "False"
  | .int n => Text.decimal n
  | .real spelling => spelling
  | .str s => Text.quote s
  | .list items => "[" ++ String.intercalate ", " (literals items) ++ "]"
  | .object fields => "\x7b" ++ String.intercalate ", " (fieldLiterals fields) ++ "\x7d"

def literals : List Value → List String
  | [] => []
  | v :: rest => literal v :: literals rest

def fieldLiterals : List (String × Value) → List String
  | [] => []
  | (key, v) :: rest => (Text.quote key ++ ": " ++ literal v) :: fieldLiterals rest

end

/-- A value inside a message: text stands for itself, all else in its literal form. -/
def shown : Value → String
  | .str s => s
  | v => v.literal

end Typeset.Value
