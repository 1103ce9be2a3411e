import Typeset.Failure
import Typeset.Value.Text

/-! The library's own failures as a caller builds and inspects them. -/

namespace Typeset

/-- The codes that the library's own failures carry. -/
inductive FailureCode
  | conversion
  | parse
  | math
  deriving DecidableEq, Repr

/-- The name of a code. -/
def FailureCode.name : FailureCode → String
  | .conversion => "CONVERSION_ERROR"
  | .parse => "PARSE_ERROR"
  | .math => "MATH_CONVERSION_ERROR"

/-- The code of a name. -/
def FailureCode.ofName? (name : String) : Option FailureCode :=
  [FailureCode.conversion, .parse, .math].find? fun c => c.name == name

/-- The class of a name. -/
def FailureClass.ofName? (name : String) : Option FailureClass :=
  [FailureClass.base, .conversion, .parse, .math].find? fun c => c.name == name

/-- The code of a failure: one of the library's, or any other value. -/
inductive CodeTag
  | known (code : FailureCode)
  | other (v : Value)

/-- A code as a value. -/
def CodeTag.value : CodeTag → Value
  | .known code => .str code.name
  | .other v => v

/-- The literal form of a code. -/
def CodeTag.literal : CodeTag → String
  | .known code => "<ErrorCode." ++ code.name ++ ": " ++ Text.quote code.name ++ ">"
  | .other v => v.literal

/-- One of the library's own failures. -/
structure Raised where
  cls : FailureClass
  code : CodeTag
  message : Value
  context : Value
  cause : Option String

namespace Raised

/-- The code that failures of a class carry unless they are given one. -/
def defaultCode : FailureClass → Option FailureCode
  | .base => none
  | .conversion => some .conversion
  | .parse => some .parse
  | .math => some .math

/-- A failure of a class. The widest class wants a code and a message, and only the two widest take
a code; all but the second want a message. -/
def build (cls : FailureClass) (code : Option CodeTag) (message : Option Value) (context : Value)
    (cause : Option String) : Except Failure Raised := do
  let code ← match cls, code with
    | .parse, some _ => throw .mismatch
    | .math, some _ => throw .mismatch
    | _, some code => pure code
    | cls, none =>
      match defaultCode cls with
      | some code => pure (.known code)
      | none => throw .mismatch
  let message ← match cls, message with
    | _, some message => pure message
    | .conversion, none => pure (.str "Conversion error")
    | _, none => throw .mismatch
  return { cls, code, message, context := context.orElse (.object []), cause }

/-- The words of a failure. -/
def text (r : Raised) : String := r.message.shown

/-- The literal form of a failure. -/
def literal (r : Raised) : String :=
  let context := if r.context.truthy then ", context=" ++ r.context.literal else ""
  r.cls.name ++ "(code=" ++ r.code.literal ++ ", message=" ++ r.message.literal ++ context ++ ")"

end Raised

end Typeset
