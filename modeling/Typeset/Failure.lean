import Typeset.Value.Basic

/-! Why an operation stopped. -/

namespace Typeset

/-- A day, month and year that are no date. -/
inductive CalendarFault
  | year
  | month
  | day
  deriving DecidableEq, Repr

/-- The first thing wrong with the numbers of a date. -/
def CalendarFault.message : CalendarFault → String
  | .year => "year 0 is out of range"
  | .month => "month must be in 1..12"
  | .day => "day is out of range for month"

/-- Which of the program's own failures was raised. -/
inductive FailureClass
  | base
  | conversion
  | parse
  | math
  deriving DecidableEq, Repr

/-- The name under which a class of failures is shown. -/
def FailureClass.name : FailureClass → String
  | .base => "TypstifyError"
  | .conversion => "TypstifyConversionError"
  | .parse => "TypstifyParseError"
  | .math => "TypstifyMathConversionError"

/-- The class itself and those above it, narrowest first. -/
def FailureClass.ancestry : FailureClass → List FailureClass
  | .base => [.base]
  | .conversion => [.conversion, .base]
  | .parse => [.parse, .conversion, .base]
  | .math => [.math, .conversion, .base]

/-- Why an operation stopped. -/
inductive Failure
  /-- A value was asked for a field or an operation that its kind does not have. -/
  | noMember
  /-- A value of the wrong kind was handed to an operation. -/
  | mismatch
  /-- An object lacks a key that must be there. -/
  | missingKey
  /-- Text that had to be a number is none. -/
  | badNumber
  /-- A number is too large for what it is to become. -/
  | overflow
  /-- Text cannot be written in the encoding asked for. -/
  | encoding
  /-- A day, month and year that are no date. -/
  | calendar (fault : CalendarFault)
  /-- An option, a source or a level was refused in words of this library. -/
  | refusedValue (message : String)
  | refusedType (message : String)
  /-- A document fragment refused by the readers of the two embedded languages. -/
  | yamlSyntax
  | latexSyntax
  /-- No block renderer stands behind a footnote. -/
  | noBlockRenderer
  /-- Raised by a component from outside: one that the caller supplied, or a reader of another
  language. -/
  | foreign (kind text : String)
  /-- One of the library's own failures. -/
  | reported (cls : FailureClass) (code message : String) (context : List (String × Value))
      (cause : Option Failure)

/-- The name of the kind of failure. -/
def Failure.kind : Failure → String
  | .noMember => "AttributeError"
  | .mismatch => "TypeError"
  | .missingKey => "KeyError"
  | .badNumber => "ValueError"
  | .overflow => "OverflowError"
  | .encoding => "UnicodeEncodeError"
  | .calendar _ => "ValueError"
  | .refusedValue _ => "ValueError"
  | .refusedType _ => "TypeError"
  | .yamlSyntax => "YAMLError"
  | .latexSyntax => "LatexWalkerError"
  | .noBlockRenderer => "RuntimeError"
  | .foreign kind _ => kind
  | .reported cls _ _ _ _ => cls.name

/-- The words of a failure that has words of its own. -/
def Failure.words? : Failure → Option String
  | .calendar fault => some fault.message
  | .refusedValue message => some message
  | .refusedType message => some message
  | .foreign _ text => some text
  | .reported _ _ message _ _ => some message
  | _ => none

/-- The words of a failure; one without words of its own is shown by a placeholder. -/
def Failure.text (f : Failure) : String := f.words?.getD "<cause>"

/-- Why a reader of an embedded language gave nothing. -/
inductive ReadingFault
  /-- The text is not of the language: a failure of the class that the reader keeps for it. -/
  | malformed (kind text : String)
  /-- Anything else that was raised on the way. -/
  | raised (kind text : String)
  deriving DecidableEq, Repr

/-- A fault of a reader as the failure that it is. -/
def ReadingFault.failure : ReadingFault → Failure
  | .malformed kind text => .foreign kind text
  | .raised kind text => .foreign kind text

/-- The fault of a reader that refuses text with a failure for its language. -/
def ReadingFault.ofFailure : Failure → ReadingFault
  | .yamlSyntax => .malformed Failure.yamlSyntax.kind Failure.yamlSyntax.text
  | .latexSyntax => .malformed Failure.latexSyntax.kind Failure.latexSyntax.text
  | f => .raised f.kind f.text

/-- Whether the failure is one of the library's own. -/
def Failure.isReported : Failure → Bool
  | .reported .. => true
  | _ => false

/-- Two steps come to an end together if each of them does. -/
theorem Failure.exists_of_bind {α β ε : Type} {first : Except ε α}
    {next : α → Except ε β} {b : β} (h : first >>= next = .ok b) :
    ∃ a, first = .ok a ∧ next a = .ok b := by
  cases first with
  | error f => cases h
  | ok a => exact ⟨a, rfl, h⟩

end Typeset
