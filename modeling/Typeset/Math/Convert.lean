import Typeset.Failure
import Typeset.Latex.Reader
import Typeset.Math.Writer

/-! LaTeX math as Typst math, and whether a formula stands on a line of its own. -/

namespace Typeset.Math

/-- The failure of an expression, with the expression and the reason in its context. -/
def failure (latex message reason : String) (cause : Option Failure) : Failure :=
  .reported .math "MATH_CONVERSION_ERROR" message
    [("latex", .str latex), ("reason", .str reason)] cause

/-- A reader of LaTeX: the parts of an expression, and what it leaves of the text. -/
abbrev Reader := String → Except ReadingFault (List Latex.Node × List Char)

/-- The reader for LaTeX that commands and environments have their usual signatures in. -/
def reader : Reader := fun latex =>
  match Latex.read latex.toList with
  | some found => .ok found
  | none => .error (.ofFailure .latexSyntax)

/-- The Typst form of a LaTeX expression, by a reader. -/
def convertBy (read : Reader) (latex : String) : Except Failure String :=
  if Text.isBlankText latex then .ok ""
  else match read latex with
  | .error (.malformed kind text) =>
    .error (failure latex ("Could not parse LaTeX: " ++ text) text (some (.foreign kind text)))
  | .error (.raised kind text) => .error (.foreign kind text)
  | .ok (nodes, rest) =>
    if !rest.all Text.isBlank then
      .error (failure latex "Unbalanced braces in LaTeX expression" "unbalanced" none)
    else match write nodes with
    | .error e =>
      .error (failure latex ("Cannot convert LaTeX to Typst: " ++ e.reason) e.reason none)
    | .ok text => .ok (String.ofList text)

/-- The Typst form of a LaTeX expression. -/
def convert (latex : String) : Except Failure String := convertBy reader latex

section Written

variable {read : Reader} {latex : String} {nodes : List Latex.Node} {rest text : List Char}

theorem reader_of_read (h : Latex.read latex.toList = some (nodes, rest)) :
    reader latex = .ok (nodes, rest) := by
  rw [reader, h]

theorem convertBy_of_read (hblank : Text.isBlankText latex = false)
    (hread : read latex = .ok (nodes, [])) (hwrite : write nodes = .ok text) :
    convertBy read latex = .ok (String.ofList text) := by
  rw [convertBy, hblank, if_neg (by decide), hread]
  dsimp only
  rw [hwrite]
  rfl

theorem convert_of_read (hblank : Text.isBlankText latex = false)
    (hread : Latex.read latex.toList = some (nodes, [])) (hwrite : write nodes = .ok text) :
    convert latex = .ok (String.ofList text) :=
  convertBy_of_read hblank (reader_of_read hread) hwrite

end Written

end Typeset.Math
