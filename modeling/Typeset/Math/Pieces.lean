import Typeset.Text.Charset
import Typeset.Text.Blank

/-! Typst math put together from pieces, with blanks where two of them would run into one name. -/

namespace Typeset.Math

/-- The pieces so far, the last one first. -/
structure Pieces where
  reversed : List (List Char) := []

/-- Whether a character makes the operand after it a subscript or a superscript. -/
def isScriptMark (c : Char) : Bool := c == '^' || c == '_'

/-- Whether a piece, white space apart, starts with a script mark. -/
def startsScript (piece : List Char) : Bool :=
  match piece.dropWhile Text.isBlank with
  | c :: _ => isScriptMark c
  | [] => false

/-- Whether a piece needs a blank between itself and the piece before it. -/
def runsInto (before piece : List Char) : Bool :=
  match before.getLast?, piece with
  | some b, c :: _ => Text.isAlphanumeric b && (Text.isAlphanumeric c || c == '(')
  | _, _ => false

/-- One more piece. A script mark takes the place of the white space before it, and names that
would run together are kept apart. -/
def Pieces.add (out : Pieces) (piece : List Char) : Pieces :=
  if piece.isEmpty then out
  else match out.reversed with
    | [] => ⟨[piece]⟩
    | before :: earlier =>
      let (before, piece) :=
        if startsScript piece then
          (Text.trimRight Text.isBlank before, piece.dropWhile Text.isBlank)
        else (before, piece)
      ⟨(if runsInto before piece then ' ' :: piece else piece) :: before :: earlier⟩

/-- Whether the pieces end in a script mark, so that the next operand attaches to it. -/
def Pieces.expectsOperand (out : Pieces) : Bool :=
  let tail := ((out.reversed.take 2).reverse.flatten)
  ((Text.trimRight Text.isBlank tail).getLast?.map isScriptMark).getD false

/-- One more piece as a single operand: after a script mark it stands in parentheses unless it is a
single character. -/
def Pieces.attach (out : Pieces) (piece : List Char) : Pieces :=
  if out.expectsOperand then
    match Text.trim Text.isBlank piece with
    | [c] => out.add [c]
    | operand => out.add ('(' :: operand ++ [')'])
  else out.add piece

/-- Text with every run of white space made one blank. -/
def squeeze : List Char → List Char
  | [] => []
  | c :: rest =>
    if Text.isBlank c then
      match squeeze rest with
      | ' ' :: more => ' ' :: more
      | more => ' ' :: more
    else c :: squeeze rest

/-- The pieces as one text. -/
def Pieces.text (out : Pieces) : List Char :=
  Text.trim Text.isBlank (squeeze out.reversed.reverse.flatten)

end Typeset.Math
