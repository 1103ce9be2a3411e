import Typeset.Markdown.Line

/-! Tables: a line of headings, a line of hyphens as wide, and lines of cells. -/

namespace Typeset.Markdown

/-- Where the text of a column stands. -/
inductive Align
  | left
  | center
  | right
  deriving DecidableEq, Repr

/-- The name of an alignment. -/
def Align.name : Align → String
  | .left => "left"
  | .center => "center"
  | .right => "right"

/-- A table: how its columns are aligned, its headings and its rows. -/
structure Table where
  aligns : List (Option Align)
  head : List (List Char)
  rows : List (List (List Char))

namespace Table

/-- A row cut at the bars that no backslash precedes. -/
def splitBars (escaped : Bool) : List Char → List (List Char)
  | [] => [[]]
  | c :: rest =>
    if c = '|' && !escaped then [] :: splitBars false rest
    else match splitBars (c == '\\') rest with
      | [] => [[c]]
      | cell :: cells => (c :: cell) :: cells

/-- The cells of a row. -/
def cells (row : List Char) : List (List Char) := (splitBars false row).map (Text.trim Text.isBlank)

/-- What stands between the bars at the ends of a line. -/
def barred? (text : List Char) : Option (List Char) := do
  let body := Text.trimRight isGap (← Line.body? 3 text)
  match body with
  | '|' :: rest => if rest.getLast? = some '|' then some rest.dropLast else none
  | _ => none

/-- The alignment that a cell of the line below the headings declares; none if it declares
nothing of the kind. -/
def align? (cell : List Char) : Option (Option Align) :=
  let left := cell.head? == some ':'
  let inner := if left then cell.drop 1 else cell
  let right := inner.getLast? == some ':'
  let inner := if right then inner.dropLast else inner
  if cell.isEmpty then some none
  else if inner.isEmpty || !inner.all (· == '-') then none
  else some (match left, right with
    | true, true => some .center
    | true, false => some .left
    | false, true => some .right
    | false, false => none)

/-- A table between bars, or the number of lines that would have made it up if their widths had
been equal. -/
def ofBarred (head : List Char) (rest : List Line) : Except Nat (Table × List Line) :=
  match rest with
  | [] => .error 1
  | line :: rest =>
    let head := cells head
    let aligns := ((barred? line.text).map cells).bind fun marks => marks.mapM align?
    match aligns with
    | none => .error 1
    | some aligns =>
      if aligns.length ≠ head.length then .error 1
      else
        let bodies := rest.takeWhile fun line => (barred? line.text).isSome
        let rows := bodies.map fun line => cells ((barred? line.text).getD [])
        if rows.all fun row => row.length = head.length then
          .ok (⟨aligns, head, rows⟩, rest.drop bodies.length)
        else .error (bodies.length + 2)

/-- The text of a line that may head a table without bars at its ends. -/
def open? (text : List Char) : Option (List Char) := do
  let body ← Line.body? 3 text
  match body with
  | c :: rest => if !Text.isBlank c && rest.contains '|' then some body else none
  | [] => none

/-- A table without bars at the ends of its lines. -/
def ofOpen? (head : List Char) (rest : List Line) : Option (Table × List Line) := do
  let line ← rest.head?
  let marks ← Line.body? 3 line.text
  let head := cells (Text.trim Text.isBlank head)
  let aligns ← (cells (Text.trim Text.isBlank marks)).mapM align?
  let bodies := (rest.drop 1).takeWhile fun line => line.text.contains '|'
  let rows := bodies.map fun line => cells (Text.trim Text.isBlank line.text)
  if marks.contains '|' && aligns.length = head.length &&
      rows.all (fun row => row.length = head.length) then
    some (⟨aligns, head, rows⟩, rest.drop (bodies.length + 1))
  else none

end Table

end Typeset.Markdown
