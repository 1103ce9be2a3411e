import Typeset.Markdown.Html
import Typeset.Markdown.Label
import Typeset.Text.Hex

/-! What the lines of a document can begin. -/

namespace Typeset.Markdown

/-- A line without its ending. A lazy line goes on with a paragraph in a quote without the mark of
the quote. -/
structure Line where
  text : List Char
  lazy : Bool := false

namespace Line

/-- A line of nothing but spaces. -/
def isBlank (text : List Char) : Bool := text.all isLineBlank

/-- A line after its leading spaces, if there are at most so many. -/
def body? (limit : Nat) (text : List Char) : Option (List Char) :=
  let spaces := text.takeWhile (· == ' ')
  if spaces.length ≤ limit then some (text.drop spaces.length) else none

/-- A line with a tab among its first characters written as spaces up to a column. -/
def fillTab (column : Nat) (text : List Char) : List Char :=
  let spaces := text.takeWhile (· == ' ')
  match text.drop spaces.length with
  | '\t' :: rest =>
    if spaces.length ≤ 3 then spaces ++ List.replicate (column - spaces.length) ' ' ++ rest
    else text
  | _ => text

/-- A line with a tab among its first characters written as four spaces. -/
def widenTab (text : List Char) : List Char :=
  let spaces := text.takeWhile (· == ' ')
  match text.drop spaces.length with
  | '\t' :: rest => if spaces.length ≤ 3 then spaces ++ [' ', ' ', ' ', ' '] ++ rest else text
  | _ => text

/-- A line without so many of its leading spaces. -/
def dropSpaces : Nat → List Char → List Char
  | n + 1, ' ' :: rest => dropSpaces n rest
  | _, text => text

/-- Whether a line is indented as far as code is. -/
def isIndented (text : List Char) : Bool :=
  let spaces := text.takeWhile (· == ' ')
  4 ≤ spaces.length || (text.drop spaces.length).head? = some '\t'

/-- Whether a line is indented code. -/
def isIndentedCode (text : List Char) : Bool := isIndented text && !isBlank text

/-- The fence that a line opens. -/
structure Fence where
  indent : Nat
  mark : Char
  width : Nat
  info : List Char

/-- The fence on a line, at most so many spaces in. -/
def fence? (limit : Nat) (text : List Char) : Option Fence := do
  let body ← body? limit text
  let mark ← body.head?
  let run := body.takeWhile (· == mark)
  if (mark == '\x60' || mark == '~') && 3 ≤ run.length then
    some ⟨text.length - body.length, mark, run.length, (body.drop run.length).dropWhile isGap⟩
  else none

/-- Whether a fence opens code: backquotes cannot follow a fence of backquotes. -/
def Fence.opens (fence : Fence) : Bool := fence.mark != '\x60' || !fence.info.contains '\x60'

/-- Whether a line closes a fence. -/
def Fence.closedBy (fence : Fence) (text : List Char) : Bool :=
  match body? 3 text with
  | some body =>
    let run := body.takeWhile (· == fence.mark)
    fence.width ≤ run.length && (body.drop run.length).all isGap
  | none => false

/-- A heading's text without the number signs at its end, which white space must set off. -/
def headingText (cs : List Char) : List Char :=
  let text := Text.trim (fun c => isEdgeBlank c || c == '\x0b') cs
  let body := (Text.trimRight Text.isBlank text).reverse
  let signs := body.takeWhile (· == '#')
  match body.drop signs.length with
  | [] => if signs.isEmpty then text else []
  | c :: rest =>
    if !signs.isEmpty && Text.isBlank c then (rest.dropWhile Text.isBlank).reverse else text
where
  isEdgeBlank (c : Char) : Bool := [' ', '\r', '\n', '\t', '\x0c'].contains c

/-- The level and text of a heading behind number signs. -/
def heading? (limit : Nat) (text : List Char) : Option (Nat × List Char) := do
  let body ← body? limit text
  let signs := body.takeWhile (· == '#')
  let rest := body.drop signs.length
  if 1 ≤ signs.length && signs.length ≤ 6 && rest.head?.all isGap then
    some (signs.length, headingText rest)
  else none

/-- The level of the heading that a line underlines. -/
def underline? (text : List Char) : Option Nat := do
  let marks := Text.trimRight isGap (← body? 3 text)
  let last ← marks.getLast?
  if marks.all fun c => c == '=' || c == '-' then some (if last = '=' then 1 else 2) else none

/-- Whether a line is a rule: three or more equal marks with nothing but gaps between them. -/
def isRule (limit : Nat) (text : List Char) : Bool :=
  match body? limit text with
  | some (mark :: rest) =>
    ['-', '_', '*'].contains mark && rest.all (fun c => c == mark || isGap c) &&
      2 ≤ rest.count mark
  | _ => false

/-- What follows the mark of a quote. -/
def quoted? (limit : Nat) (text : List Char) : Option (List Char) :=
  match body? limit text with
  | some ('>' :: rest) => some rest
  | _ => none

/-- The start of a list item. -/
structure Item where
  /-- How far its marker reaches. -/
  width : Nat
  /-- The last character of the marker. -/
  mark : Char
  /-- The digits of the marker. -/
  digits : List Char
  /-- What follows the marker. -/
  rest : List Char

/-- Whether the items of a list are numbered. -/
def Item.isOrdered (item : Item) : Bool := item.mark == '.' || item.mark == ')'

/-- The number of an item. -/
def Item.number (item : Item) : Nat := Text.numberOfDigits item.digits

/-- The list item on a line, with at least so many digits if it is numbered. -/
def item? (limit fewest : Nat) (text : List Char) : Option Item := do
  let body ← body? limit text
  let digits := body.takeWhile Text.isDecimalDigit
  match body.drop digits.length with
  | mark :: rest =>
    let width := text.length - rest.length
    let fits := if ['-', '+', '*'].contains mark then digits.isEmpty
      else (mark == '.' || mark == ')') && fewest ≤ digits.length && digits.length ≤ 9
    if fits && rest.head?.all isGap then some ⟨width, mark, digits, rest⟩ else none
  | [] => none

/-- Whether an item cannot interrupt a paragraph: an empty one, or one with a number other than
one. -/
def Item.isTimid (item : Item) : Bool :=
  item.rest.all Text.isBlank || (item.isOrdered && item.number != 1)

/-- The formula between double dollar signs that a line consists of. -/
def formula? (text : List Char) : Option (List Char) := do
  let body := Text.trimRight isGap (← body? 3 text)
  let inner := (body.drop 2).take (body.length - 4)
  if 4 ≤ body.length && body == ['$', '$'] ++ inner ++ ['$', '$'] then some inner else none

/-- Whether a line holds nothing but double dollar signs, at most so many spaces in. -/
def isDollars (limit : Nat) (text : List Char) : Bool :=
  (body? limit text).any fun body => Text.trimRight isGap body == ['$', '$']

end Line

end Typeset.Markdown
