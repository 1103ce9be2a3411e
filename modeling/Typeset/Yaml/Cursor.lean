import Typeset.Failure
import Typeset.Text.Blank

/-! A place in the text of a metadata block, with the line and column that its layout rules ask
for. -/

namespace Typeset.Yaml

section Place

/-- What is left of a text and where it stands. -/
structure Cursor where
  rest : List Char
  index : Nat := 0
  line : Nat := 0
  column : Nat := 0

/-- The character that stands for the end of the text; it never occurs inside one. -/
def endMark : Char := '\x00'

namespace Cursor

/-- The character some way ahead. -/
def peek (c : Cursor) (n : Nat := 0) : Char := (c.rest[n]?).getD endMark

/-- The place one character on. A break ends the line; a byte order mark takes no room. -/
def next (c : Cursor) : Cursor :=
  match c.rest with
  | [] => c
  | ch :: rest =>
    if ch = '\n' || ch.toNat = 0x85 || ch.toNat = 0x2028 || ch.toNat = 0x2029 ||
        (ch = '\r' && rest.head? != some '\n') then
      ⟨rest, c.index + 1, c.line + 1, 0⟩
    else if ch.toNat = 0xFEFF then ⟨rest, c.index + 1, c.line, c.column⟩
    else ⟨rest, c.index + 1, c.line, c.column + 1⟩

/-- The place some characters on. -/
def forward (c : Cursor) : Nat → Cursor
  | 0 => c
  | n + 1 => c.next.forward n

/-- The characters ahead up to the first outside a class. -/
def span (c : Cursor) (p : Char → Bool) : List Char × Cursor :=
  let taken := c.rest.takeWhile p
  (taken, c.forward taken.length)

/-- The place after the characters of a class. -/
def skip (c : Cursor) (p : Char → Bool) : Cursor := (c.span p).2

end Cursor

/-- A character that breaks a line. -/
def isBreak (c : Char) : Bool :=
  c = '\n' || c = '\r' || c.toNat = 0x85 || c.toNat = 0x2028 || c.toNat = 0x2029

/-- A line break or the end. -/
def isBreakOrEnd (c : Char) : Bool := c = endMark || isBreak c

/-- A space, a line break or the end. -/
def isSpaceOrEnd (c : Char) : Bool := c = ' ' || isBreakOrEnd c

/-- A space, a tab, a line break or the end. -/
def isGap (c : Char) : Bool := c = '\t' || isSpaceOrEnd c

/-- A character of directive and anchor names. -/
def isNameChar (c : Char) : Bool := c.isAlphanum || c = '-' || c = '_'

/-- A line break ahead, in the form in which it enters a scalar; none if there is none. -/
def Cursor.lineBreak (c : Cursor) : Option (Char × Cursor) :=
  let ch := c.peek
  if ch = '\r' && c.peek 1 = '\n' then some ('\n', c.forward 2)
  else if ch = '\n' || ch = '\r' || ch.toNat = 0x85 then some ('\n', c.next)
  else if isBreak ch then some (ch, c.next)
  else none

/-- Whether a mark of three equal characters stands alone ahead. -/
def Cursor.atMark (c : Cursor) (mark : Char) : Bool :=
  c.peek = mark && c.peek 1 = mark && c.peek 2 = mark && isGap (c.peek 3)

/-- Whether one of the marks between documents stands ahead. -/
def Cursor.atDocumentMark (c : Cursor) : Bool := c.atMark '-' || c.atMark '.'

/-- The place after blanks and a comment on the same line; refused if anything else is left on
it. -/
def Cursor.endOfLine (c : Cursor) : Except Failure Cursor :=
  let c := c.skip (· = ' ')
  let c := if c.peek = '#' then c.skip (!isBreakOrEnd ·) else c
  if isBreakOrEnd c.peek then .ok ((c.lineBreak.map (·.2)).getD c) else .error .yamlSyntax

/-- Whether a character may stand in a metadata block. -/
def isAllowed (c : Char) : Bool :=
  let n := c.toNat
  n = 9 || n = 10 || n = 13 || (0x20 ≤ n && n ≤ 0x7E) || n = 0x85 || (0xA0 ≤ n && n ≤ 0xD7FF) ||
    (0xE000 ≤ n && n ≤ 0xFFFD) || 0x10000 ≤ n

end Place

/-! What can be wrong with a metadata block besides its syntax: numbers that cannot be made, and a
text that is looked for without end. -/

section Fault

/-- Asking an empty text for its first character. -/
def emptyText : Failure := .foreign "IndexError" "<cause>"

/-- Looking for the text of a mapping that stands for itself. -/
def endless : Failure := .foreign "RecursionError" "<cause>"

/-- How many places a number to the base of sixty may have, so that each fits into 1024 bits. -/
def sixtiesLimit : Nat := 174

end Fault

end Typeset.Yaml
