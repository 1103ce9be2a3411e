import Typeset.Yaml.Cursor
import Typeset.Text.Hex

/-! The text of scalars: plain, between quotes, and in indented blocks. -/

namespace Typeset.Yaml

/-- Line breaks and the indentation after each, up to a column. -/
def breaks (fuel : Nat) (column : Nat) (c : Cursor) : List Char × Cursor :=
  let c := indented column c
  match fuel with
  | 0 => ([], c)
  | fuel + 1 =>
    match c.lineBreak with
    | none => ([], c)
    | some (b, c) =>
      let (bs, c) := breaks fuel column c
      (b :: bs, c)
where
  indented (column : Nat) (c : Cursor) : Cursor :=
    let room := (c.rest.take (column - c.column)).takeWhile (· = ' ')
    c.forward room.length

/-- Line breaks and blanks before the first line of a block, with the deepest column that blanks
reach. -/
def leadingBreaks : Nat → Nat → Cursor → List Char × Nat × Cursor
  | 0, deepest, c => ([], deepest, c)
  | fuel + 1, deepest, c =>
    if c.peek = ' ' then
      let c := c.next
      leadingBreaks fuel (max deepest c.column) c
    else match c.lineBreak with
      | none => ([], deepest, c)
      | some (b, c) =>
        let (bs, deepest, c) := leadingBreaks fuel deepest c
        (b :: bs, deepest, c)

/-- What happens to the line breaks at the end of a block. -/
inductive Chomping
  | strip
  | clip
  | keep
  deriving DecidableEq

/-- A chomping sign. -/
def chomping? (c : Char) : Option Chomping :=
  if c = '+' then some .keep else if c = '-' then some .strip else none

/-- The signs after the mark of a block: chomping and depth, in either order. -/
def blockHeader (c : Cursor) : Except Failure (Chomping × Option Nat × Cursor) := do
  let digit (c : Cursor) : Except Failure (Option Nat × Cursor) :=
    if c.peek.isDigit then
      if c.peek = '0' then .error .yamlSyntax else .ok (some (c.peek.toNat - 48), c.next)
    else .ok (none, c)
  let (chomp, depth, c) ← match chomping? c.peek with
    | some chomp => do
      let (depth, c) ← digit c.next
      pure (chomp, depth, c)
    | none => do
      let (depth, c) ← digit c
      match depth, chomping? c.peek with
      | some _, some chomp => pure (chomp, depth, c.next)
      | _, _ => pure (.clip, depth, c)
  if isSpaceOrEnd c.peek then .ok (chomp, depth, c) else .error .yamlSyntax

/-- The lines of a block at a column: its text so far, the last line break taken and the breaks
after it. A folded block joins two lines that both start in its column. -/
def blockLines (folded : Bool) (column : Nat) :
    Nat → List Char → Cursor → List Char × List Char × List Char × Cursor
  | 0, pending, c => ([], [], pending, c)
  | fuel + 1, pending, c =>
    if c.column = column && c.peek != endMark then
      let flush := c.peek != ' ' && c.peek != '\t'
      let (text, c) := c.span (!isBreakOrEnd ·)
      let (lineEnd, c) := match c.lineBreak with
        | some (b, c) => ([b], c)
        | none => ([], c)
      let (bs, c) := breaks c.rest.length column c
      if c.column = column && c.peek != endMark then
        let joint :=
          if folded && lineEnd = ['\n'] && flush && c.peek != ' ' && c.peek != '\t' then
            if bs.isEmpty then [' '] else []
          else lineEnd
        let (more, last, tail, c) := blockLines folded column fuel bs c
        (pending ++ text ++ joint ++ more, last, tail, c)
      else (pending ++ text, lineEnd, bs, c)
    else ([], [], pending, c)

/-- A block scalar after its mark, inside a collection indented to `indent`. -/
def blockScalar (folded : Bool) (indent : Int) (c : Cursor) : Except Failure (String × Cursor) := do
  let (chomp, depth, c) ← blockHeader c
  let c ← c.endOfLine
  let least := max 1 (indent + 1).toNat
  let (column, pending, c) := match depth with
    | some d =>
      let column := least + d - 1
      let (bs, c) := breaks c.rest.length column c
      (column, bs, c)
    | none =>
      let (bs, deepest, c) := leadingBreaks c.rest.length 0 c
      (max least deepest, bs, c)
  let (text, last, tail, c) := blockLines folded column (c.rest.length + 1) pending c
  let finish := match chomp with
    | .strip => []
    | .clip => last
    | .keep => last ++ tail
  .ok (String.ofList (text ++ finish), c)

/-- The character that a one-letter escape stands for. -/
def namedEscape? (c : Char) : Option Char :=
  match c with
  | '0' => some '\x00'
  | 'a' => some '\x07'
  | 'b' => some '\x08'
  | 't' => some '\t'
  | '\t' => some '\t'
  | 'n' => some '\n'
  | 'v' => some '\x0b'
  | 'f' => some '\x0c'
  | 'r' => some '\r'
  | 'e' => some '\x1b'
  | ' ' => some ' '
  | '"' => some '"'
  | '\\' => some '\\'
  | '/' => some '/'
  | 'N' => some (Char.ofNat 0x85)
  | '_' => some (Char.ofNat 0xA0)
  | 'L' => some (Char.ofNat 0x2028)
  | 'P' => some (Char.ofNat 0x2029)
  | _ => none

/-- The number of hexadecimal digits that an escape by code point takes. -/
def codeWidth? (c : Char) : Option Nat :=
  match c with
  | 'x' => some 2
  | 'u' => some 4
  | 'U' => some 8
  | _ => none

/-- Line breaks inside quotes; a mark between documents must not start a line. -/
def quotedBreaks : Nat → Cursor → Except Failure (List Char × Cursor)
  | 0, c => .ok ([], c)
  | fuel + 1, c =>
    if c.atDocumentMark then .error .yamlSyntax
    else
      let c := c.skip fun ch => ch = ' ' || ch = '\t'
      match c.lineBreak with
      | none => .ok ([], c)
      | some (b, c) => do
        let (bs, c) ← quotedBreaks fuel c
        .ok (b :: bs, c)

/-- Blanks and line breaks inside quotes: a single line feed becomes a blank. -/
def quotedSpaces (c : Cursor) : Except Failure (List Char × Cursor) := do
  let (blanks, c) := c.span fun ch => ch = ' ' || ch = '\t'
  if c.peek = endMark then .error .yamlSyntax
  else match c.lineBreak with
    | none => .ok (blanks, c)
    | some (b, c) => do
      let (bs, c) ← quotedBreaks (c.rest.length + 1) c
      let first := if b != '\n' then [b] else if bs.isEmpty then [' '] else []
      .ok (first ++ bs, c)

/-- What follows the backslash between double quotes. -/
def quotedEscape (c : Cursor) : Except Failure (List Char × Cursor) :=
  match namedEscape? c.peek with
  | some ch => .ok ([ch], c.next)
  | none =>
    match codeWidth? c.peek with
    | some width =>
      let digits := c.next.rest.take width
      if digits.length = width && digits.all fun d => (Text.hexValue? d).isSome then
        let code := Text.numberOfHex digits
        if code ≤ 0x10FFFF then .ok ([Char.ofNat code], c.forward (width + 1))
        else .error (if code < 0x80000000 then .badNumber else .overflow)
      else .error .yamlSyntax
    | none =>
      match c.lineBreak with
      | some (_, c) => quotedBreaks (c.rest.length + 1) c
      | none => .error .yamlSyntax

/-- The rest of a scalar between quotes, up to and with the closing quote. -/
def quotedRest (double : Bool) : Nat → Cursor → Except Failure (List Char × Cursor)
  | 0, _ => .error .yamlSyntax
  | fuel + 1, c => do
    let ch := c.peek
    let mark := if double then '"' else '\''
    if ch = mark then
      if !double && c.peek 1 = '\'' then
        let (more, c) ← quotedRest double fuel (c.forward 2)
        .ok ('\'' :: more, c)
      else .ok ([], c.next)
    else if double && ch = '\\' then
      let (text, c) ← quotedEscape c.next
      let (more, c) ← quotedRest double fuel c
      .ok (text ++ more, c)
    else if isGap ch then
      let (text, c) ← quotedSpaces c
      let (more, c) ← quotedRest double fuel c
      .ok (text ++ more, c)
    else
      let (more, c) ← quotedRest double fuel c.next
      .ok (ch :: more, c)

/-- A scalar between quotes. -/
def quotedScalar (double : Bool) (c : Cursor) : Except Failure (String × Cursor) := do
  let (text, c) ← quotedRest double (2 * c.rest.length + 2) c.next
  .ok (String.ofList text, c)

/-- Whether a plain scalar ends before the character ahead. -/
def endsPlain (flow : Bool) (c ahead : Char) : Bool :=
  let flowMark (c : Char) := c = ',' || c = '[' || c = ']' || c = '\x7b' || c = '\x7d'
  isGap c || (c = ':' && (isGap ahead || (flow && flowMark ahead))) ||
    (flow && (flowMark c || c = '?'))

/-- The characters of a plain scalar up to the next blank or indicator. -/
def plainRun (flow : Bool) : List Char → List Char
  | [] => []
  | c :: rest =>
    if endsPlain flow c (rest.head?.getD endMark) then [] else c :: plainRun flow rest

/-- Blanks and breaks after the first line of a plain scalar; none if a mark between documents
follows. -/
def plainBreaks : Nat → Cursor → Option (List Char) × Cursor
  | 0, c => (some [], c)
  | fuel + 1, c =>
    if c.peek = ' ' then plainBreaks fuel c.next
    else match c.lineBreak with
      | none => (some [], c)
      | some (b, c) =>
        if c.atDocumentMark then (none, c)
        else match plainBreaks fuel c with
          | (some bs, c) => (some (b :: bs), c)
          | (none, c) => (none, c)

/-- The blanks inside a plain scalar, whether a line ended in them, and the place after them. -/
def plainSpaces (c : Cursor) : List Char × Bool × Cursor :=
  let (blanks, c) := c.span (· = ' ')
  match c.lineBreak with
  | none => (blanks, false, c)
  | some (b, c) =>
    if c.atDocumentMark then ([], true, c)
    else match plainBreaks c.rest.length c with
      | (none, c) => ([], true, c)
      | (some bs, c) =>
        let first := if b != '\n' then [b] else if bs.isEmpty then [' '] else []
        (first ++ bs, true, c)

/-- A plain scalar with the blanks before its next run; also tells whether its last blanks ended a
line. -/
def plainRuns (flow : Bool) (indent : Int) : Nat → List Char → Cursor → List Char × Bool × Cursor
  | 0, _, c => ([], false, c)
  | fuel + 1, spaces, c =>
    if c.peek = '#' then ([], false, c)
    else
      let run := plainRun flow c.rest
      if run.isEmpty then ([], false, c)
      else
        let c := c.forward run.length
        let (blanks, broke, c) := plainSpaces c
        if blanks.isEmpty || c.peek = '#' || (!flow && (c.column : Int) < indent + 1) then
          (spaces ++ run, broke, c)
        else
          let next := plainRuns flow indent fuel blanks c
          -- An empty continuation keeps what these blanks said about the line.
          let goesOn := c.peek != '#' && !(plainRun flow c.rest).isEmpty
          (spaces ++ run ++ next.1, if goesOn then next.2.1 else broke, next.2.2)

/-- A plain scalar inside a collection indented to `indent`. -/
def plainScalar (flow : Bool) (indent : Int) (c : Cursor) : String × Bool × Cursor :=
  let (text, broke, c) := plainRuns flow indent (c.rest.length + 1) [] c
  (String.ofList text, broke, c)

end Typeset.Yaml
