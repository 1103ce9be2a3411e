import Typeset.Yaml.Scalar

/-! The tokens of a metadata block. Indentation becomes explicit here: collections that layout
opens and closes get tokens of their own, and a key that only its colon reveals gets its token
put in before it. -/

namespace Typeset.Yaml

/-- A tag as written: its handle, if it has one, and the rest. -/
structure TagName where
  handle : Option String
  suffix : String

/-- A directive before a document. -/
inductive Directive
  | version (major minor : Nat)
  | tag (handle uri : String)
  | other

/-- The tokens of a metadata block. -/
inductive Token
  | directive (d : Directive)
  | documentStart
  | documentEnd
  | blockSequenceStart
  | blockMappingStart
  | blockEnd
  | flowSequenceStart
  | flowSequenceEnd
  | flowMappingStart
  | flowMappingEnd
  | entry
  | flowEntry
  | key
  | value
  | alias (name : String)
  | anchor (name : String)
  | tag (name : TagName)
  | scalar (text : String) (plain : Bool)

/-- A place where a key may turn out to have stood. -/
structure PossibleKey where
  /-- The number of tokens before it. -/
  position : Nat
  /-- Whether layout allows nothing but a key there. -/
  required : Bool
  index : Nat
  line : Nat
  column : Nat

/-- How far the reading of tokens has come. -/
structure Scan where
  cursor : Cursor
  tokens : Array Token := #[]
  /-- How many flow collections are open. -/
  flow : Nat := 0
  indent : Int := -1
  outer : List Int := []
  /-- Whether a key may start here. -/
  keyAllowed : Bool := true
  /-- The last possible key of each flow level, if it is still possible. -/
  possible : List (Nat × PossibleKey) := []

namespace Scan

/-- The reading with one more token. -/
def push (s : Scan) (t : Token) : Scan := { s with tokens := s.tokens.push t }

/-- The reading some characters on. -/
def forward (s : Scan) (n : Nat) : Scan := { s with cursor := s.cursor.forward n }

/-- Whether a possible key is no longer on this line or too far back. -/
def isStale (s : Scan) (k : PossibleKey) : Bool :=
  k.line != s.cursor.line || s.cursor.index > k.index + 1024

/-- Gives up the possible keys that are no longer on this line or too far back. -/
def dropStale (s : Scan) : Except Failure Scan :=
  if s.possible.any fun e => s.isStale e.2 && e.2.required then .error .yamlSyntax
  else .ok { s with possible := s.possible.filter fun e => !s.isStale e.2 }

/-- Gives up the possible key of this flow level. -/
def dropKey (s : Scan) : Except Failure Scan :=
  match s.possible.lookup s.flow with
  | some k =>
    if k.required then .error .yamlSyntax
    else .ok { s with possible := s.possible.filter fun e => e.1 != s.flow }
  | none => .ok s

/-- Notes that a key may start here. -/
def saveKey (s : Scan) : Except Failure Scan :=
  if s.keyAllowed then do
    let required := s.flow = 0 && s.indent = (s.cursor.column : Int)
    let s ← s.dropKey
    let k : PossibleKey :=
      ⟨s.tokens.size, required, s.cursor.index, s.cursor.line, s.cursor.column⟩
    .ok { s with possible := (s.flow, k) :: s.possible }
  else .ok s

/-- Closes the open indentations deeper than a column, innermost first. -/
def closeTo (column : Int) : Int → List Int → Array Token → Int × List Int × Array Token
  | indent, [], tokens => (indent, [], tokens)
  | indent, i :: outer, tokens =>
    if column < indent then closeTo column i outer (tokens.push .blockEnd)
    else (indent, i :: outer, tokens)

/-- Closes the collections that stand deeper than a column; layout means nothing inside flow. -/
def unwind (s : Scan) (column : Int) : Scan :=
  if s.flow = 0 then
    let (indent, outer, tokens) := closeTo column s.indent s.outer s.tokens
    { s with indent, outer, tokens }
  else s

/-- Opens an indentation at a column unless it is open already. -/
def openAt (s : Scan) (column : Nat) (t : Token) : Scan :=
  if s.indent < (column : Int) then
    { s with outer := s.indent :: s.outer, indent := column, tokens := s.tokens.push t }
  else s

/-- The place of the next token: blanks, comments and line breaks are passed over. -/
def toNext : Nat → Scan → Scan
  | 0, s => s
  | fuel + 1, s =>
    let c := s.cursor.skip (· = ' ')
    let c := if c.peek = '#' then c.skip (!isBreakOrEnd ·) else c
    match c.lineBreak with
    | some (_, c) => toNext fuel { s with cursor := c, keyAllowed := s.keyAllowed || s.flow = 0 }
    | none => { s with cursor := c }

/-- A token of a fixed number of characters. -/
def mark (s : Scan) (t : Token) (n : Nat) : Scan := (s.push t).forward n

/-- A mark between documents. -/
def documentMark (s : Scan) (t : Token) : Except Failure Scan := do
  let s ← (s.unwind (-1)).dropKey
  .ok ({ s with keyAllowed := false }.mark t 3)

/-- The opening of a flow collection. -/
def openFlow (s : Scan) (t : Token) : Except Failure Scan := do
  let s ← s.saveKey
  .ok ({ s with flow := s.flow + 1, keyAllowed := true }.mark t 1)

/-- The closing of a flow collection. -/
def closeFlow (s : Scan) (t : Token) : Except Failure Scan := do
  let s ← s.dropKey
  -- One bracket too many leaves no level that a later key could belong to.
  if s.flow = 0 then .error .yamlSyntax
  else .ok ({ s with flow := s.flow - 1, keyAllowed := false }.mark t 1)

/-- The comma of a flow collection. -/
def flowEntry (s : Scan) : Except Failure Scan := do
  let s ← { s with keyAllowed := true }.dropKey
  .ok (s.mark .flowEntry 1)

/-- The dash of a block sequence. -/
def blockEntry (s : Scan) : Except Failure Scan := do
  if s.flow = 0 && !s.keyAllowed then .error .yamlSyntax
  else
    let s := if s.flow = 0 then s.openAt s.cursor.column .blockSequenceStart else s
    let s ← { s with keyAllowed := true }.dropKey
    .ok (s.mark .entry 1)

/-- The question mark of a key that is written out. -/
def keyMark (s : Scan) : Except Failure Scan := do
  if s.flow = 0 && !s.keyAllowed then .error .yamlSyntax
  else
    let s := if s.flow = 0 then s.openAt s.cursor.column .blockMappingStart else s
    let s ← { s with keyAllowed := s.flow = 0 }.dropKey
    .ok (s.mark .key 1)

/-- The colon of a value. If a key was possible on this line, it was one. -/
def valueMark (s : Scan) : Except Failure Scan := do
  match s.possible.lookup s.flow with
  | some k =>
    let possible := s.possible.filter fun e => e.1 != s.flow
    let opens := s.flow = 0 && s.indent < (k.column : Int)
    let before := s.tokens.extract 0 k.position
    let since := s.tokens.extract k.position s.tokens.size
    let before := if opens then before.push .blockMappingStart else before
    let s := { s with possible, keyAllowed := false, tokens := before.push .key ++ since }
    let s := if opens then { s with outer := s.indent :: s.outer, indent := k.column } else s
    .ok (s.mark .value 1)
  | none =>
    if s.flow = 0 && !s.keyAllowed then .error .yamlSyntax
    else
      let s := if s.flow = 0 then s.openAt s.cursor.column .blockMappingStart else s
      let s ← { s with keyAllowed := s.flow = 0 }.dropKey
      .ok (s.mark .value 1)

/-- The name after the sign of an anchor or an alias. -/
def anchorName (c : Cursor) : Except Failure (String × Cursor) :=
  let (name, c) := c.next.span isNameChar
  let ends := isGap c.peek || "?:,]\x7d%@`".toList.contains c.peek
  if name.isEmpty || !ends then .error .yamlSyntax else .ok (String.ofList name, c)

/-- The handle of a tag, from one exclamation mark to the next. -/
def tagHandle (c : Cursor) : Except Failure (String × Cursor) :=
  if c.peek != '!' then .error .yamlSyntax
  else if c.peek 1 = ' ' then .ok ("!", c.next)
  else
    let (name, c) := c.next.span isNameChar
    if c.peek = '!' then .ok (String.ofList ('!' :: (name ++ ['!'])), c.next)
    else .error .yamlSyntax

/-- Octets written as percent signs and two hexadecimal digits. -/
def uriOctets : Nat → Cursor → Except Failure (List UInt8 × Cursor)
  | 0, c => .ok ([], c)
  | fuel + 1, c =>
    if c.peek = '%' then
      match Text.hexValue? (c.peek 1), Text.hexValue? (c.peek 2) with
      | some a, some b => do
        let (more, c) ← uriOctets fuel (c.forward 3)
        .ok (UInt8.ofNat (16 * a + b) :: more, c)
      | _, _ => .error .yamlSyntax
    else .ok ([], c)

/-- A character of the part of a tag after its handle. -/
def isUriChar (c : Char) : Bool := c.isAlphanum || "-;/?:@&=+$,_.!~*'()[]%".toList.contains c

/-- The part of a tag after its handle. -/
def tagUri : Nat → Cursor → Except Failure (List Char × Cursor)
  | 0, c => .ok ([], c)
  | fuel + 1, c =>
    if c.peek = '%' then do
      let (octets, c) ← uriOctets c.rest.length c
      match String.fromUTF8? ⟨octets.toArray⟩ with
      | some text => do
        let (more, c) ← tagUri fuel c
        .ok (text.toList ++ more, c)
      | none => .error .yamlSyntax
    else if isUriChar c.peek then do
      let ch := c.peek
      let (more, c) ← tagUri fuel c.next
      .ok (ch :: more, c)
    else .ok ([], c)

/-- The part of a tag after its handle, which must not be empty. -/
def tagUriText (c : Cursor) : Except Failure (String × Cursor) := do
  let (text, after) ← tagUri (c.rest.length + 1) c
  if after.index = c.index then .error .yamlSyntax else .ok (String.ofList text, after)

/-- A tag. -/
def tagName (c : Cursor) : Except Failure (TagName × Cursor) := do
  let ch := c.peek 1
  let (name, c) ←
    if ch = '<' then do
      let (uri, c) ← tagUriText (c.forward 2)
      if c.peek = '>' then pure (TagName.mk none uri, c.next) else .error .yamlSyntax
    else if isGap ch then pure (TagName.mk none "!", c.next)
    else
      let word := (c.next.span (!isSpaceOrEnd ·)).1
      if word.contains '!' then do
        let (handle, c) ← tagHandle c
        let (uri, c) ← tagUriText c
        pure (TagName.mk (some handle) uri, c)
      else do
        let (uri, c) ← tagUriText c.next
        pure (TagName.mk (some "!") uri, c)
  if isSpaceOrEnd c.peek then .ok (name, c) else .error .yamlSyntax

/-- A number in a version directive. -/
def versionNumber (c : Cursor) : Except Failure (Nat × Cursor) :=
  let (digits, c) := c.span Char.isDigit
  if digits.isEmpty then .error .yamlSyntax
  else if Text.digitLimit < digits.length then .error .badNumber
  else .ok (digits.foldl (fun n d => 10 * n + (d.toNat - 48)) 0, c)

/-- A directive and the rest of its line. -/
def directive (c : Cursor) : Except Failure (Directive × Cursor) := do
  let (name, c) := c.next.span isNameChar
  if name.isEmpty || !isSpaceOrEnd c.peek then .error .yamlSyntax
  else
    let (d, c) ←
      if name = ['Y', 'A', 'M', 'L'] then do
        let (major, c) ← versionNumber (c.skip (· = ' '))
        if c.peek != '.' then .error .yamlSyntax
        else
          let (minor, c) ← versionNumber c.next
          if isSpaceOrEnd c.peek then pure (Directive.version major minor, c)
          else .error .yamlSyntax
      else if name = ['T', 'A', 'G'] then do
        let (handle, c) ← tagHandle (c.skip (· = ' '))
        if c.peek != ' ' then .error .yamlSyntax
        else
          let (uri, c) ← tagUriText (c.skip (· = ' '))
          if isSpaceOrEnd c.peek then pure (Directive.tag handle uri, c)
          else .error .yamlSyntax
      else pure (Directive.other, c.skip (!isBreakOrEnd ·))
    let c ← c.endOfLine
    .ok (d, c)

/-- A token that may be a key by itself. -/
def keyLike (s : Scan) (read : Cursor → Except Failure (Token × Cursor)) : Except Failure Scan := do
  let s ← s.saveKey
  let (t, c) ← read s.cursor
  .ok ({ s with cursor := c, keyAllowed := false }.push t)

/-- Whether a plain scalar may start ahead. -/
def plainAhead (s : Scan) : Bool :=
  let ch := s.cursor.peek
  (!isGap ch && !"-?:,[]\x7b\x7d#&*!|>'\"%@`".toList.contains ch) ||
    (!isGap (s.cursor.peek 1) && (ch = '-' || (s.flow = 0 && (ch = '?' || ch = ':'))))

/-- The token ahead, not at the end. -/
def token (s : Scan) : Except Failure Scan := do
  let c := s.cursor
  let ch := c.peek
  let spaced := isGap (c.peek 1)
  if ch = '%' && c.column = 0 then
    let s ← (s.unwind (-1)).dropKey
    let (d, c) ← directive c
    .ok ({ s with cursor := c, keyAllowed := false }.push (.directive d))
  else if c.column = 0 && c.atMark '-' then s.documentMark .documentStart
  else if c.column = 0 && c.atMark '.' then s.documentMark .documentEnd
  else if ch = '[' then s.openFlow .flowSequenceStart
  else if ch = '\x7b' then s.openFlow .flowMappingStart
  else if ch = ']' then s.closeFlow .flowSequenceEnd
  else if ch = '\x7d' then s.closeFlow .flowMappingEnd
  else if ch = ',' then s.flowEntry
  else if ch = '-' && spaced then s.blockEntry
  else if ch = '?' && (s.flow != 0 || spaced) then s.keyMark
  else if ch = ':' && (s.flow != 0 || spaced) then s.valueMark
  else if ch = '*' then s.keyLike fun c => (anchorName c).map fun (n, c) => (.alias n, c)
  else if ch = '&' then s.keyLike fun c => (anchorName c).map fun (n, c) => (.anchor n, c)
  else if ch = '!' then s.keyLike fun c => (tagName c).map fun (n, c) => (.tag n, c)
  else if (ch = '|' || ch = '>') && s.flow = 0 then
    let s ← { s with keyAllowed := true }.dropKey
    let (text, c) ← blockScalar (ch = '>') s.indent s.cursor.next
    .ok ({ s with cursor := c }.push (.scalar text false))
  else if ch = '\'' || ch = '"' then
    s.keyLike fun c => (quotedScalar (ch = '"') c).map fun (t, c) => (.scalar t false, c)
  else if s.plainAhead then
    let s ← s.saveKey
    let (text, broke, c) := plainScalar (s.flow != 0) s.indent s.cursor
    .ok ({ s with cursor := c, keyAllowed := broke }.push (.scalar text true))
  else .error .yamlSyntax

/-- The tokens that no key can be put in before any more. -/
def settled (s : Scan) : Array Token :=
  let open? (e : Nat × PossibleKey) : Option Nat :=
    if s.isStale e.2 then none else some e.2.position
  match (s.possible.filterMap open?).min? with
  | some position => s.tokens.extract 0 position
  | none => s.tokens

/-- The reading one token on, and whether it has come to the end. -/
def advance (s : Scan) : Except Failure (Scan × Bool) := do
  let s := toNext (s.cursor.rest.length + 1) s
  let s ← s.dropStale
  let s := s.unwind s.cursor.column
  if s.cursor.rest.isEmpty then .ok (← (s.unwind (-1)).dropKey, true)
  else .ok (← s.token, false)

end Scan

/-- The tokens that could be read, and the failure that the reading stopped with, if it did not come
to the end. -/
structure Scanned where
  tokens : Array Token
  failure : Option Failure := none

/-- What a step comes to: the end, or the tokens read from then on. -/
def Scanned.after (s : Scan) (next : Scan → Scanned) : Except Failure (Scan × Bool) → Scanned
  | .error f => ⟨s.settled, some f⟩
  | .ok (s, true) => ⟨s.tokens, none⟩
  | .ok (s, false) => next s

/-- All tokens from here to the end. -/
def Scan.run : Nat → Scan → Scanned
  | 0, s => ⟨s.settled, some .yamlSyntax⟩
  | fuel + 1, s => Scanned.after s (run fuel) s.advance

/-- The tokens of a whole metadata block. A byte order mark may open it. -/
def Scanned.ofText (text : List Char) : Except Failure Scanned :=
  if text.all isAllowed then
    let c : Cursor := ⟨text, 0, 0, 0⟩
    let c := if c.peek.toNat = 0xFEFF then c.next else c
    .ok (Scan.run (2 * text.length + 2) ⟨c, #[], 0, -1, [], true, []⟩)
  else .error .yamlSyntax

end Typeset.Yaml
