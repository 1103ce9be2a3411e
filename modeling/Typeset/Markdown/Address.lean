import Typeset.Markdown.CharacterReference

/-! Link addresses and titles, as they stand after `[text](` and after `[label]:`. -/

namespace Typeset.Markdown

/-- The punctuation that a backslash before it makes plain. -/
def isPunctuation (c : Char) : Bool :=
  let n := c.toNat
  (33 ≤ n && n ≤ 47) || (58 ≤ n && n ≤ 64) || (91 ≤ n && n ≤ 96) || (123 ≤ n && n ≤ 126)

/-- A text without the backslashes that make punctuation plain. -/
def unescape : List Char → List Char
  | '\\' :: c :: rest =>
    if isPunctuation c then c :: unescape rest else '\\' :: unescape (c :: rest)
  | c :: rest => c :: unescape rest
  | [] => []

/-- A byte that stands for itself in an address. -/
def isAddressByte (b : UInt8) : Bool :=
  let c := Char.ofNat b.toNat
  c.isAlphanum || "_.-~:/?#@!$&()*+,;=%".toList.contains c

/-- A byte of an address: itself, or its number in hexadecimal after a percent sign. -/
def addressByte (b : UInt8) : List Char :=
  if isAddressByte b then [Char.ofNat b.toNat]
  else '%' :: (Text.hexDigits 2 b.toNat).map Char.toUpper

/-- An address as a link carries it: character references decoded, and all that is not allowed in
an address written as percent signs and numbers. -/
def address (cs : List Char) : List Char :=
  ((decodeReferences cs).flatMap String.utf8EncodeChar).flatMap addressByte

/-- What a link leads to. -/
structure Target where
  address : List Char
  title : Option (List Char)
  deriving DecidableEq, Repr

/-- Spaces and tabs. -/
def isGap (c : Char) : Bool := c == ' ' || c == '\t'

/-- A text after gaps and at most one line end among them. -/
def afterGap (cs : List Char) : List Char :=
  match cs.dropWhile isGap with
  | '\n' :: rest => rest.dropWhile isGap
  | rest => rest

/-- An address in angle brackets, and what follows it. -/
def bracketed? : List Char → Option (List Char × List Char)
  | '<' :: rest =>
    let word := rest.takeWhile fun c => not (['<', '>', '\n', '\\', '\x00'].contains c)
    match rest.drop word.length with
    | '>' :: after => some (word, after)
    | _ => none
  | _ => none

/-- The deepest nesting of parentheses in an address. -/
def parenthesisLimit : Nat := 20

/-- An address without brackets, up to white space or the parenthesis that closes the link. Its own
parentheses are balanced or escaped. -/
def balanced? (depth : Nat) : List Char → Option (List Char × List Char)
  | [] => if depth = 0 then some ([], []) else none
  | '\\' :: c :: rest =>
    if isPunctuation c then
      (balanced? depth rest).map fun (word, after) => ('\\' :: c :: word, after)
    else (balanced? depth (c :: rest)).map fun (word, after) => ('\\' :: word, after)
  | c :: rest =>
    if isGap c || c == '\n' then if depth = 0 then some ([], c :: rest) else none
    else if c == '(' then
      if depth < parenthesisLimit then
        (balanced? (depth + 1) rest).map fun (word, after) => (c :: word, after)
      else none
    else if c == ')' then
      match depth with
      | 0 => some ([], c :: rest)
      | depth + 1 => (balanced? depth rest).map fun (word, after) => (c :: word, after)
    else (balanced? depth rest).map fun (word, after) => (c :: word, after)

/-- A text up to a quotation mark that no backslash escapes, and what follows the mark. -/
def unescapedQuote? (mark : Char) : List Char → Option (List Char × List Char)
  | [] => none
  | '\\' :: c :: rest =>
    if isPunctuation c then
      (unescapedQuote? mark rest).map fun (text, after) => ('\\' :: c :: text, after)
    else (unescapedQuote? mark (c :: rest)).map fun (text, after) => ('\\' :: text, after)
  | c :: rest =>
    if c = mark then some ([], rest)
    else if c = '\x00' then none
    else (unescapedQuote? mark rest).map fun (text, after) => (c :: text, after)

/-- A text up to the last quotation mark in it, and what follows the mark. -/
def lastQuote? (mark : Char) (cs : List Char) : Option (List Char × List Char) :=
  let reach := cs.takeWhile (· != '\x00')
  match reach.reverse.dropWhile (· != mark) with
  | [] => none
  | _ :: text => some (text.reverse, cs.drop (text.length + 1))

/-- A title after white space, without its escapes, and what follows it. -/
def title? (cs : List Char) : Option (List Char × List Char) :=
  let body := cs.dropWhile fun c => isGap c || c == '\n'
  if body.length = cs.length then none
  else match body with
    | c :: rest =>
      if c = '"' || c = '\'' then
        ((unescapedQuote? c rest).orElse fun _ => lastQuote? c rest).map fun (text, after) =>
          (unescape text, after)
      else none
    | [] => none

/-- A title that is not empty. -/
def nonempty (title : List Char) : Option (List Char) := if title.isEmpty then none else some title

/-- What stands in the parentheses of a link, and what follows them. -/
def inlineTarget? (cs : List Char) : Option (Target × List Char) := do
  let start := afterGap cs
  let (word, after) ← if start.head? = some '<' then bracketed? start else balanced? 0 start
  let (title, after) := (title? after).getD ([], after)
  match after.dropWhile Text.isBlank with
  | ')' :: rest => some (⟨address (unescape word), nonempty title⟩, rest)
  | _ => none

/-- The rest of a text after gaps and a line end. -/
def afterLine? (cs : List Char) : Option (List Char) :=
  match cs.dropWhile isGap with
  | '\n' :: rest => some rest
  | _ => none

/-- A character that a blank line may hold. -/
def isLineBlank (c : Char) : Bool := isGap c || c == '\x0b' || c == '\x0c'

/-- A text up to its first blank line. -/
def beforeBlankLine : List Char → List Char
  | [] => []
  | c :: rest =>
    if c = '\n' && (rest.dropWhile isLineBlank).head? = some '\n' then [c]
    else c :: beforeBlankLine rest

/-- What stands after the colon of a link definition, and the lines after the definition. A title
has to end its line and cannot cross a blank one; without a title the address has to end its
line. -/
def definitionTarget? (cs : List Char) : Option (Target × List Char) := do
  let start := afterGap cs
  let (word, after) ←
    if start.head? = some '<' then bracketed? start
    else
      let word := start.takeWhile (!Text.isBlank ·)
      if word.isEmpty then none else some (word, start.drop word.length)
  let titled := do
    let reach := beforeBlankLine after
    let (title, rest) ← title? reach
    let rest ← afterLine? rest
    some (nonempty title, after.drop (reach.length - rest.length))
  let (title, rest) ← titled.orElse fun _ => (afterLine? after).map fun rest => (none, rest)
  some (⟨address (unescape word), title⟩, rest)

end Typeset.Markdown
