import Typeset.Latex.Signature
import Typeset.Text.Charset

/-! The tokens of LaTeX. -/

namespace Typeset.Latex

/-- One token of LaTeX. -/
inductive Token
  | char (c : Char)
  /-- Two line feeds, which end a run of white space. -/
  | emptyLine
  | command (name : String)
  /-- A math delimiter, which opens or closes. -/
  | delimiter (mark : List Char)
  | opening (name : String)
  | closing (name : String)
  | comment
  | opener (c : Char)
  | closer (c : Char)
  | special (run : List Char)
  deriving DecidableEq, Repr

/-- What is found at a place in LaTeX: a token with the white space before it, the input at the
token and after it; the end; a backslash that nothing follows; or an environment without a name. -/
inductive Scan
  | found (blanks : List Char) (token : Token) (start rest : List Char)
  | ended (blanks : List Char)
  | loneBackslash
  | malformed

/-- The white space at the start of an input, up to an empty line. -/
def blanks : List Char → List Char × List Char
  | [] => ([], [])
  | '\n' :: '\n' :: rest => ([], '\n' :: '\n' :: rest)
  | c :: rest =>
    if Text.isBlank c then (c :: (blanks rest).1, (blanks rest).2) else ([], c :: rest)

/-- A character that the name of an environment may have. -/
def isNameChar (c : Char) : Bool :=
  Text.isWordChar c || c == '*' || c == ' ' || c == '.' || c == '-'

/-- The name of an environment in its braces. -/
def environmentName? (input : List Char) : Option (String × List Char) :=
  match input.dropWhile Text.isBlank with
  | '\x7b' :: body =>
    let name := body.takeWhile isNameChar
    match body.drop name.length with
    | '\x7d' :: rest => if name.isEmpty then none else some (String.ofList name, rest)
    | _ => none
  | _ => none

/-- The input after a comment. The line break goes with the comment, and so does the white space
after it, unless another line break follows. -/
def afterComment (input : List Char) : List Char :=
  let isBreak (c : Char) : Bool := c == '\n' || c == '\r'
  match input.dropWhile fun c => !isBreak c with
  | [] => []
  | newline :: rest =>
    match rest with
    | c :: _ => if isBreak c then newline :: rest else rest.dropWhile Text.isBlank
    | [] => []

/-- The token at a backslash, given the input after it. -/
def escape (environments : Bool) (after : List Char) : Option (Token × List Char) :=
  match after with
  | [] => none
  | c :: rest =>
    if c == '(' || c == ')' || c == '[' || c == ']' then some (.delimiter ['\\', c], rest)
    else if Text.isLetter c then
      let name := after.takeWhile Text.isLetter
      let rest := after.drop name.length
      if environments && name == "begin".toList then
        (environmentName? rest).map fun (name, rest) => (.opening name, rest)
      else if environments && name == "end".toList then
        (environmentName? rest).map fun (name, rest) => (.closing name, rest)
      else some (.command (String.ofList name), (blanks rest).2)
    else some (.command (String.singleton c), rest)

/-- The token that an input starts with, if that is neither white space nor a backslash. -/
def plainToken (brackets inDollar : Bool) (c : Char) (rest : List Char) : Token × List Char :=
  if c == '%' then (.comment, afterComment rest)
  else if c == '\x7b' || (brackets && c == '[') then (.opener c, rest)
  else if c == '\x7d' || (brackets && c == ']') then (.closer c, rest)
  else if c == '$' then
    match rest with
    | '$' :: more => if inDollar then (.delimiter ['$'], rest) else (.delimiter ['$', '$'], more)
    | _ => (.delimiter ['$'], rest)
  else match special? (c :: rest) with
    | some run => (.special run, (c :: rest).drop run.length)
    | none => (.char c, rest)

/-- The next token. Brackets delimit groups only where asked for, environments are told from
commands only where asked for, and between single dollars two of them are not one delimiter. -/
def scan (brackets environments inDollar : Bool) (input : List Char) : Scan :=
  let (space, start) := blanks input
  match start with
  | [] => .ended space
  | '\n' :: '\n' :: rest => .found space .emptyLine start rest
  | '\\' :: after =>
    match escape environments after with
    | some (token, rest) => .found space token start rest
    | none => if after.isEmpty then .loneBackslash else .malformed
  | c :: rest =>
    let (token, rest) := plainToken brackets inDollar c rest
    .found space token start rest

end Typeset.Latex
