import Typeset.Latex.Node
import Typeset.Latex.Token

/-! Reading LaTeX into its parts. Every round of the reader takes at least one character, so as
many rounds as there are characters, and one for the end, always do. -/

namespace Typeset.Latex

/-- What ends a row of nodes. -/
inductive Closer
  | theEnd
  | brace (c : Char)
  | environment (name : String)
  | delimiter (mark : List Char)
  deriving DecidableEq, Repr

/-- Nodes together with the input after them; none for text that is not well-formed. -/
abbrev Reading := Option (List Node × List Char)

/-- Some nodes in front of those already read. -/
def Reading.after (nodes : List Node) (r : Reading) : Reading :=
  r.map fun (more, rest) => (nodes ++ more, rest)

/-- Characters as a node, if there are any. -/
def charsNode (text : List Char) : List Node := if text.isEmpty then [] else [.chars text]

/-- The part of an input before a place in it. -/
def upTo (input rest : List Char) : List Char := input.take (input.length - rest.length)

/-- The character that closes a group. -/
def closingOf (c : Char) : Char := if c == '[' then ']' else '\x7d'

/-- The delimiter that closes a math delimiter; none for one that can only close. -/
def matching? : List Char → Option (List Char)
  | ['\\', '('] => some ['\\', ')']
  | ['\\', '['] => some ['\\', ']']
  | ['\\', _] => none
  | mark => some mark

/-- The argument at a place: a group, or a single character, special or command. A closing brace
stands for an empty argument and is left where it is; comments are passed over, at most as many as
the first number says. -/
def argument (body : Char → List Char → Reading) (inDollar : Bool) :
    Nat → List Char → Option (Node × List Char)
  | 0, _ => none
  | rounds + 1, input =>
    match scan false false inDollar input with
    | .found _ token start rest =>
      match token with
      | .char c => some (.chars [c], rest)
      | .emptyLine => some (.chars ['\n', '\n'], rest)
      | .command name =>
        if name == "end" then none else some (.command name (upTo start rest) [], rest)
      | .delimiter mark =>
        if mark.head? == some '\\' then
          some (.command (String.ofList mark) (upTo start rest) [], rest)
        else some (.chars mark, rest)
      | .opener c => (body c rest).map fun (nodes, rest) => (.group c nodes, rest)
      | .closer _ => some (.chars [], start)
      | .special run => some (.special run, rest)
      | .comment => argument body inDollar rounds rest
      | .opening _ | .closing _ => none
    | _ => none

/-- The text in brackets at a place, if there is one; a `tight` one must stand there at once. -/
def optional (body : Char → List Char → Reading) (inDollar tight : Bool) (input : List Char) :
    Reading :=
  if tight && (input.head?.map Text.isBlank).getD false then some ([], input)
  else match scan true false inDollar input with
    | .found _ (.opener '[') _ rest =>
      (body '[' rest).map fun (nodes, rest) => ([.group '[' nodes], rest)
    | .found .. => some ([], input)
    | _ => none

/-- The star at a place, if there is one. -/
def star (inDollar : Bool) (input : List Char) : Reading :=
  match scan false true inDollar input with
  | .found _ (.char '*') _ rest => some ([.chars ['*']], rest)
  | .found .. => some ([], input)
  | _ => none

/-- What stands in the slots of a signature. -/
def slots (body : Char → List Char → Reading) (inDollar tight : Bool) :
    List Slot → List Char → Reading
  | [], input => some ([], input)
  | slot :: more, input => do
    let (taken, rest) ← match slot with
      | .star => star inDollar input
      | .optional => optional body inDollar tight input
      | .required => do
        let (node, rest) ← argument body inDollar (input.length + 1) input
        some ([node], rest)
    Reading.after taken (slots body inDollar tight more rest)

/-- Text up to the next occurrence of the character that it starts with. -/
def delimited? (input : List Char) : Reading :=
  match input.dropWhile Text.isBlank with
  | [] => none
  | delimiter :: text =>
    match text.dropWhile (· != delimiter) with
    | [] => none
    | _ :: rest => some ([.chars (text.takeWhile (· != delimiter))], rest)

/-- The input from the first occurrence of a text on. -/
def seek? (wanted : List Char) : List Char → Option (List Char)
  | [] => if wanted.isEmpty then some [] else none
  | c :: rest => if wanted.isPrefixOf (c :: rest) then some (c :: rest) else seek? wanted rest

/-- The arguments of a command. -/
def commandArguments (body : Char → List Char → Reading) (inDollar : Bool) (name : String)
    (input : List Char) : Reading :=
  match commandSignature name with
  | .slots row => slots body inDollar (name == "\\") row input
  | .verbatim => delimited? input

/-- The input after the arguments of an environment. -/
def afterArguments (body : Char → List Char → Reading) (inDollar : Bool) (name : String)
    (input : List Char) : Option (List Char) :=
  match environmentSignature name with
  | .slots row => (slots body inDollar false row input).map (·.2)
  | .verbatim => seek? ("\\end\x7b" ++ name ++ "\x7d").toList input

/-- The nodes up to what closes them, and the input after that. Characters not yet made a node are
handed on; white space goes with the characters before it. -/
def nodes : Nat → Closer → Bool → List Char → List Char → Reading
  | 0, _, _, _, _ => none
  | rounds + 1, closer, inDollar, pending, input =>
    let body (opener : Char) (rest : List Char) : Reading :=
      nodes rounds (.brace (closingOf opener)) inDollar [] rest
    match scan (closer == .brace ']') true inDollar input with
    | .malformed => none
    | .loneBackslash => if closer = .theEnd then some (charsNode pending, input) else none
    | .ended space => if closer = .theEnd then some (charsNode (pending ++ space), []) else none
    | .found space token start rest =>
      let here := charsNode (pending ++ space)
      let goOn (made : List Node) (rest : List Char) : Reading :=
        Reading.after (here ++ made) (nodes rounds closer inDollar [] rest)
      match token with
      | .char c => nodes rounds closer inDollar (pending ++ space ++ [c]) rest
      | .emptyLine => nodes rounds closer inDollar (pending ++ space ++ ['\n', '\n']) rest
      | .comment => goOn [.comment (upTo start rest)] rest
      | .special run => goOn [.special run] rest
      | .closer c => if closer = .brace c then some (here, rest) else none
      | .closing name => if closer = .environment name then some (here, rest) else none
      | .opener c => do
        let (inner, rest) ← body c rest
        goOn [.group c inner] rest
      | .opening name => do
        let rest ← afterArguments body inDollar name rest
        let (inner, rest) ← nodes rounds (.environment name) inDollar [] rest
        goOn [.environment name (upTo start rest) inner] rest
      | .delimiter mark =>
        if closer = .delimiter mark then some (here, rest)
        else do
          let close ← matching? mark
          let (inner, rest) ← nodes rounds (.delimiter close) (mark == ['$']) [] rest
          goOn [.math (upTo start rest) inner] rest
      | .command name => do
        let (arguments, rest) ← commandArguments body inDollar name rest
        goOn [.command name (upTo start rest) arguments] rest

/-- The nodes of an expression, and the input that they leave: a backslash at the very end is not
read. None for text that is not well-formed. -/
def read (input : List Char) : Reading := nodes (input.length + 1) .theEnd false [] input

end Typeset.Latex
