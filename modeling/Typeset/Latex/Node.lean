/-! The parts of a LaTeX expression. -/

namespace Typeset.Latex

/-- One part of a LaTeX expression. A part that is rebuilt from its source keeps the source. -/
inductive Node
  /-- Plain characters. -/
  | chars (text : List Char)
  /-- A comment, with the line break and white space that it swallows. -/
  | comment (source : List Char)
  /-- A run of characters that stands for something else. -/
  | special (source : List Char)
  /-- Parts in braces or brackets. -/
  | group (opener : Char) (body : List Node)
  /-- Parts in math delimiters. -/
  | math (source : List Char) (body : List Node)
  /-- A command with the arguments that its signature gives it. -/
  | command (name : String) (source : List Char) (arguments : List Node)
  /-- An environment without its arguments. -/
  | environment (name : String) (source : List Char) (body : List Node)

/-- The characters of a node that is nothing but characters. -/
def Node.chars? : Node → Option (List Char)
  | .chars text => some text
  | _ => none

/-- Whether a node is text in brackets. -/
def Node.isOptional : Node → Bool
  | .group opener _ => opener == '['
  | _ => false

mutual

/-- The source of a node; groups give theirs without their braces. -/
def Node.verbatim : Node → List Char
  | .chars text => text
  | .comment source => source
  | .special source => source
  | .group _ body => Node.verbatimAll body
  | .math source _ => source
  | .command _ source _ => source
  | .environment _ source _ => source

/-- The sources of nodes, one after the other. -/
def Node.verbatimAll : List Node → List Char
  | [] => []
  | node :: rest => node.verbatim ++ Node.verbatimAll rest

end

end Typeset.Latex
