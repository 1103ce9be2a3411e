import Typeset.Markdown.Document
import Typeset.Source.Definitions
import Typeset.Token.Normal
import Typeset.Text.Case
import Typeset.Text.Blank

/-! A whole source document as tokens: its metadata block, its text, and the definitions on lines of
their own, in this order. -/

namespace Typeset.Source

/-! The metadata block at the start of a document, between a line of dashes and a line of dashes or
dots. -/

section FrontMatter

/-- Whether a line ends a metadata block. -/
def endsBlock (line : List Char) : Bool :=
  let text := Text.trim Text.isBlank line
  text == ['-', '-', '-'] || text == ['.', '.', '.']

/-- Lines before the first that ends a block, and those after it; none if no line does. -/
def untilEnd : List (List Char) → Option (List (List Char) × List (List Char))
  | [] => none
  | line :: rest =>
    if endsBlock line then some ([], rest)
    else (untilEnd rest).map fun (block, after) => (line :: block, after)

/-- The first line of a document with a metadata block. -/
def opensBlock (cs : List Char) : Bool :=
  Text.startsWith ['-', '-', '-', '\n'] cs || Text.startsWith ['-', '-', '-', '\r', '\n'] cs

/-- A document's metadata block, if it opens with a closed one, and the rest. -/
def splitFrontMatter (cs : List Char) : Option (List Char) × List Char :=
  if opensBlock cs then
    match untilEnd ((Text.linesWithEnds cs).drop 1) with
    | some (block, rest) => (some block.flatten, rest.flatten)
    | none => (none, cs)
  else (none, cs)

end FrontMatter

section Document

/-- The token of a footnote definition. -/
def NoteDefinition.token (note : NoteDefinition) (children : List Value) : Value :=
  Token.markedBranch "footnote_definition"
    [("identifier", .str note.identifier), ("label", .str note.identifier)] children

/-- The names by which the text may refer to the definitions taken out of it. -/
def Lifted.known (lifted : Lifted) : List String :=
  lifted.links.map fun link => Text.lower link.label

/-- The tokens of a source document, by a reader of Markdown. -/
def tokensBy (read : List Char → List Value) (source : List Char) :
    Except Failure (List Value) := do
  let (front, body) := splitFrontMatter source
  let lifted := liftDefinitions body
  let blocks (text : List Char) := Token.canonical lifted.known (read text)
  let body ← blocks lifted.text
  let notes ← lifted.notes.mapM fun note => do return note.token (← blocks note.body.toList)
  let front := (front.map fun block => Token.leaf "frontmatter" (String.ofList block)).toList
  return front ++ body ++ lifted.links.map LinkDefinition.token ++ notes

/-- The tokens of a source document. -/
def tokens (source : List Char) : Except Failure (List Value) := tokensBy Markdown.tokens source

end Document

end Typeset.Source
