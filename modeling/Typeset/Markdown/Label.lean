import Typeset.Markdown.Address
import Typeset.Text.Case

/-! The labels by which links name their definitions. -/

namespace Typeset.Markdown

/-- How many characters a label may have, an escaped one counted once. -/
def labelLimit : Nat := 500

/-- A label up to the bracket that closes it, and what follows the bracket. There are no brackets
inside but escaped ones. -/
def labelIn? (room : Nat) : List Char → Option (List Char × List Char)
  | [] => none
  | c :: rest =>
    if c = ']' then some ([], rest)
    else if c = '[' then none
    else match room with
      | 0 => none
      | room + 1 =>
        if c = '\\' then
          match rest with
          | d :: rest =>
            if d = '\n' then none
            else (labelIn? room rest).map fun (label, after) => (c :: d :: label, after)
          | [] => none
        else (labelIn? room rest).map fun (label, after) => (c :: label, after)

/-- A label up to the bracket that closes it. -/
def label? : List Char → Option (List Char × List Char) := labelIn? labelLimit

/-- Whether a text could be a label. -/
def isLabel (cs : List Char) : Bool :=
  match label? (cs ++ [']']) with
  | some (_, after) => after.isEmpty
  | none => false

/-- The form in which labels are compared: case and the kind of white space do not count. -/
def labelKey (label : List Char) : List Char :=
  Text.upperChars (Text.lowerFrom [] (List.intercalate [' '] (Text.pieces Text.isBlank label)))

/-- A link definition: the key of its label, and where it leads. -/
structure LinkTarget where
  key : List Char
  target : Target

/-- The target of a label. The first definition counts. -/
def findTarget? (targets : List LinkTarget) (label : List Char) : Option Target :=
  if targets.isEmpty then none
  else
    let key := labelKey label
    (targets.find? fun t => t.key == key).map LinkTarget.target

end Typeset.Markdown
