import Typeset.Markdown.Address
import Typeset.Token.Basic

/-! The parts of a line of text, and the tokens they are handed on as. -/

namespace Typeset.Markdown

/-- The formats that a stretch of text can have. -/
inductive Format
  | emphasis
  | strong
  | strikethrough
  | mark
  | superscript
  | subscript
  deriving DecidableEq, Repr

/-- The kind of token of a format. -/
def Format.kind : Format → String
  | .emphasis => "emphasis"
  | .strong => "strong"
  | .strikethrough => "strikethrough"
  | .mark => "mark"
  | .superscript => "superscript"
  | .subscript => "subscript"

/-- One part of a line of text. -/
inductive Inline
  | text (raw : List Char)
  | code (raw : List Char)
  | html (raw : List Char)
  /-- A formula, and how many characters it takes up where that is known. -/
  | math (raw : List Char) (span : Option Nat)
  /-- A formula that is set apart like a block. -/
  | displayMath (raw : List Char)
  | formatted (format : Format) (children : List Inline)
  /-- A link or an image. One that is found by its label says so where it has no title. -/
  | link (image byLabel : Bool) (target : Target) (children : List Inline)
  | softBreak
  | hardBreak

/-- The text of characters as a value. -/
def ofChars (cs : List Char) : Value := .str (String.ofList cs)

/-- The attributes of a link. -/
def linkAttrs (byLabel : Bool) (target : Target) : List (String × Value) :=
  ("url", ofChars target.address) ::
    match target.title with
    | some title => [("title", ofChars title)]
    | none => if byLabel then [("title", .null)] else []

mutual

/-- The token of a part of a line. -/
def Inline.token : Inline → Value
  | .text raw => Token.text (String.ofList raw)
  | .code raw => Token.leaf "codespan" (String.ofList raw)
  | .html raw => Token.leaf "inline_html" (String.ofList raw)
  | .math raw span =>
    match span with
    | some n =>
      .object [("type", .str "inline_math"), ("raw", ofChars raw),
        ("attrs", .object [("span", .int n)])]
    | none => Token.leaf "inline_math" (String.ofList raw)
  | .displayMath raw => Token.leaf "block_math" (String.ofList raw)
  | .formatted format children => Token.branch format.kind (Inline.tokens children)
  | .link image byLabel target children =>
    Token.markedBranch (if image then "image" else "link") (linkAttrs byLabel target)
      (Inline.tokens children)
  | .softBreak => .object [("type", .str "softbreak")]
  | .hardBreak => .object [("type", .str "linebreak")]

/-- The tokens of the parts of a line. -/
def Inline.tokens : List Inline → List Value
  | [] => []
  | part :: rest => part.token :: Inline.tokens rest

end

/-- Parts with neighbouring texts joined, except where that would make a character reference of
characters that were none. -/
def joinText : List Inline → List Inline
  | [] => []
  | .text a :: .text b :: rest =>
    if joinsReference a b then .text a :: joinText (.text b :: rest)
    else joinText (.text (a ++ b) :: rest)
  | part :: rest => part :: joinText rest
termination_by parts => parts.length

end Typeset.Markdown
