import Typeset.Text.Blank

/-! HTML in Markdown: tags inside text, and blocks of lines that are taken as they stand. A reader
here takes the text from the place where its part begins and gives back what follows the part. -/

namespace Typeset.Markdown.Html

/-- Elements whose content ends only with their closing tag. -/
def rawElements : List String := ["pre", "script", "style", "textarea"]

/-- Elements whose tags open a block that ends with a blank line. -/
def blockElements : List String :=
  ["address", "article", "aside", "base", "basefont", "blockquote", "body", "caption", "center",
    "col", "colgroup", "dd", "details", "dialog", "dir", "div", "dl", "dt", "fieldset",
    "figcaption", "figure", "footer", "form", "frame", "frameset", "h1", "h2", "h3", "h4", "h5",
    "h6", "head", "header", "hr", "html", "iframe", "legend", "li", "link", "main", "menu",
    "menuitem", "meta", "nav", "noframes", "ol", "optgroup", "option", "p", "param", "section",
    "source", "summary", "table", "tbody", "td", "tfoot", "th", "thead", "title", "tr", "track",
    "ul"]

/-- The name of a tag, and what follows it. -/
def tagName? : List Char → Option (List Char × List Char)
  | [] => none
  | c :: rest =>
    if c.isAlpha then
      let more := rest.takeWhile fun c => c.isAlphanum || c == '-'
      some (c :: more, rest.drop more.length)
    else none

/-- The value of an attribute: quoted, or a word. -/
def value? (cs : List Char) : Option (List Char) :=
  let quoted (mark : Char) (rest : List Char) : Option (List Char) :=
    match rest.dropWhile (· != mark) with
    | _ :: after => some after
    | [] => none
  match cs with
  | '"' :: rest => quoted '"' rest
  | '\'' :: rest => quoted '\'' rest
  | _ =>
    let word := cs.takeWhile fun c =>
      !(Text.isBlank c || ['"', '\'', '=', '<', '>', '\x60'].contains c)
    if word.isEmpty then none else some (cs.drop word.length)

/-- The equals sign and value of an attribute, if it has them. -/
def afterValue (cs : List Char) : List Char :=
  match cs.dropWhile Text.isBlank with
  | '=' :: rest => (value? (rest.dropWhile Text.isBlank)).getD cs
  | _ => cs

/-- White space and an attribute. -/
def attribute? (cs : List Char) : Option (List Char) :=
  let body := cs.dropWhile Text.isBlank
  if body.length = cs.length then none
  else match body with
    | c :: rest =>
      if c.isAlpha || c == '_' || c == ':' then
        some (afterValue (rest.dropWhile fun c => c.isAlphanum || "_.:-".toList.contains c))
      else none
    | [] => none

/-- A text after the attributes at its front. -/
def afterAttributes (cs : List Char) : List Char :=
  match attribute? cs with
  | some rest => if rest.length < cs.length then afterAttributes rest else cs
  | none => cs
termination_by cs.length

/-- A text after a mark that is not at its very front. -/
def afterContent? (mark cs : List Char) : Option (List Char) :=
  match cs with
  | [] => none
  | _ :: rest => (Text.cut? mark rest).map Prod.snd

/-- The rest of a comment. There are no two hyphens in it but the last, and it cannot be mistaken
for an empty one. -/
def comment? (cs : List Char) : Option (List Char) :=
  if Text.startsWith ['>'] cs || Text.startsWith ['-', '>'] cs then none
  else match Text.cut? ['-', '-'] cs with
    | some (content, '>' :: rest) => if content.isEmpty then none else some rest
    | _ => none

/-- The rest of a declaration, of a character data section or of a comment. -/
def declaration? (cs : List Char) : Option (List Char) :=
  match cs with
  | '-' :: '-' :: rest => comment? rest
  | '[' :: 'C' :: 'D' :: 'A' :: 'T' :: 'A' :: '[' :: rest => afterContent? [']', ']', '>'] rest
  | c :: rest => if c.isUpper then afterContent? ['>'] rest else none
  | [] => none

/-- A tag, comment, declaration or instruction at the front of a text. -/
def inline? (cs : List Char) : Option (List Char) :=
  match cs with
  | '<' :: '!' :: rest => declaration? rest
  | '<' :: '?' :: rest => afterContent? ['?', '>'] rest
  | '<' :: '/' :: rest => do
    let (_, after) ← tagName? rest
    match after.dropWhile Text.isBlank with
    | '>' :: after => some after
    | _ => none
  | '<' :: rest => do
    let (_, after) ← tagName? rest
    match (afterAttributes after).dropWhile Text.isBlank with
    | '>' :: after => some after
    | '/' :: '>' :: after => some after
    | _ => none
  | _ => none

/-- Whether a tag opens a link. -/
def opensLink (tag : List Char) : Bool :=
  ["<a ", "<a>", "<A ", "<A>"].any fun s => Text.startsWith s.toList tag

/-- Whether a tag closes a link. -/
def closesLink (tag : List Char) : Bool :=
  ["</a ", "</a>", "</A ", "</A>"].any fun s => Text.startsWith s.toList tag

/-- Whether a line begins like an HTML block, with a tag's name or with a mark. -/
def beginsBlock (line : List Char) : Bool :=
  let spaces := line.takeWhile (· == ' ')
  spaces.length ≤ 3 &&
    match line.drop spaces.length with
    | '<' :: '?' :: _ => true
    | '<' :: '!' :: rest =>
      Text.startsWith "--".toList rest || Text.startsWith "[CDATA[".toList rest ||
        rest.head?.any Char.isUpper
    | '<' :: '/' :: rest => (tagName? rest).isSome
    | '<' :: rest => (tagName? rest).isSome
    | _ => false

/-- Where an HTML block ends. -/
inductive Extent
  /-- With the line that holds a mark; the first line counts from a place on. -/
  | line (mark rest : List Char)
  /-- Before a blank line. -/
  | blank
  deriving DecidableEq, Repr

/-- The HTML block that a line opens, and whether it may interrupt a paragraph. A tag of any other
element opens one only if it stands alone on its line, and never inside a paragraph. -/
def block? (line : List Char) : Option (Extent × Bool) :=
  let spaces := line.takeWhile (· == ' ')
  let alone (rest : List Char) : Bool :=
    match rest.dropWhile fun c => c == ' ' || c == '\t' with
    | '>' :: rest => rest.all fun c => c == ' ' || c == '\t'
    | _ => false
  let ifAlone (rest : List Char) := if alone rest then some (Extent.blank, false) else none
  let isAmong (name : List Char) (elements : List String) : Bool :=
    elements.contains (String.ofList (name.map Char.toLower))
  if 3 < spaces.length then none
  else match line.drop spaces.length with
    | '<' :: '!' :: '-' :: '-' :: rest => some (.line "-->".toList rest, true)
    | '<' :: '?' :: rest => some (.line "?>".toList rest, true)
    | '<' :: '!' :: '[' :: 'C' :: 'D' :: 'A' :: 'T' :: 'A' :: '[' :: rest =>
      some (.line "]]>".toList rest, true)
    | '<' :: '!' :: c :: rest => if c.isUpper then some (.line ['>'] rest, true) else none
    | '<' :: '/' :: rest => do
      let (name, after) ← tagName? rest
      if isAmong name blockElements then some (.blank, true) else ifAlone after
    | '<' :: rest => do
      let (name, after) ← tagName? rest
      if isAmong name rawElements then
        some (.line ("</".toList ++ name.map Char.toLower ++ ['>']) after, true)
      else if isAmong name blockElements then some (.blank, true)
      else ifAlone (afterAttributes after)
    | _ => none

end Typeset.Markdown.Html
