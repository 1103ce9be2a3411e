import Typeset.Date
import Typeset.Metadata
import Typeset.Render.Block

/-! The whole document: metadata first, then a helper for remote images if any were met, then the
body. Parts are separated by empty lines; without metadata and remote images the body stands
alone. -/

namespace Typeset.Render

/-- The blocks of the body: without the heading that became the title, if there is a title. -/
def bodyTokens (m : Metadata) (tokens leadingIndex : Value) : Except Failure (List Value) := do
  match leadingIndex with
  | .null => tokens.parts
  | index =>
    let title ← m.title.asText
    let all ← tokens.parts
    if Text.isBlankText title then return all
    else return (all.zipIdx.filter fun t => index.compareTo? t.2 != some .eq).map (·.1)

/-- Blocks with a text between those that show something. -/
def blocksText (env : Environment) (tokens : List Value) (indent : Int) (separator : String) :
    Rendering String := do
  return String.intercalate separator (← blocks env [] tokens indent)

/-- Whether the document has metadata of its own. -/
def hasMetadata (m : Metadata) : Bool :=
  m.title.truthy || m.authors.truthy || m.description.truthy || m.date.truthy || m.keywords.truthy

/-- An array of string literals. -/
def stringArray (v : Value) : Except Failure String := do
  let items ← (← v.parts).mapM fun item => do
    return "\"" ++ (← Markup.escapeStringValue item) ++ "\""
  return Markup.array items

/-- One argument of the document rule, if the value counts as present. -/
def argument (name : String) (v : Value) (write : Value → Except Failure String) :
    Except Failure (List String) := do
  if v.truthy then return [name ++ ": " ++ (← write v)] else return []

/-- Markup in brackets. -/
def bracketed (v : Value) : Except Failure String := do
  return "[" ++ (← Markup.escapeValue v) ++ "]"

/-- The rule that sets the document's metadata. -/
def documentRule (m : Metadata) (date : Option String) : Except Failure (List String) := do
  let title ← argument "title" m.title bracketed
  let author ← argument "author" m.authors stringArray
  let description ← argument "description" m.description bracketed
  let keywords ← argument "keywords" m.keywords stringArray
  let day := date.toList.map ("date: " ++ ·)
  let arguments := title ++ author ++ description ++ keywords ++ day
  let body :=
    if arguments.isEmpty then []
    else [String.intercalate ",\n" (arguments.map ("  " ++ ·))]
  return ["#set document("] ++ body ++ [")"]

/-- The expression for the document's date. -/
def documentDate (m : Metadata) : Rendering (Option String) := do
  if m.date.truthy then
    let date ← Rendering.ofReported (Date.parse (← m.date.asText))
    pure (some date)
  else pure none

/-- The report of metadata that cannot be written. -/
def brokenMetadata (cause : Failure) : Issue where
  severity := .error
  code := .metadataRenderError
  message := "Error building document metadata: " ++ cause.text
  stage := .outputBuilding
  cause := some cause

/-- The date and the document rule. Metadata that cannot be written is reported and left out; a date
that was read before stays known. -/
def dateAndRule (m : Metadata) : Rendering (Option String × List String) :=
  Rendering.rescue
    (do
      let date ← documentDate m
      Rendering.rescue
        (do
          let rule ← documentRule m date
          pure (date, rule))
        (fun cause => do
          Rendering.report (brokenMetadata cause)
          pure (date, [])))
    (fun cause => do
      Rendering.report (brokenMetadata cause)
      pure (none, []))

/-- The date and the document rule of a document that has metadata of its own. -/
def ownDateAndRule (m : Metadata) : Rendering (Option String × List String) :=
  if hasMetadata m then dateAndRule m else pure (none, [])

/-- The abstract as markup; none is empty. -/
def abstractMarkup (m : Metadata) : Except Failure String :=
  if m.abstract.truthy then Markup.escapeValue m.abstract else .ok ""

/-- The block that shows title, authors, date and abstract. -/
def titleBlock (m : Metadata) (date : Option String) : List String :=
  let parts :=
    (if m.title.truthy then ["#title() \\ \\"] else []) ++
    (if m.authors.truthy then ["#context document.author.join(\", \", last: \" & \") \\ \\"]
      else []) ++
    (if date.isSome && date != some "none" then ["#context document.date.display() \\ \\ "]
      else []) ++
    (if m.abstract.truthy then ["\\ *Abstract* \\", "#abstract"] else [])
  ["#align(center)[", "  " ++ String.intercalate " " parts, "]"]

/-- The rule that sets language and region. -/
def textRule (m : Metadata) : String :=
  let language := if m.language.truthy then ["lang: \"" ++ m.language.shown ++ "\""] else []
  let region := if m.region.truthy then ["region: \"" ++ m.region.shown ++ "\""] else []
  "#set text(" ++ String.intercalate ", " (language ++ region) ++ ")"

/-- The helper that shows remote images as links, and a note about it. -/
def remoteImageHelper : List String :=
  ["// ========================= WARNINGS =========================",
    "",
    "// ------------------------------------------------------------",
    "// NOTE: The conversion did not work perfectly due to intrinsic",
    "// Markdown to Typst limitations. The following custom",
    "// functions, set or show rules are used to visually display",
    "// these minor conversion warnings to the user.",
    "// ------------------------------------------------------------",
    "",
    "// EXTERNAL IMAGES WERE DETECTED!",
    "#let external-image(url) = \x7b",
    "  rect(radius: 4pt, inset: 20pt,)[",
    "    #align(center)[",
    "      #text()[",
    "        External image detected: \\",
    "        #link(url)",
    "      ]",
    "    ]",
    "  ]",
    "\x7d",
    "",
    "// ============================================================"]

/-- Lines with an empty one before more of them, if there are any yet. -/
def spacedAfter (before more : List String) : List String :=
  if before.isEmpty then more else before ++ "" :: more

/-- The lines before the body. -/
def headerLines (m : Metadata) (date : Option String) (rule : List String) (abstract : String)
    (remoteImage : Bool) : List String :=
  let owned := hasMetadata m
  let opening :=
    if owned then ["// ===============  FRONTMATTER  ===============", ""] ++ rule else []
  let abstracted :=
    if m.abstract.truthy then spacedAfter opening ["#let abstract = [" ++ abstract ++ "]"]
    else opening
  let shows := m.title.truthy || m.authors.truthy || m.date.truthy || m.abstract.truthy
  let titled := if owned && shows then abstracted ++ "" :: titleBlock m date else abstracted
  let worded :=
    if m.language.truthy || m.region.truthy then spacedAfter titled [textRule m] else titled
  let closed :=
    if owned then worded ++ ["", "//  ============================================"] else worded
  if remoteImage then spacedAfter closed remoteImageHelper else closed

/-- The text of the body. -/
def bodyText (env : Environment) (m : Metadata) (tokens leadingIndex : Value) :
    Rendering String := do
  blocksText env (← bodyTokens m tokens leadingIndex) 0 "\n\n"

/-- The document of some blocks with its metadata. The body comes first, for it tells whether remote
images were met, here or before. -/
def document (env : Environment) (m : Metadata) (tokens leadingIndex : Value)
    (metRemoteImage : Bool := false) : Rendering String :=
  let rendered := bodyText env m tokens leadingIndex
  rendered.andThen fun body => do
    let (date, rule) ← ownDateAndRule m
    let abstract ← abstractMarkup m
    let header := headerLines m date rule abstract (metRemoteImage || rendered.remoteImage)
    pure (lines (if body = "" then header else spacedAfter header [body]))

end Typeset.Render
