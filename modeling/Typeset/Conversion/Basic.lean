import Typeset.Failure.Raised
import Typeset.Json.Printer
import Typeset.Metadata
import Typeset.Token.Collect
import Typeset.Source.Document
import Typeset.Math.Convert
import Typeset.Render.Document

/-! A Markdown document, or the tokens of one, as a Typst document. A conversion that cannot go on
says so in a last issue, which no other conversion reports. -/

namespace Typeset

/-- What a conversion starts from. -/
inductive Input
  | markdown (text : String)
  | tokens (items : List Value)

/-- A value to start a conversion from: text is Markdown, and a list is taken for tokens. -/
def Input.ofValue : Value → Except Failure Input
  | .str text => .ok (.markdown text)
  | .list items => .ok (.tokens items)
  | v => .error (.refusedType ("source must be Markdown text or a token list, got " ++ v.kindName))

/-- How documents are converted. -/
structure Converter where
  settings : Settings := {}
  /-- How LaTeX becomes Typst math. -/
  convertMath : String → Except Failure String := Math.convert
  /-- How Markdown becomes tokens. -/
  read : List Char → Except Failure (List Value) := Source.tokens
  /-- How the YAML of a metadata block is loaded. -/
  loadYaml : Yaml.Loader := Yaml.load
  /-- What the codes of languages and countries are looked up in. -/
  registers : Locale.Registers := Locale.registers

/-- A converted document. -/
structure Converted where
  text : String
  metadata : Metadata

/-- The metadata block among tokens: the text of the first token of its kind. Nothing but objects
may stand before it. -/
def metadataBlock : List Value → Except Failure Value
  | [] => .ok .null
  | token :: rest => do
    if (← token.field "type" .null).isText "frontmatter" then token.field "raw" (.str "")
    else metadataBlock rest

namespace Converter

/-- What rendering looks things up in. -/
def environment (c : Converter) (definitions : Targets Definition) (footnotes : Targets Footnote) :
    Render.Environment where
  warnUnknownInline := c.settings.warnUnknownInline.truthy
  definitions := definitions
  footnotes := footnotes
  convertMath := c.convertMath

/-- The title in the leading heading, where it is asked for. -/
def leadingTitle (c : Converter) (definitions : Targets Definition) (tokens : Value) :
    Reported (Option Token.LeadingTitle) :=
  if c.settings.leadingHeadingAsTitle.truthy then Token.leadingTitle definitions tokens
  else ⟨none, []⟩

/-- The token tree of a conversion as it is shown where that is asked for. -/
def dump (c : Converter) (tokens : List Value) : Except Failure String :=
  if c.settings.dumpTokens.truthy then
    (Json.dumpsTree (.list tokens)).map fun text =>
      "[typstify] Normalized AST: " ++ text ++ "\n"
  else .ok ""

/-- The document of some tokens: definitions first, then footnotes, metadata and the body. -/
def ofTokens (c : Converter) (tokens : List Value) : Rendering Converted := do
  let _ ← c.dump tokens
  let definitions ← Rendering.ofReported (Token.definitions (.list tokens))
  let footnotes ← Rendering.ofReported (Token.footnotes (.list tokens))
  let front ← Rendering.ofReported (← FrontMatter.decodeValue (← metadataBlock tokens) c.loadYaml)
  let leading ← Rendering.ofReported (c.leadingTitle definitions (.list tokens))
  let title := leading.map (·.title)
  let index := (leading.map fun t => Value.int t.index).getD .null
  let metadata ← Metadata.merge c.settings front (.ofText? title) c.registers
  let text ← Render.document (c.environment definitions footnotes) metadata (.list tokens) index
  pure { text, metadata }

/-- The tokens that a conversion starts from. -/
def tokensOf (c : Converter) : Input → Except Failure (List Value)
  | .markdown text => c.read text.toList
  | .tokens items => .ok items

/-- The last issue of a conversion that cannot go on. -/
def fatalIssue (stage : Stage) (message : String) (cause : Failure) : Issue where
  severity := .error
  code := .fatal
  message := message
  stage := stage
  cause := some cause

/-- A conversion that cannot go on: it reports the cause, and stops with a failure of its own. -/
def stop {α : Type} (cls : FailureClass) (code : FailureCode) (stage : Stage) (doing : String)
    (context : List (String × Value)) (cause : Failure) : Rendering α :=
  let message := doing ++ ": " ++ cause.text
  { outcome := .error (.reported cls code.name message (("stage", .str stage.name) :: context)
      (some cause))
    issues := [fatalIssue stage message cause] }

/-- The end of a conversion whose Markdown cannot be read. -/
def stopReading {α : Type} (input : Input) (cause : Failure) : Rendering α :=
  let size := match input with
    | .markdown text => [("source_length", Value.int text.length)]
    | .tokens _ => []
  stop .parse .parse .markdownParsing "Failed to parse Markdown" size cause

/-- The end of a conversion whose tokens give no document. -/
def stopConverting {α : Type} (cause : Failure) : Rendering α :=
  stop .conversion .conversion .conversion "Fatal error during conversion" [] cause

/-- The document of some input. -/
def run (c : Converter) (input : Input) : Rendering Converted :=
  match c.tokensOf input with
  | .error cause => stopReading input cause
  | .ok tokens => (c.ofTokens tokens).rescue stopConverting

end Converter

end Typeset
