import Typeset.Token.PlainText
import Typeset.Issue
import Typeset.Value.Text
import Typeset.Value.Basic

/-! What the top level of a document defines: link targets, footnotes, and the title in its leading
heading. Each search stops at the first malformed token, reports it, and keeps what it has. -/

namespace Typeset.Token

/-- The end of a search: what it found, the issues on the way, and the failure that ended it. -/
structure Search (α : Type) where
  found : α
  issues : List Issue := []
  failure : Option Failure := none

/-- A search gone through token by token. -/
def searchFrom {α : Type} (step : Value → α → Except Failure (α × List Issue)) (found : α) :
    List Value → Search α
  | [] => ⟨found, [], none⟩
  | token :: rest =>
    match step token found with
    | .error f => ⟨found, [], some f⟩
    | .ok (found, issues) =>
      let later := searchFrom step found rest
      ⟨later.found, issues ++ later.issues, later.failure⟩

/-- A search through the tokens of any value. -/
def search {α : Type} (step : Value → α → Except Failure (α × List Issue)) (found : α)
    (tokens : Value) : Search α :=
  match tokens.tokens with
  | .ok items => searchFrom step found items
  | .error f => ⟨found, [], some f⟩

/-- The answer of a search, with a last issue if it broke off. -/
def Search.report {α : Type} (s : Search α) (severity : Severity) (code : IssueCode)
    (stage : Stage) (doing : String) : Reported α :=
  match s.failure with
  | none => ⟨s.found, s.issues⟩
  | some f =>
    ⟨s.found, s.issues ++
      [{ severity, code, message := doing ++ ": " ++ f.text, stage, cause := some f }]⟩

/-- The issue of a definition that takes the place of an earlier one. -/
def duplicateDefinition (identifier : String) (earlier url : Value) : Issue where
  severity := .warning
  code := .duplicateDefinition
  message := "Duplicate link/image definition found: [" ++ identifier ++
    "]; discarding earlier URL " ++ earlier.literal
  stage := .definitionCollection
  details := [("identifier", .str identifier), ("discarded_url", earlier), ("url", url)]

/-- Takes up one token in the search for definitions: the last one of an identifier counts. -/
def addDefinition (token : Value) (found : Targets Definition) :
    Except Failure (Targets Definition × List Issue) := do
  if (← token.field "type" .null).isText "definition" then
    let attrs ← token.field "attrs" (.object [])
    let identifier ← (← attrs.required "identifier").asText
    let key := Text.lower identifier
    let url ← attrs.field "url" (.str "")
    let title ← attrs.field "title" .null
    let label ← attrs.field "label" .null
    let issues := match found.find key with
      | some earlier => [duplicateDefinition identifier earlier.url url]
      | none => []
    return (found.set key ⟨.str identifier, url, title, label⟩, issues)
  else return (found, [])

/-- The link and image targets that tokens define. -/
def definitions (tokens : Value) : Reported (Targets Definition) :=
  (search addDefinition [] tokens).report .error .collectionFailed .definitionCollection
    "Error collecting definitions"

/-- The issue of a footnote that takes the place of an earlier one. -/
def duplicateFootnote (identifier : String) : Issue where
  severity := .warning
  code := .duplicateFootnote
  message := "Duplicate footnote definition found: [^" ++ identifier ++ "]"
  stage := .footnoteCollection
  details := [("identifier", .str identifier)]

/-- A footnote definition: its key, the footnote, and the issue of an earlier one. -/
structure FootnoteEntry where
  key : String
  issues : List Issue
  body : Except Failure Footnote

/-- Takes up one token in the search for footnotes. -/
def footnoteEntry (token : Value) (found : Targets Footnote) :
    Except Failure (Option FootnoteEntry) := do
  if (← token.field "type" .null).isText "footnote_definition" then
    let attrs ← token.field "attrs" (.object [])
    let identifier ← (← attrs.required "identifier").asText
    let key := Text.lower identifier
    let issues := match found.find key with
      | some _ => [duplicateFootnote identifier]
      | none => []
    let body := do
      let children ← (← token.field "children" (.list [])).parts
      .ok ⟨.str identifier, .list children, ← attrs.field "label" .null⟩
    return some ⟨key, issues, body⟩
  else return none

/-- The search for footnotes. An earlier footnote is reported even if the later one turns out
malformed. -/
def footnotesFrom (found : Targets Footnote) : List Value → Search (Targets Footnote)
  | [] => ⟨found, [], none⟩
  | token :: rest =>
    match footnoteEntry token found with
    | .error f => ⟨found, [], some f⟩
    | .ok none => footnotesFrom found rest
    | .ok (some entry) =>
      match entry.body with
      | .error f => ⟨found, entry.issues, some f⟩
      | .ok footnote =>
        let later := footnotesFrom (found.set entry.key footnote) rest
        ⟨later.found, entry.issues ++ later.issues, later.failure⟩

/-- The footnotes that tokens define. -/
def footnotes (tokens : Value) : Reported (Targets Footnote) :=
  let result := match tokens.tokens with
    | .ok items => footnotesFrom [] items
    | .error f => ⟨[], [], some f⟩
  result.report .error .collectionFailed .footnoteCollection "Error collecting footnotes"

/-- A heading that gives the document its title. -/
structure LeadingTitle where
  title : String
  index : Nat

/-- Kinds of tokens that are no content. -/
def isDefinitional (kind : String) : Bool :=
  kind == "frontmatter" || kind == "definition" || kind == "footnote_definition"

/-- The leading heading of the first level among tokens from a position on, if content starts with
one. -/
def leadingFrom (definitions : Targets Definition) (index : Nat) :
    List Value → Except Failure (Option LeadingTitle)
  | [] => .ok none
  | token :: rest => do
    match ← kindKey (← token.field "type" .null) with
    | some name =>
      if isDefinitional name then leadingFrom definitions (index + 1) rest
      else if name = "heading" then
        if (← token.attr "level" (.int 1)).compareTo? 1 = some .eq then
          let title ← plainText definitions (← token.field "children" (.list []))
          let title := Text.strip title
          return if title = "" then none else some ⟨title, index⟩
        else return none
      else return none
    | none => return none

/-- The title in the leading heading of a document. -/
def leadingTitle (definitions : Targets Definition) (tokens : Value) :
    Reported (Option LeadingTitle) :=
  match tokens.tokens.bind (leadingFrom definitions 0) with
  | .ok found => ⟨found, []⟩
  | .error f =>
    ⟨none, [{ severity := .warning, code := .titleExtractionFailed
              message := "Error extracting leading heading title: " ++ f.text
              stage := .titleExtraction, cause := some f }]⟩

end Typeset.Token
