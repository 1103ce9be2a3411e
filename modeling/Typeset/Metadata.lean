import Typeset.FrontMatter
import Typeset.Settings
import Typeset.Locale.Basic

/-! The metadata of a document: what the caller set, else what the document says of itself, else,
for the title alone, its leading heading. -/

namespace Typeset

/-- The metadata that the header of a document is built from. -/
structure Metadata where
  title : Value := .str ""
  authors : Value := .list []
  description : Value := .null
  keywords : Value := .null
  date : Value := .null
  abstract : Value := .null
  language : Value := .null
  region : Value := .null

namespace Metadata

/-- The first value that is not null. -/
def firstPresent : List Value → Value
  | [] => .null
  | .null :: rest => firstPresent rest
  | v :: _ => v

/-- What names the authors: several values if there are any, else a single one. -/
def authorValues (author authors : Value) : Except Failure (List Value) :=
  if authors.truthy then authors.parts
  else match author with
    | .str s => .ok [.str s]
    | .list items => .ok items
    | _ => .ok []

/-- The names of the authors. Names that are blank or no text are dropped. -/
def resolveAuthors (author authors : Value) : Except Failure (List String) := do
  let names ← authorValues author authors
  .ok ((names.filterMap Value.str?).filter fun s => !Text.isBlankText s)

/-- The authors that the caller names, or else those that the document does. -/
def mergeAuthors (settings : Settings) (front : FrontMatter) : Except Failure (List String) := do
  let own ← resolveAuthors settings.author (Settings.ofList? settings.authors)
  if own.isEmpty then resolveAuthors front.author front.authors else .ok own

/-- A code for a value that should be text. What counts as absent has none. -/
def code (lookup : String → Option String) (v : Value) : Except Failure Value :=
  if v.truthy then
    match v with
    | .str s => .ok (.ofText? (lookup s))
    | _ => .error .noMember
  else .ok .null

/-- The metadata out of its three sources, nearest to the caller first, by registers of languages
and countries. -/
def merge (settings : Settings) (front : FrontMatter) (leadingTitle : Value)
    (registers : Locale.Registers := Locale.registers) : Except Failure Metadata := do
  let authors ← mergeAuthors settings front
  let language ← code (Locale.languageIn registers.languages)
    (firstPresent [.ofText? settings.language, front.language])
  let region ← code (Locale.regionIn registers.countries)
    (firstPresent [.ofText? settings.region, front.region])
  .ok { title :=
          (firstPresent [.ofText? settings.title, front.title, leadingTitle]).orElse (.str "")
        authors := .ofTexts authors
        description := firstPresent [.ofText? settings.description, front.description]
        keywords := firstPresent [Settings.ofList? settings.keywords, front.keywords]
        date := firstPresent [.ofText? settings.date, front.date]
        abstract := firstPresent [.ofText? settings.abstract, front.abstract]
        language, region }

/-- The names of the fields, in their order. -/
def fieldNames : List String :=
  ["title", "authors", "description", "keywords", "date", "abstract", "language", "region"]

/-- Metadata with given fields; a name that is no field is refused. -/
def ofFields (fields : List (String × Value)) : Except Failure Metadata :=
  if fields.all fun f => fieldNames.contains f.1 then
    let value (key : String) := (fields.lookup key).getD .null
    .ok { title := (fields.lookup "title").getD (.str "")
          authors := (fields.lookup "authors").getD (.list [])
          description := value "description", keywords := value "keywords", date := value "date"
          abstract := value "abstract", language := value "language", region := value "region" }
  else .error .mismatch

/-- The fields by name. -/
def toFields (m : Metadata) : List (String × Value) :=
  [("title", m.title), ("authors", m.authors), ("description", m.description),
    ("keywords", m.keywords), ("date", m.date), ("abstract", m.abstract),
    ("language", m.language), ("region", m.region)]

end Metadata

end Typeset
