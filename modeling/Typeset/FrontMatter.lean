import Typeset.Yaml.Reading
import Typeset.Issue

/-! The known fields of a document's metadata block. Each field is read on its own: a field of the
wrong shape is dropped and reported, and the others do not notice. -/

namespace Typeset

/-- The known fields of a metadata block. -/
structure FrontMatter where
  title : Value := .null
  author : Value := .null
  authors : Value := .null
  description : Value := .null
  keywords : Value := .null
  date : Value := .null
  abstract : Value := .null
  language : Value := .null
  region : Value := .null

namespace FrontMatter

/-- A field that has the wrong shape. -/
def invalidField (key expected kind : String) : Issue where
  severity := .warning
  code := .invalidMetadataField
  message := "Front matter \"" ++ key ++ "\" field must be " ++ expected
  stage := .frontmatterParsing
  details := [("field", .str key), ("field_type", .str kind)]

/-- A field that must be text. -/
def textField (key : String) (v : Option Yaml.Reading) : Reported Value :=
  match v with
  | none => ⟨.null, []⟩
  | some .null => ⟨.null, []⟩
  | some (.text s) => ⟨.str s, []⟩
  | some r => ⟨.null, [invalidField key "a string" r.kindName]⟩

/-- A list of texts out of a list: other items are dropped and reported together. -/
def textItems (key : String) (items : List (Option String)) : Reported Value :=
  ⟨.ofTexts (items.filterMap id),
    if items.all Option.isSome then [] else [invalidField key "a list of strings" "list"]⟩

/-- A field that must be a list of texts. -/
def textListField (key : String) (v : Option Yaml.Reading) : Reported Value :=
  match v with
  | none => ⟨.null, []⟩
  | some .null => ⟨.null, []⟩
  | some (.list items) => textItems key items
  | some r => ⟨.null, [invalidField key "a list of strings" r.kindName]⟩

/-- A field that may be text or a list of texts. -/
def authorField (v : Option Yaml.Reading) : Reported Value :=
  match v with
  | none => ⟨.null, []⟩
  | some .null => ⟨.null, []⟩
  | some (.text s) => ⟨.str s, []⟩
  | some (.list items) => textItems "author" items
  | some r => ⟨.null, [invalidField "author" "a string or a list of strings" r.kindName]⟩

/-- A date as text. A point in time keeps only its date. -/
def dateField (v : Option Yaml.Reading) : Reported Value :=
  match v with
  | none => ⟨.null, []⟩
  | some .null => ⟨.null, []⟩
  | some (.text s) =>
    match Date.ofTimestamp? (Text.strip s).toList with
    | some date => ⟨.str (String.ofList date), []⟩
    | none => ⟨.str s, []⟩
  | some r => ⟨.null, [invalidField "date" "a string or a date" r.kindName]⟩

/-- The language: under the short key, or else under the long one. -/
def languageField (short long : Option Yaml.Reading) : Reported Value :=
  let first := textField "lang" short
  match first.answer with
  | .null =>
    let second := textField "language" long
    ⟨second.answer, first.issues ++ second.issues⟩
  | v => ⟨v, first.issues⟩

/-- The known fields of a mapping. -/
def ofEntries (entries : List (String × Yaml.Reading)) : Reported FrontMatter :=
  let value (key : String) := Yaml.lastUnder key entries
  let language := languageField (value "lang") (value "language")
  let title := textField "title" (value "title")
  let author := authorField (value "author")
  let authors := textListField "authors" (value "authors")
  let description := textField "description" (value "description")
  let keywords := textListField "keywords" (value "keywords")
  let date := dateField (value "date")
  let abstract := textField "abstract" (value "abstract")
  let region := textField "region" (value "region")
  { answer :=
      { title := title.answer, author := author.answer, authors := authors.answer,
        description := description.answer, keywords := keywords.answer, date := date.answer,
        abstract := abstract.answer, language := language.answer, region := region.answer }
    issues := language.issues ++ title.issues ++ author.issues ++ authors.issues ++
      description.issues ++ keywords.issues ++ date.issues ++ abstract.issues ++ region.issues }

/-- A block that gives no fields. -/
def invalidBlock (message : String) (details : List (String × Value)) (cause : Option Failure) :
    Issue where
  severity := .warning
  code := .invalidFrontmatter
  message := message
  stage := .frontmatterParsing
  details := details
  cause := cause

/-- The known fields of a metadata block, by a loader of YAML. A block that is no YAML, or is no
mapping, gives none and is reported; anything else that the loader raises is passed on. -/
def decode (text : String) (load : Yaml.Loader := Yaml.load) :
    Except Failure (Reported FrontMatter) :=
  if Text.isBlankText text then .ok ⟨{}, []⟩
  else match load text with
    | .ok .empty => .ok ⟨{}, []⟩
    | .ok (.value kind) =>
      .ok ⟨{}, [invalidBlock "YAML front matter is not a mapping" [("value_type", .str kind)] none]⟩
    | .ok (.mapping entries) => .ok (ofEntries entries)
    | .error (.malformed kind words) =>
      .ok ⟨{}, [invalidBlock ("Failed to parse YAML front matter: " ++ words) []
        (some (.foreign kind words))]⟩
    | .error (.raised kind words) => .error (.foreign kind words)

/-- The known fields of any value that stands for a metadata block: only text can be read, and
nothing is read from what counts as absent. -/
def decodeValue (v : Value) (load : Yaml.Loader := Yaml.load) :
    Except Failure (Reported FrontMatter) :=
  if v.truthy then
    match v with
    | .str text => decode text load
    | _ => .error .noMember
  else .ok ⟨{}, []⟩

/-- The names of the fields, in their order. -/
def fieldNames : List String :=
  ["title", "author", "authors", "description", "keywords", "date", "abstract", "language",
    "region"]

/-- Front matter with given fields; a name that is no field is refused. -/
def ofFields (fields : List (String × Value)) : Except Failure FrontMatter :=
  if fields.all fun f => fieldNames.contains f.1 then
    let value (key : String) := (fields.lookup key).getD .null
    .ok { title := value "title", author := value "author", authors := value "authors",
          description := value "description", keywords := value "keywords", date := value "date",
          abstract := value "abstract", language := value "language", region := value "region" }
  else .error .mismatch

/-- The fields by name. -/
def toFields (f : FrontMatter) : List (String × Value) :=
  [("title", f.title), ("author", f.author), ("authors", f.authors),
    ("description", f.description), ("keywords", f.keywords), ("date", f.date),
    ("abstract", f.abstract), ("language", f.language), ("region", f.region)]

end FrontMatter

end Typeset
