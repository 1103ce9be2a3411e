import Typeset.Value.Access

/-! What a caller may ask of a conversion, and the checks on it. -/

namespace Typeset

/-- The options of a conversion. -/
structure Settings where
  title : Option String := none
  author : Value := .null
  authors : Option (List Value) := none
  description : Option String := none
  keywords : Option (List Value) := none
  date : Option String := none
  abstract : Option String := none
  language : Option String := none
  region : Option String := none
  /-- Take a leading heading of the first level for the title, and out of the body. -/
  leadingHeadingAsTitle : Value := .bool false
  /-- Report inline tokens of unknown kinds instead of dropping them silently. -/
  warnUnknownInline : Value := .bool false
  metrics : Value := .null
  /-- Show the token tree of each conversion. -/
  dumpTokens : Value := .bool false

namespace Settings

/-- The names of all options, in their order. -/
def optionNames : List String :=
  ["title", "author", "authors", "description", "keywords", "date", "abstract", "language",
    "region", "use_leading_heading_as_title", "on_error", "math_converter", "warn_unknown_inline",
    "metrics", "debug_dump_ast"]

/-- An option that must be text or absent. -/
def text (name : String) (v : Value) : Except Failure (Option String) :=
  match v with
  | .null => .ok none
  | .str s => .ok (some s)
  | v => .error (.refusedValue (name ++ " must be a string, got " ++ v.kindName))

/-- An option that must be a list or absent. -/
def list (name : String) (v : Value) : Except Failure (Option (List Value)) :=
  match v with
  | .null => .ok none
  | .list items => .ok (some items)
  | v => .error (.refusedValue (name ++ " must be a list of strings, got " ++ v.kindName))

/-- An option that must be text, a list or absent. -/
def textOrList (name : String) (v : Value) : Except Failure Value :=
  match v with
  | .null => .ok .null
  | .str s => .ok (.str s)
  | .list items => .ok (.list items)
  | v =>
    .error (.refusedValue (name ++ " must be a string or a list of strings, got " ++ v.kindName))

/-- An option that only a function may fill: no plain value but the absent one is let through. -/
def noFunction (name : String) (v : Value) : Except Failure Unit :=
  match v with
  | .null => .ok ()
  | _ => .error (.refusedValue (name ++ " must be callable"))

/-- Settings out of named options: unknown names are refused first, then the options are checked,
texts before authors, authors before lists, and functions last. -/
def ofOptions (options : List (String × Value)) : Except Failure Settings := do
  let value (key : String) (default : Value) := (options.lookup key).getD default
  if options.any fun o => !optionNames.contains o.1 then .error .mismatch
  else
    let title ← text "title" (value "title" .null)
    let description ← text "description" (value "description" .null)
    let date ← text "date" (value "date" .null)
    let abstract ← text "abstract" (value "abstract" .null)
    let language ← text "language" (value "language" .null)
    let region ← text "region" (value "region" .null)
    let author ← textOrList "author" (value "author" .null)
    let authors ← list "authors" (value "authors" .null)
    let keywords ← list "keywords" (value "keywords" .null)
    noFunction "on_error" (value "on_error" .null)
    noFunction "math_converter" (value "math_converter" .null)
    .ok { title, author, authors, description, keywords, date, abstract, language, region,
          leadingHeadingAsTitle := value "use_leading_heading_as_title" (.bool false),
          warnUnknownInline := value "warn_unknown_inline" (.bool false),
          metrics := value "metrics" .null,
          dumpTokens := value "debug_dump_ast" (.bool false) }

/-- An optional list as a value. -/
def ofList? : Option (List Value) → Value
  | some items => .list items
  | none => .null

/-- The options by name. No plain value stands for a function. -/
def toOptions (s : Settings) : List (String × Value) :=
  [("title", .ofText? s.title), ("author", s.author), ("authors", ofList? s.authors),
    ("description", .ofText? s.description), ("keywords", ofList? s.keywords),
    ("date", .ofText? s.date), ("abstract", .ofText? s.abstract),
    ("language", .ofText? s.language), ("region", .ofText? s.region),
    ("use_leading_heading_as_title", s.leadingHeadingAsTitle), ("on_error", .null),
    ("math_converter", .null), ("warn_unknown_inline", s.warnUnknownInline),
    ("metrics", s.metrics), ("debug_dump_ast", s.dumpTokens)]

/-- Settings with some options replaced; the result is checked anew. -/
def replace (s : Settings) (options : List (String × Value)) : Except Failure Settings :=
  ofOptions (Value.override s.toOptions options)

/-- Settings out of options, which take precedence over settings that are there already. Without
options those stand as they are. -/
def choose (settings : Option Settings) (options : List (String × Value)) :
    Except Failure Settings :=
  match settings with
  | none => ofOptions options
  | some settings => if options.isEmpty then .ok settings else settings.replace options

end Settings

end Typeset
