import Typeset.Locale.LanguageTable
import Typeset.Locale.RegionTable
import Typeset.Text.Blank
import Typeset.Text.Case

/-! Language and region codes from the codes, tags and names that authors write. -/

namespace Typeset.Locale

/-! Registers of languages and of countries. -/

section Register

/-- The kinds of codes that an entry may have. -/
inductive CodeKind
  | alpha2
  | alpha3
  /-- A second code of three letters, which librarians use. -/
  | bibliographic
  deriving DecidableEq, Repr

/-- A register, which gives an entry for one of its codes, or for whatever else it lists. -/
structure Register (α : Type) where
  byCode : CodeKind → String → Option α
  byName : String → Option α

/-- The kinds of codes of one length. -/
def codeKinds (length : Nat) : List CodeKind :=
  match length with
  | 2 => [.alpha2]
  | 3 => [.alpha3, .bibliographic]
  | _ => []

/-- The entry that a text stands for: the one with that code, in either case, or else the one that
lists the text. A short name is often the code of something else, so codes go first. -/
def Register.find {α : Type} (r : Register α) (value : String) : Option α :=
  let code := Text.lower value
  match (codeKinds code.length).findSome? fun kind => r.byCode kind code with
  | some entry => some entry
  | none => r.byName value

/-- The code of a table that is the given one. -/
def codeOf? (table : List (String × List String)) (code : String) : Option String :=
  (table.find? fun row => row.1 == code).map (·.1)

/-- The code of the first entry of a table that lists a name. -/
def codeNaming? (table : List (String × List String)) (name : String) : Option String :=
  (table.find? fun row => row.2.contains name).map (·.1)

/-- A register out of a table of two-letter codes in lower case, each with all other codes and
names of its entry. -/
def Register.ofTable {α : Type} (entry : String → α) (table : List (String × List String)) :
    Register α where
  byCode kind code :=
    let code := Text.lower code
    match kind with
    | .alpha2 => (codeOf? table code).map entry
    | .alpha3 | .bibliographic => (codeNaming? table code).map entry
  byName name :=
    let name := Text.lower name
    ((codeOf? table name).or (codeNaming? table name)).map entry

end Register

/-- A language. Most have no two-letter code. -/
structure Language where
  alpha2 : Option String

/-- A country or territory. -/
structure Country where
  alpha2 : String

/-- The languages that have a two-letter code. -/
def languages : Register Language := .ofTable (fun code => ⟨some code⟩) languageTable

/-- The countries and territories. -/
def countries : Register Country := .ofTable (fun code => ⟨code⟩) regionTable

/-- What codes and names are looked up in. -/
structure Registers where
  languages : Register Language
  countries : Register Country

/-- The registers of the languages that have a two-letter code, and of all countries. -/
def registers : Registers := ⟨languages, countries⟩

/-- A separator inside a locale tag. -/
def isTagSeparator (c : Char) : Bool := c == '-' || c == '_'

/-- The part of a locale tag before its first separator. -/
def primary (s : String) : String :=
  String.ofList (s.toList.takeWhile fun c => !isTagSeparator c)

/-- The code that a language is written by, if it has one. -/
def Language.code? (language : Language) : Option String :=
  language.alpha2.bind fun code => if code = "" then none else some (Text.lower code)

/-- The two-letter code of the language that a text names, by its first part or else as a whole. -/
def languageIn (register : Register Language) (s : String) : Option String :=
  let text := Text.strip s
  [primary text, text].findSome? fun candidate =>
    if candidate = "" then none else (register.find candidate).bind Language.code?

/-- The two-letter code of the country that a text names, in capitals. -/
def regionIn (register : Register Country) (s : String) : Option String :=
  let text := Text.strip s
  if text = "" then none else (register.find text).map fun country => Text.upper country.alpha2

/-- The two-letter code of the language that a text names. -/
def language? (s : String) : Option String := languageIn languages s

/-- The two-letter code of the region that a text names. -/
def region? (s : String) : Option String := regionIn countries s

end Typeset.Locale
