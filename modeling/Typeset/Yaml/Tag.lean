import Typeset.Text.Blank

/-! The kinds of scalars, told by their text: which plain scalars are numbers, truth values or
absent. -/

namespace Typeset.Yaml

/-- What a node is taken for. -/
inductive Tag
  | null
  | bool
  | int
  | float
  | str
  | seq
  | map
  | set
  | omap
  | pairs
  | binary
  | timestamp
  /-- The sign of a key whose value is merged in. -/
  | merge
  /-- The sign of a key for the value itself. -/
  | default
  | unknown
  deriving DecidableEq, Repr

/-- The kind that a full tag names. -/
def Tag.ofUri (uri : String) : Tag :=
  match uri with
  | "tag:yaml.org,2002:null" => .null
  | "tag:yaml.org,2002:bool" => .bool
  | "tag:yaml.org,2002:int" => .int
  | "tag:yaml.org,2002:float" => .float
  | "tag:yaml.org,2002:str" => .str
  | "tag:yaml.org,2002:seq" => .seq
  | "tag:yaml.org,2002:map" => .map
  | "tag:yaml.org,2002:set" => .set
  | "tag:yaml.org,2002:omap" => .omap
  | "tag:yaml.org,2002:pairs" => .pairs
  | "tag:yaml.org,2002:binary" => .binary
  | "tag:yaml.org,2002:timestamp" => .timestamp
  | "tag:yaml.org,2002:merge" => .merge
  | "tag:yaml.org,2002:value" => .default
  | _ => .unknown

/-- The words for truth values. -/
def truthWords : List String :=
  ["yes", "Yes", "YES", "no", "No", "NO", "true", "True", "TRUE", "false", "False", "FALSE",
    "on", "On", "ON", "off", "Off", "OFF"]

/-- Text after at most one sign. -/
def unsigned (cs : List Char) : List Char :=
  match cs with
  | '+' :: rest => rest
  | '-' :: rest => rest
  | _ => cs

/-- A decimal digit or the low line that may stand between digits. -/
def isDigitOrGap (c : Char) : Bool := c.isDigit || c = '_'

/-- One or more parts of a colon and one or two digits that are at most 59; the rest after the
longest such row. -/
def sixties : List Char → Option (List Char)
  | ':' :: a :: b :: rest =>
    if a.isDigit && a.toNat ≤ '5'.toNat && b.isDigit then some ((sixties rest).getD rest)
    else if a.isDigit then some ((sixties (b :: rest)).getD (b :: rest))
    else none
  | [':', a] => if a.isDigit then some [] else none
  | _ => none
termination_by cs => cs.length

/-- Whether the text is a whole number. -/
def isIntText (cs : List Char) : Bool :=
  match unsigned cs with
  | '0' :: 'b' :: d :: rest => (d :: rest).all fun c => c = '0' || c = '1' || c = '_'
  | '0' :: 'x' :: d :: rest => (d :: rest).all fun c => c.isDigit || c = '_' ||
      (97 ≤ c.toNat && c.toNat ≤ 102) || (65 ≤ c.toNat && c.toNat ≤ 70)
  | '0' :: rest => rest.all fun c => (c.isDigit && c.toNat < '8'.toNat) || c = '_'
  | d :: rest =>
    d.isDigit && (rest.all isDigitOrGap || sixties (rest.dropWhile isDigitOrGap) = some [])
  | [] => false

/-- Whether the text is an exponent with its sign, or nothing. -/
def isExponentText : List Char → Bool
  | [] => true
  | e :: sign :: d :: rest =>
    (e = 'e' || e = 'E') && (sign = '+' || sign = '-') && (d :: rest).all Char.isDigit
  | _ => false

/-- Whether the text is a number with a point. -/
def isFloatText (cs : List Char) : Bool :=
  let body := unsigned cs
  let words := ["inf", "Inf", "INF"]
  match body with
  | '.' :: rest =>
    words.contains (String.ofList rest) ||
      (cs.head? = some '.' &&
        (["nan", "NaN", "NAN"].contains (String.ofList rest) ||
          match rest with
          | d :: more => d.isDigit && isExponentText (more.dropWhile isDigitOrGap)
          | [] => false))
  | d :: rest =>
    d.isDigit &&
      match rest.dropWhile isDigitOrGap with
      | '.' :: more => isExponentText (more.dropWhile isDigitOrGap)
      | more =>
        match sixties more with
        | some ('.' :: tail) => tail.all isDigitOrGap
        | _ => false
  | [] => false

/-- The kind of a plain scalar. -/
def Tag.ofPlain (text : String) : Tag :=
  let cs := text.toList
  if truthWords.contains text then .bool
  else if isFloatText cs then .float
  else if isIntText cs then .int
  else if text = "<<" then .merge
  else if text = "" || text = "~" || text = "null" || text = "Null" || text = "NULL" then .null
  else if text = "=" then .default
  else .str

end Typeset.Yaml
