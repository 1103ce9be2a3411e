import Typeset.Date
import Typeset.Text.Case
import Typeset.Yaml.Cursor
import Typeset.Yaml.Tag

/-! Scalars whose tag says what they are: which texts may stand under the tag, and what goes wrong
with the others. -/

namespace Typeset.Yaml

/-- The value of a digit in a base up to sixteen. -/
def digitIn? (base : Nat) (c : Char) : Option Nat :=
  let value := match Text.digitValue? c with
    | some d => some d
    | none => Text.hexValue? c
  value.filter (· < base)

/-- Digits of a base, after blanks, a sign and the sign of the base. The number of decimal digits is
limited. -/
def isWholeText (base : Nat) (cs : List Char) : Bool :=
  let cs := Text.trim Text.isBlank cs
  let cs := match cs with
    | '+' :: rest => rest
    | '-' :: rest => rest
    | _ => cs
  let mark := if base = 2 then 'b' else if base = 8 then 'o' else if base = 16 then 'x' else '0'
  let cs := match cs with
    | '0' :: m :: rest => if base != 10 && m.toLower = mark then rest else cs
    | _ => cs
  !cs.isEmpty && cs.all (fun c => (digitIn? base c).isSome) &&
    (base != 10 || cs.length ≤ Text.digitLimit)

/-- What is wrong with a whole number written in any of the five ways. -/
def intFault? (text : String) : Option Failure :=
  let cs := text.toList.filter (· != '_')
  let check (ok : Bool) : Option Failure := if ok then none else some .badNumber
  match cs with
  | [] => some emptyText
  | c :: rest =>
    let body := if c = '+' || c = '-' then rest else cs
    match body with
    | [] => some emptyText
    | ['0'] => none
    | '0' :: 'b' :: rest => check (isWholeText 2 rest)
    | '0' :: 'x' :: rest => check (isWholeText 16 rest)
    | '0' :: _ => check (isWholeText 8 body)
    | _ => check ((body.splitOn ':').all (isWholeText 10))

/-- Decimal digits at the front of a text, and the rest. -/
def spanDigits (cs : List Char) : List Char × List Char := cs.span Text.isDecimalDigit

/-- Whether a text writes a number with an optional fraction and exponent, an infinity or no
number. -/
def isRealText (cs : List Char) : Bool :=
  let cs := Text.trim Text.isBlank cs
  let cs := match cs with
    | '+' :: rest => rest
    | '-' :: rest => rest
    | _ => cs
  let word := Text.lower (String.ofList cs)
  if ["inf", "infinity", "nan"].contains word then true
  else
    let (whole, rest) := spanDigits cs
    let (fraction, rest) := match rest with
      | '.' :: rest => spanDigits rest
      | _ => ([], rest)
    if whole.isEmpty && fraction.isEmpty then false
    else match rest with
      | [] => true
      | e :: rest =>
        let digits := match rest with
          | '+' :: rest => rest
          | '-' :: rest => rest
          | _ => rest
        (e = 'e' || e = 'E') && !digits.isEmpty && digits.all Text.isDecimalDigit

/-- What is wrong with a number with a point. -/
def floatFault? (text : String) : Option Failure :=
  let cs := (Text.lower (String.ofList (text.toList.filter (· != '_')))).toList
  match cs with
  | [] => some emptyText
  | c :: rest =>
    let body := if c = '+' || c = '-' then rest else cs
    let word := String.ofList body
    let places := body.splitOn ':'
    if word = ".inf" || word = ".nan" then none
    else if !places.all isRealText then some .badNumber
    else if sixtiesLimit < places.length then some .overflow
    else none

/-- What is wrong with a truth value. -/
def boolFault? (text : String) : Option Failure :=
  if ["yes", "no", "true", "false", "on", "off"].contains (Text.lower text) then none
  else some .missingKey

/-- The state of reading octets in base 64: characters of the current group and the padding after
them. -/
def base64Fault : Nat → Nat → List Char → Bool
  | group, _, [] => group != 0
  | group, pads, c :: rest =>
    if c = '=' then
      if 2 ≤ group && 4 ≤ group + pads + 1 then false
      else base64Fault group (if 2 ≤ group then pads + 1 else pads) rest
    else if c.isAlphanum || c = '+' || c = '/' then base64Fault ((group + 1) % 4) 0 rest
    else base64Fault group pads rest

/-- What is wrong with octets in base 64. -/
def binaryFault? (text : String) : Option Failure :=
  if text.toList.any (fun c => 127 < c.toNat) || base64Fault 0 0 text.toList then some .yamlSyntax
  else none

/-- ASCII digits at the front, between `low` and `high` of them. -/
def asciiDigits (low high : Nat) (cs : List Char) : Option (Nat × List Char) :=
  let digits := (cs.take high).takeWhile Char.isDigit
  if digits.length < low then none
  else some (Text.numberOfDigits digits, cs.drop digits.length)

/-- A point in time as its tag writes it: a date, and perhaps a clock time and the zone's hours and
minutes. -/
structure Moment where
  year : Nat
  month : Nat
  day : Nat
  clock : Option (Nat × Nat × Nat) := none
  zone : Option (Nat × Nat) := none

/-- The zone at the end of a time. -/
def zone? (cs : List Char) : Option (Option (Nat × Nat)) :=
  match cs.dropWhile fun c => c = ' ' || c = '\t' with
  | [] => if cs.isEmpty then some none else none
  | ['Z'] => some none
  | sign :: rest =>
    if sign = '+' || sign = '-' then
      match asciiDigits 1 2 rest with
      | some (hours, []) => some (some (hours, 0))
      | some (hours, ':' :: rest) =>
        match asciiDigits 2 2 rest with
        | some (minutes, []) => some (some (hours, minutes))
        | _ => none
      | _ => none
    else none

/-- The point in time that a text writes. -/
def moment? (text : String) : Option Moment := do
  let (year, cs) ← asciiDigits 4 4 text.toList
  let cs ← Text.after? ['-'] cs
  let (month, cs) ← asciiDigits 1 2 cs
  let cs ← Text.after? ['-'] cs
  let (day, cs) ← asciiDigits 1 2 cs
  if cs.isEmpty then some { year, month, day }
  else
    let cs ← match cs with
      | 'T' :: rest => some rest
      | 't' :: rest => some rest
      | c :: _ =>
        if c = ' ' || c = '\t' then some (cs.dropWhile fun c => c = ' ' || c = '\t') else none
      | [] => none
    let (hour, cs) ← asciiDigits 1 2 cs
    let cs ← Text.after? [':'] cs
    let (minute, cs) ← asciiDigits 2 2 cs
    let cs ← Text.after? [':'] cs
    let (second, cs) ← asciiDigits 2 2 cs
    let cs := match cs with
      | '.' :: rest => rest.dropWhile Char.isDigit
      | _ => cs
    let zone ← zone? cs
    some { year, month, day, clock := some (hour, minute, second), zone }

/-- What is wrong with a point in time. -/
def momentFault? (text : String) : Option Failure :=
  match moment? text with
  | none => some .noMember
  | some m =>
    if (Date.fault? m.year m.month m.day).isSome then some .badNumber
    else match m.clock with
      | none => none
      | some (hour, minute, second) =>
        let zoneTooWide := match m.zone with
          | some (hours, minutes) => 24 * 60 ≤ 60 * hours + minutes
          | none => false
        if 23 < hour || 59 < minute || 59 < second || zoneTooWide then some .badNumber else none

/-- Whether a kind is one of scalars. -/
def Tag.isScalar : Tag → Bool
  | .null | .bool | .int | .float | .str | .binary | .timestamp => true
  | _ => false

/-- What is wrong with the text of a scalar of a kind. -/
def scalarFault? : Tag → String → Option Failure
  | .bool, text => boolFault? text
  | .int, text => intFault? text
  | .float, text => floatFault? text
  | .binary, text => binaryFault? text
  | .timestamp, text => momentFault? text
  | _, _ => none

end Typeset.Yaml
