import Typeset.Value.Basic
import Typeset.Text.Blank
import Typeset.Text.Hex

/-! Reading JSON text back into a value. A key that comes twice keeps its first place and its
last value. A surrogate without its partner, which is no character, is read as the replacement
character. -/

namespace Typeset.Json

/-- Text after the blanks that JSON allows between tokens. -/
def skipBlanks (cs : List Char) : List Char :=
  cs.dropWhile fun c => c = ' ' || c = '\n' || c = '\r' || c = '\t'

/-- Four hexadecimal digits. -/
def hexUnit : List Char → Option (Nat × List Char)
  | a :: b :: c :: d :: rest => do
    let a ← Text.hexValue? a
    let b ← Text.hexValue? b
    let c ← Text.hexValue? c
    let d ← Text.hexValue? d
    some (((a * 16 + b) * 16 + c) * 16 + d, rest)
  | _ => none

/-- The character after a backslash. Two escaped surrogates make one character. -/
def escaped : List Char → Option (Char × List Char)
  | '"' :: rest => some ('"', rest)
  | '\\' :: rest => some ('\\', rest)
  | '/' :: rest => some ('/', rest)
  | 'b' :: rest => some (Char.ofNat 8, rest)
  | 'f' :: rest => some (Char.ofNat 12, rest)
  | 'n' :: rest => some ('\n', rest)
  | 'r' :: rest => some ('\r', rest)
  | 't' :: rest => some ('\t', rest)
  | 'u' :: rest => do
    let (high, rest) ← hexUnit rest
    if 0xD800 ≤ high && high < 0xDC00 then
      match rest with
      | '\\' :: 'u' :: rest' => do
        let (low, rest'') ← hexUnit rest'
        if 0xDC00 ≤ low && low < 0xE000 then
          some (Char.ofNat (0x10000 + (high - 0xD800) * 0x400 + (low - 0xDC00)), rest'')
        else some (Char.ofNat 0xFFFD, rest)
      | _ => some (Char.ofNat 0xFFFD, rest)
    else if 0xDC00 ≤ high && high < 0xE000 then some (Char.ofNat 0xFFFD, rest)
    else some (Char.ofNat high, rest)
  | _ => none

/-- The rest of a string after its opening mark; `fuel` bounds the characters read. A control
character may not stand in a string as it is. -/
def stringBody : Nat → List Char → List Char → Option (String × List Char)
  | 0, _, _ => none
  | _ + 1, _, [] => none
  | fuel + 1, done, c :: rest =>
    if c = '"' then some (String.ofList done.reverse, rest)
    else if c = '\\' then
      match escaped rest with
      | some (d, rest) => stringBody fuel (d :: done) rest
      | none => none
    else if c.toNat < 0x20 then none
    else stringBody fuel (c :: done) rest

/-- One of some signs, if the text starts with it. -/
def signPart (signs : List Char) : List Char → List Char × List Char
  | c :: rest => if signs.contains c then ([c], rest) else ([], c :: rest)
  | [] => ([], [])

/-- The whole part of a number: a zero, or digits of which the first is none. -/
def wholePart : List Char → Option (List Char × List Char)
  | '0' :: rest => some (['0'], rest)
  | cs =>
    let digits := cs.takeWhile Char.isDigit
    if digits.isEmpty then none else some (digits, cs.dropWhile Char.isDigit)

/-- A point with digits behind it, if the text goes on so. -/
def fractionPart : List Char → List Char × List Char
  | '.' :: rest =>
    let digits := rest.takeWhile Char.isDigit
    if digits.isEmpty then ([], '.' :: rest) else ('.' :: digits, rest.dropWhile Char.isDigit)
  | cs => ([], cs)

/-- An exponent, if the text goes on with one. -/
def exponentPart (cs : List Char) : List Char × List Char :=
  match cs with
  | c :: rest =>
    if c = 'e' || c = 'E' then
      let (sign, after) := signPart ['+', '-'] rest
      let digits := after.takeWhile Char.isDigit
      if digits.isEmpty then ([], cs) else (c :: sign ++ digits, after.dropWhile Char.isDigit)
    else ([], cs)
  | [] => ([], [])

/-- A number at the start of the text, and what follows it. It is whole if it has neither a fraction
nor an exponent. -/
def number (cs : List Char) : Option (Value × List Char) := do
  let (sign, rest) := signPart ['-'] cs
  let (whole, rest) ← wholePart rest
  let (fraction, rest) := fractionPart rest
  let (exponent, rest) := exponentPart rest
  let text := sign ++ whole ++ fraction ++ exponent
  if !(fraction.isEmpty && exponent.isEmpty) then
    some (.real (Double.ofSpelling (String.ofList text)).spelling, rest)
  else if whole.length ≤ Text.digitLimit then some (.int (Value.wholeOf text), rest)
  else none

/-- Infinity at the start of the text, with its sign if it is negative. -/
def infinity (cs : List Char) : Option (Value × List Char) :=
  match Text.after? "Infinity".toList cs with
  | some rest => some (.real "inf", rest)
  | none => (Text.after? "-Infinity".toList cs).map fun rest => (.real "-inf", rest)

mutual

/-- A value at the start of the text, and what follows it. -/
def value : Nat → List Char → Option (Value × List Char)
  | 0, _ => none
  | fuel + 1, cs =>
    match skipBlanks cs with
    | 'n' :: 'u' :: 'l' :: 'l' :: rest => some (.null, rest)
    | 't' :: 'r' :: 'u' :: 'e' :: rest => some (.bool true, rest)
    | 'f' :: 'a' :: 'l' :: 's' :: 'e' :: rest => some (.bool false, rest)
    | '"' :: rest => (stringBody (rest.length + 1) [] rest).map fun (s, rest) => (.str s, rest)
    | '[' :: rest =>
      match skipBlanks rest with
      | ']' :: rest => some (.list [], rest)
      | rest => (items fuel rest).map fun (vs, rest) => (.list vs, rest)
    | '\x7b' :: rest =>
      match skipBlanks rest with
      | '\x7d' :: rest => some (.object [], rest)
      | rest => (fields fuel [] rest).map fun (fs, rest) => (.object fs, rest)
    | rest => (number rest).orElse fun _ => infinity rest

/-- The items of a list up to its end. -/
def items : Nat → List Char → Option (List Value × List Char)
  | 0, _ => none
  | fuel + 1, cs =>
    match value fuel cs with
    | none => none
    | some (v, rest) =>
      match skipBlanks rest with
      | ',' :: rest => (items fuel rest).map fun (vs, rest) => (v :: vs, rest)
      | ']' :: rest => some ([v], rest)
      | _ => none

/-- The fields of an object up to its end, after those already read. -/
def fields : Nat → List (String × Value) → List Char → Option (List (String × Value) × List Char)
  | 0, _, _ => none
  | fuel + 1, done, cs =>
    match skipBlanks cs with
    | '"' :: rest =>
      match stringBody (rest.length + 1) [] rest with
      | none => none
      | some (key, rest) =>
        match skipBlanks rest with
        | ':' :: rest =>
          match value fuel rest with
          | none => none
          | some (v, rest) =>
            match skipBlanks rest with
            | ',' :: rest => fields fuel (Value.setField key v done) rest
            | '\x7d' :: rest => some (Value.setField key v done, rest)
            | _ => none
        | _ => none
    | _ => none

end

/-- The value that a whole text writes. -/
def read (s : String) : Option Value :=
  let cs := s.toList
  match value (2 * cs.length + 2) cs with
  | some (v, rest) => if (skipBlanks rest).isEmpty then some v else none
  | none => none

end Typeset.Json
