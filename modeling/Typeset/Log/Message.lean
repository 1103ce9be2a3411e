import Typeset.Failure
import Typeset.Value.Text

/-! Messages with places for values, such as `%s` and `%04d`. -/

namespace Typeset.Log

/-- The marks between a percent sign and its letter. -/
structure Directive where
  left : Bool := false
  plus : Bool := false
  space : Bool := false
  alternate : Bool := false
  zero : Bool := false
  width : Nat := 0
  precision : Option Nat := none

/-- Values that a message is filled with, one after the other, or by key. -/
structure Supply where
  values : List Value
  /-- The fields that keys are looked up in, if the values are an object. -/
  fields : Option (List (String × Value)) := none

/-- The values that come with a message. A single object that is not empty supplies its fields. -/
def Supply.ofArguments : List Value → Supply
  | [.object (field :: fields)] => ⟨[.object (field :: fields)], some (field :: fields)⟩
  | values => ⟨values, none⟩

/-- The next value. -/
def Supply.next (s : Supply) : Except Failure (Value × Supply) :=
  match s.values with
  | v :: rest => .ok (v, { s with values := rest })
  | [] => .error .mismatch

/-- A directive with the flags at the front of a text. -/
def flags (d : Directive) : List Char → Directive × List Char
  | [] => (d, [])
  | c :: rest =>
    if c = '-' then flags { d with left := true } rest
    else if c = '+' then flags { d with plus := true } rest
    else if c = ' ' then flags { d with space := true } rest
    else if c = '#' then flags { d with alternate := true } rest
    else if c = '0' then flags { d with zero := true } rest
    else (d, c :: rest)

/-- The whole part of a number. -/
def wholePart (v : Value) : Except Failure Int :=
  match v with
  | .int n => .ok n
  | .bool b => .ok (if b then 1 else 0)
  | .real spelling =>
    match (Double.ofSpelling spelling).truncate? with
    | some n => .ok n
    | none => .error .overflow
  | _ => .error .mismatch

/-- A number that is whole. -/
def wholeNumber (v : Value) : Except Failure Int :=
  match v with
  | .real _ => .error .mismatch
  | v => wholePart v

/-- A number as a double. -/
def double (v : Value) : Except Failure Double :=
  match v with
  | .real spelling => .ok (.ofSpelling spelling)
  | v => do
    match Double.ofInt (← wholeNumber v) with
    | .infinite _ => .error .overflow
    | x => .ok x

/-- The number at the front of a text, or the next value where an asterisk stands for it. A number
beyond a limit is refused. -/
def count (limit : Nat) (s : Supply) (cs : List Char) : Except Failure (Int × Supply × List Char) :=
  match cs with
  | '*' :: rest => do
    let (v, s) ← s.next
    let n ← wholeNumber v
    if n.natAbs ≤ limit then .ok (n, s, rest) else .error .overflow
  | _ =>
    let n := Value.wholeOf (cs.takeWhile Char.isDigit)
    if n.natAbs ≤ limit then .ok (n, s, cs.dropWhile Char.isDigit) else .error .badNumber

/-- A text brought to a width. Zeros go between the sign and the digits. -/
def pad (d : Directive) (zeros : Bool) (sign body : List Char) : List Char :=
  let fill := d.width - (sign.length + body.length)
  if d.left then sign ++ body ++ List.replicate fill ' '
  else if zeros then sign ++ List.replicate fill '0' ++ body
  else List.replicate fill ' ' ++ sign ++ body

/-- The sign of a number, as far as it is shown. -/
def Directive.sign (d : Directive) (negative : Bool) : List Char :=
  if negative then ['-'] else if d.plus then ['+'] else if d.space then [' '] else []

/-- A whole number in a base. -/
def integer (d : Directive) (base : Nat) (mark : List Char) (n : Int) : List Char :=
  let digits := Nat.toDigits base n.natAbs
  let digits := List.replicate (d.precision.getD 0 - digits.length) '0' ++ digits
  pad d d.zero (d.sign (n < 0) ++ if d.alternate then mark else []) digits

/-- A double with an exponent, without one, or with as many digits as are worth showing. -/
def fraction (d : Directive) (letter : Char) (x : Double) : List Char :=
  let places := d.precision.getD 6
  let body := match x, letter with
    | .infinite _, _ => "inf".toList
    | .finite _ magnitude, 'e' => exponentialText d.alternate places magnitude
    | .finite _ magnitude, 'f' => fixedText d.alternate places magnitude
    | .finite _ magnitude, _ => generalText d.alternate places magnitude
  pad d d.zero (d.sign x.negative) body

/-- A text cut to a precision and brought to a width. -/
def words (d : Directive) (cs : List Char) : List Char :=
  pad d false [] (match d.precision with | some n => cs.take n | none => cs)

/-- A text with every character outside ASCII by its code point. -/
def ascii (cs : List Char) : List Char :=
  cs.flatMap fun c =>
    let n := c.toNat
    if n < 0x80 then [c]
    else if n < 0x100 then '\\' :: 'x' :: Text.hexDigits 2 n
    else if n < 0x10000 then '\\' :: 'u' :: Text.hexDigits 4 n
    else '\\' :: 'U' :: Text.hexDigits 8 n

/-- The character of a number. A surrogate has no place in a text. -/
def character (n : Int) : Except Failure Char :=
  if n < 0 || 0x10FFFF < n then .error .overflow
  else if 0xD800 ≤ n && n < 0xE000 then .error .encoding
  else .ok (Char.ofNat n.toNat)

/-- A value in one of its forms, unless it holds a number that is too long to be written. -/
def written (form : Value → String) (v : Value) : Except Failure (List Char) :=
  if v.isWritable then .ok (form v).toList else .error .badNumber

/-- A value as a letter asks for it. -/
def convert (d : Directive) (letter : Char) (v : Value) : Except Failure (List Char) :=
  match letter with
  | 's' => (written Value.shown v).map (words d)
  | 'r' => (written Value.literal v).map (words d)
  | 'a' => (written Value.literal v).map fun cs => words d (ascii cs)
  | 'd' | 'i' | 'u' => do
    let n ← wholePart v
    if Text.isWritable n then .ok (integer d 10 [] n) else .error .badNumber
  | 'o' => (wholeNumber v).map (integer d 8 ['0', 'o'])
  | 'x' => (wholeNumber v).map (integer d 16 ['0', 'x'])
  | 'X' => (wholeNumber v).map fun n => (integer d 16 ['0', 'x'] n).map Char.toUpper
  | 'c' =>
    match v with
    | .str s => if s.length = 1 then .ok (pad d false [] s.toList) else .error .mismatch
    | v => do
      let c ← character (← wholeNumber v)
      .ok (pad d false [] [c])
  | 'e' | 'f' | 'g' => (double v).map (fraction d letter)
  | 'E' | 'F' | 'G' => (double v).map fun x => (fraction d letter.toLower x).map Char.toUpper
  | _ => .error .badNumber

/-! Reading the places of a message. What follows a part of a place is no longer than the text that
the part stands in. -/

section Place

variable {s s' : Supply} {cs after : List Char}

/-- A key in parentheses, and what follows it. -/
def key? (depth : Nat) : List Char → Option (List Char × List Char)
  | [] => none
  | c :: rest =>
    if c = ')' && depth = 0 then some ([], rest)
    else
      let depth := if c = '(' then depth + 1 else if c = ')' then depth - 1 else depth
      (key? depth rest).map fun (key, after) => (c :: key, after)

/-- The supply that a key in parentheses leads to, and what follows it. -/
def keyed (s : Supply) (cs : List Char) : Except Failure (Supply × List Char) :=
  match cs with
  | '(' :: rest => do
    let some fields := s.fields | throw .mismatch
    let some (key, after) := key? 0 rest | throw .badNumber
    let some v := fields.lookup (String.ofList key) | throw .missingKey
    return ({ s with values := [v] }, after)
  | _ => .ok (s, cs)

/-- The width of a place, of 63 binary digits at most. One that is negative asks for blanks on the
right. -/
def width (d : Directive) (s : Supply) (cs : List Char) :
    Except Failure (Directive × Supply × List Char) := do
  let (n, s, cs) ← count 9223372036854775807 s cs
  return ({ d with left := d.left || n < 0, width := n.natAbs }, s, cs)

/-- The precision of a place, behind a point, of 31 binary digits at most. -/
def precision (d : Directive) (s : Supply) (cs : List Char) :
    Except Failure (Directive × Supply × List Char) :=
  match cs with
  | '.' :: rest => do
    let (n, s, cs) ← count 2147483647 s rest
    return ({ d with precision := some n.toNat }, s, cs)
  | _ => .ok (d, s, cs)

/-- Text after a letter for the size of a number, which counts for nothing. -/
def skipSize : List Char → List Char
  | [] => []
  | c :: rest => if ['h', 'l', 'L'].contains c then rest else c :: rest

/-- The value that a place asks for by its letter, after all its marks. -/
def letter (d : Directive) (s : Supply) (cs : List Char) :
    Except Failure (List Char × Supply × List Char) :=
  match cs with
  | [] => .error .badNumber
  | c :: rest => do
    let (v, s) ← s.next
    return (← convert d c v, s, rest)

/-- One place of a message, after its percent sign: its text, what is left of the values, and what
follows it. A second percent sign at once stands for the sign itself. -/
def place (s : Supply) (cs : List Char) : Except Failure (List Char × Supply × List Char) :=
  match cs with
  | '%' :: rest => .ok (['%'], s, rest)
  | cs => do
    let (s, cs) ← keyed s cs
    let (d, cs) := flags {} cs
    let (d, s, cs) ← width d s cs
    let (d, s, cs) ← precision d s cs
    letter d s (skipSize cs)

open Failure (exists_of_bind)

theorem length_key? {depth : Nat} {key : List Char} (h : key? depth cs = some (key, after)) :
    after.length ≤ cs.length := by
  induction cs generalizing depth key with
  | nil => cases h
  | cons c rest ih =>
    rw [key?] at h
    split at h
    · cases h
      exact Nat.le_succ _
    · obtain ⟨⟨key', after'⟩, hrest, hsame⟩ := Option.map_eq_some_iff.mp h
      cases hsame
      exact Nat.le_succ_of_le (ih hrest)

theorem length_keyed (h : keyed s cs = .ok (s', after)) : after.length ≤ cs.length := by
  unfold keyed at h
  split at h
  next rest =>
    split at h
    next fields hfields =>
      split at h
      next key after' hkey =>
        split at h
        next v hv =>
          cases h
          exact Nat.le_succ_of_le (length_key? hkey)
        next => cases h
      next => cases h
    next => cases h
  next =>
    cases h
    exact Nat.le_refl _

theorem length_flags (d : Directive) (cs : List Char) : (flags d cs).2.length ≤ cs.length := by
  fun_induction flags d cs
  case case1 | case7 => exact Nat.le_refl _
  all_goals
    next ih => exact Nat.le_succ_of_le ih

theorem length_count {limit : Nat} {n : Int} (h : count limit s cs = .ok (n, s', after)) :
    after.length ≤ cs.length := by
  unfold count at h
  split at h
  next rest =>
    obtain ⟨⟨v, s₁⟩, -, h⟩ := exists_of_bind h
    obtain ⟨m, -, h⟩ := exists_of_bind h
    split at h
    · cases h
      exact Nat.le_succ _
    · cases h
  next =>
    dsimp only at h
    split at h
    · cases h
      exact (List.dropWhile_suffix Char.isDigit).length_le
    · cases h

theorem length_width {d d' : Directive} (h : width d s cs = .ok (d', s', after)) :
    after.length ≤ cs.length := by
  obtain ⟨⟨n, s₁, cs₁⟩, hcount, h⟩ := exists_of_bind h
  cases h
  exact length_count hcount

theorem length_precision {d d' : Directive} (h : precision d s cs = .ok (d', s', after)) :
    after.length ≤ cs.length := by
  unfold precision at h
  split at h
  next rest =>
    obtain ⟨⟨n, s₁, cs₁⟩, hcount, h⟩ := exists_of_bind h
    cases h
    exact Nat.le_succ_of_le (length_count hcount)
  next =>
    cases h
    exact Nat.le_refl _

theorem length_skipSize (cs : List Char) : (skipSize cs).length ≤ cs.length := by
  cases cs with
  | nil => exact Nat.le_refl _
  | cons c rest =>
    rw [skipSize]
    split
    · exact Nat.le_succ _
    · exact Nat.le_refl _

theorem length_letter {d : Directive} {text : List Char}
    (h : letter d s cs = .ok (text, s', after)) : after.length < cs.length := by
  cases cs with
  | nil => cases h
  | cons c rest =>
    obtain ⟨⟨v, s₁⟩, -, h⟩ := exists_of_bind h
    obtain ⟨converted, -, h⟩ := exists_of_bind h
    cases h
    exact Nat.lt_succ_self _

/-- A place takes its letter at least. -/
theorem length_place {text : List Char} (h : place s cs = .ok (text, s', after)) :
    after.length < cs.length := by
  unfold place at h
  split at h
  next =>
    cases h
    exact Nat.lt_succ_self _
  next =>
    obtain ⟨⟨s₁, cs₁⟩, hkeyed, h⟩ := exists_of_bind h
    obtain ⟨⟨d, s₂, cs₂⟩, hwidth, h⟩ := exists_of_bind h
    obtain ⟨⟨d', s₃, cs₃⟩, hprecision, h⟩ := exists_of_bind h
    calc after.length
      _ < (skipSize cs₃).length := length_letter h
      _ ≤ cs₃.length := length_skipSize cs₃
      _ ≤ cs₂.length := length_precision hprecision
      _ ≤ (flags {} cs₁).2.length := length_width hwidth
      _ ≤ cs₁.length := length_flags {} cs₁
      _ ≤ _ := length_keyed hkeyed

end Place

/-- A message filled from left to right. Values that are left over are refused. -/
def fill (s : Supply) (cs : List Char) : Except Failure (List Char) :=
  match cs with
  | [] => if s.values.isEmpty || s.fields.isSome then .ok [] else .error .mismatch
  | '%' :: rest =>
    match h : place s rest with
    | .error f => .error f
    | .ok (text, s, after) =>
      have : after.length < rest.length := length_place h
      (fill s after).map (text ++ ·)
  | c :: rest => (fill s rest).map (c :: ·)
termination_by cs.length

/-- A message with its values. One without values stands as it is. -/
def message (v : Value) (arguments : List Value) : Except Failure String := do
  let text ← written Value.shown v
  if arguments.isEmpty then .ok (String.ofList text)
  else (fill (.ofArguments arguments) text).map String.ofList

end Typeset.Log
