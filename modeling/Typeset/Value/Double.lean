import Typeset.Text.Hex

/-! Decimal spellings of numbers with a fraction or an exponent, and the floating-point numbers of
double precision that they stand for. A double is kept as the fraction that it is, so no step below
rounds except where rounding is what is asked for. -/

namespace Typeset

namespace Value

/-- The digits before the exponent of a spelled number. -/
def mantissa (spelling : String) : List Char :=
  spelling.toList.takeWhile fun c => c != 'e' && c != 'E'

/-- A decimal fraction: `digits` times ten to the power of `exponent`. -/
structure Scaled where
  digits : Int
  exponent : Int

/-- The whole number that a row of digits, perhaps with a sign, writes; other characters count for
nothing. -/
def wholeOf (cs : List Char) : Int :=
  let n : Nat := cs.foldl (fun n c => if c.isDigit then 10 * n + (c.toNat - 48) else n) 0
  if cs.head? = some '-' then -n else n

/-- The number that a spelling with a fraction or an exponent writes. -/
def Scaled.ofSpelling (spelling : String) : Scaled :=
  let body := mantissa spelling
  let exponent := wholeOf (spelling.toList.drop (body.length + 1))
  let fraction := (body.dropWhile (· != '.')).drop 1
  ⟨wholeOf (body.filter (· != '.')), exponent - fraction.length⟩

end Value

/-- The whole number nearest to a fraction; of two that are equally near, the even one. -/
def roundEven (x : Rat) : Int :=
  let low := x.floor
  if x - low < 1 / 2 then low
  else if 1 / 2 < x - low then low + 1
  else low + low % 2

/-- The exponent of the greatest power of a base that does not exceed a positive fraction. The
lengths of its two whole numbers leave only two exponents to choose from. -/
def exponentOf (base : Nat) (x : Rat) : Int :=
  let k : Int := (Nat.toDigits base x.num.natAbs).length - (Nat.toDigits base x.den).length
  if (base : Rat) ^ k ≤ x then k else k - 1

/-- A floating-point number of double precision, by its sign and its magnitude. -/
inductive Double
  | finite (negative : Bool) (magnitude : Rat)
  | infinite (negative : Bool)
  deriving DecidableEq

namespace Double

/-- Magnitudes from here on are infinite. -/
def bound : Rat := 2 ^ (1024 : Nat)

/-- A magnitude brought to 53 binary digits, of which none stands below that of the smallest
double. -/
def rounded (x : Rat) : Rat :=
  if x = 0 then 0
  else
    let unit : Rat := 2 ^ max (-1074) (exponentOf 2 x - 52)
    roundEven (x / unit) * unit

/-- The double nearest to a magnitude. -/
def nearest (negative : Bool) (x : Rat) : Double :=
  if bound ≤ x then .infinite negative
  else
    let magnitude := rounded x
    if bound ≤ magnitude then .infinite negative else .finite negative magnitude

/-- The double nearest to a whole number. -/
def ofInt (n : Int) : Double := nearest (n < 0) n.natAbs

/-- The double that a spelling stands for. Exponents that no double comes near to are not worked
out. -/
def ofSpelling (spelling : String) : Double :=
  let negative : Bool := spelling.toList.head? = some '-'
  let s := Value.Scaled.ofSpelling spelling
  let order := s.exponent + (Nat.toDigits 10 s.digits.natAbs).length
  if spelling.endsWith "inf" then .infinite negative
  else if s.digits = 0 || order < -400 then .finite negative 0
  else if 400 < order then .infinite negative
  else nearest negative (s.digits.natAbs * (10 : Rat) ^ s.exponent)

/-- Whether a double has a minus sign, which a zero may have too. -/
def negative : Double → Bool
  | .finite negative _ => negative
  | .infinite negative => negative

/-- How a double compares with a whole number. -/
def compareTo (d : Double) (n : Int) : Ordering :=
  match d with
  | .finite negative magnitude => compareOfLessAndEq (if negative then -magnitude else magnitude) n
  | .infinite negative => if negative then .lt else .gt

/-- The whole part of a double, if it is finite. -/
def truncate? : Double → Option Int
  | .finite negative magnitude => some (if negative then -magnitude.floor else magnitude.floor)
  | .infinite _ => none

end Double

/-! Doubles in decimal. -/

section Decimal

/-- Digits with a point before the last `places` of them, and as many zeros in front as that takes.
Where there is nothing behind the point it is left out, unless it is to be kept. -/
def pointed (keep : Bool) (places : Nat) (digits : List Char) : List Char :=
  let digits := List.replicate (places + 1 - digits.length) '0' ++ digits
  let fraction := digits.drop (digits.length - places)
  digits.take (digits.length - places) ++ if fraction.isEmpty && !keep then [] else '.' :: fraction

/-- Digits without the zeros at their end, except for the first `least` of them. -/
def withoutZeros (least : Nat) (digits : List Char) : List Char :=
  digits.take least ++ ((digits.drop least).reverse.dropWhile (· = '0')).reverse

/-- An exponent of ten, with its sign and two digits at least. -/
def exponentText (k : Int) : List Char :=
  'e' :: (if k < 0 then '-' else '+') :: (Text.padded 2 k.natAbs).toList

/-- The first `count` decimal digits of a magnitude, rounded, and the exponent of ten that the first
of them stands at. -/
def leadingDigits (count : Nat) (x : Rat) : List Char × Int :=
  if x = 0 then (List.replicate count '0', 0)
  else
    let k := exponentOf 10 x
    let digits := Nat.toDigits 10 (roundEven (x / (10 : Rat) ^ (k - count + 1))).natAbs
    -- one digit more where rounding carried into the next power of ten
    (digits.take count, k + digits.length - count)

/-- A magnitude with `places` digits behind the point. -/
def fixedText (keep : Bool) (places : Nat) (x : Rat) : List Char :=
  pointed keep places (Nat.toDigits 10 (roundEven (x * 10 ^ places)).natAbs)

/-- A magnitude with one digit before the point, `places` digits behind it, and an exponent. -/
def exponentialText (keep : Bool) (places : Nat) (x : Rat) : List Char :=
  let (digits, k) := leadingDigits (places + 1) x
  pointed keep places digits ++ exponentText k

/-- A magnitude to `count` digits, with an exponent if it is very small or has no place for them.
Zeros at the end of a fraction are left out, unless they are to be kept. -/
def generalText (keep : Bool) (count : Nat) (x : Rat) : List Char :=
  let count := max count 1
  let (digits, k) := leadingDigits count x
  if k < -4 || count ≤ k then
    let digits := if keep then digits else withoutZeros 1 digits
    pointed keep (digits.length - 1) digits ++ exponentText k
  else
    let digits := if keep then digits else withoutZeros (k + 1).toNat digits
    pointed keep (digits.length - (k + 1)).toNat digits

/-- The shortest row of decimal digits that a magnitude is read back from, and the exponent of ten
of the first. Of two rows of one length it is the nearer one. -/
def shortestDigits (x : Rat) : List Char × Int :=
  let k := exponentOf 10 x
  let row (count : Nat) : Option (List Char × Int) :=
    let unit : Rat := 10 ^ (k - count + 1)
    let near := roundEven (x / unit)
    let other := if near ≤ x / unit then near + 1 else near - 1
    let fits (n : Int) : Bool := Double.nearest false (n * unit) = .finite false x
    ([near, other].find? fits).map fun n =>
      let digits := Nat.toDigits 10 n.natAbs
      (withoutZeros 1 digits, k + digits.length - count)
  ((List.range' 1 16).findSome? row).getD (leadingDigits 17 x)

/-- The shortest spelling of a double. -/
def Double.spelling (d : Double) : String :=
  let body := match d with
    | .infinite _ => "inf".toList
    | .finite _ magnitude =>
      if magnitude = 0 then "0.0".toList
      else
        let (digits, k) := shortestDigits magnitude
        if k < -4 || 16 ≤ k then pointed false (digits.length - 1) digits ++ exponentText k
        else
          let digits := digits ++ List.replicate (k + 2 - digits.length).toNat '0'
          pointed false (digits.length - (k + 1)).toNat digits
  String.ofList (if d.negative then '-' :: body else body)

end Decimal

end Typeset
