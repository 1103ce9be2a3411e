import Typeset.Text.Blank

/-! Decimal digits of every script, Unicode 14. Each script's digits are ten consecutive code
points from its zero, so the zeros are all there is to list. -/

namespace Typeset.Text

section Digit

/-- The code points of the digit zero. -/
def digitZeros : List Nat := [
  48, 1632, 1776, 1984, 2406, 2534, 2662, 2790, 2918, 3046, 3174, 3302, 3430, 3558, 3664, 3792,
  3872, 4160, 4240, 6112, 6160, 6470, 6608, 6784, 6800, 6992, 7088, 7232, 7248, 42528, 43216,
  43264, 43472, 43504, 43600, 44016, 65296, 66720, 68912, 69734, 69872, 69942, 70096, 70384,
  70736, 70864, 71248, 71360, 71472, 71904, 72016, 72784, 73040, 73120, 92768, 92864, 93008,
  120782, 120792, 120802, 120812, 120822, 123200, 123632, 125264, 130032]

/-- The value of a decimal digit of any script. -/
def digitValue? (c : Char) : Option Nat :=
  (digitZeros.find? fun z => z ≤ c.toNat && c.toNat < z + 10).map (c.toNat - ·)

/-- Whether a character is a decimal digit of any script. -/
def isDecimalDigit (c : Char) : Bool := (digitValue? c).isSome

/-- The number that a row of decimal digits writes; other characters count as zero. -/
def numberOfDigits (cs : List Char) : Nat :=
  cs.foldl (fun n c => 10 * n + (digitValue? c).getD 0) 0

end Digit

/-! Numbers in decimal and hexadecimal. -/

section Hex

/-- A lower-case hexadecimal digit. -/
def hexDigit (n : Nat) : Char :=
  if n < 10 then Char.ofNat (48 + n) else Char.ofNat (87 + n)

/-- The last `width` hexadecimal digits of a number. -/
def hexDigits : Nat → Nat → List Char
  | 0, _ => []
  | width + 1, n => hexDigits width (n / 16) ++ [hexDigit (n % 16)]

/-- The value of a hexadecimal digit of either case. -/
def hexValue? (c : Char) : Option Nat :=
  let n := c.toNat
  if 48 ≤ n && n ≤ 57 then some (n - 48)
  else if 97 ≤ n && n ≤ 102 then some (n - 87)
  else if 65 ≤ n && n ≤ 70 then some (n - 55)
  else none

/-- The number that a row of hexadecimal digits writes; other characters count as zero. -/
def numberOfHex (cs : List Char) : Nat :=
  cs.foldl (fun n c => 16 * n + (hexValue? c).getD 0) 0

/-- An integer in decimal. -/
def decimal (n : Int) : String :=
  if n < 0 then "-" ++ String.ofList (Nat.toDigits 10 n.natAbs)
  else String.ofList (Nat.toDigits 10 n.natAbs)

/-- How many decimal digits a whole number may have that is to be written or read. -/
def digitLimit : Nat := 4300

/-- Whether a whole number is short enough to be written in decimal. -/
def isWritable (n : Int) : Bool := (Nat.toDigits 10 n.natAbs).length ≤ digitLimit

/-- A number in decimal with zeros in front up to a width. -/
def padded (width n : Nat) : String :=
  let digits := Nat.toDigits 10 n
  String.ofList (List.replicate (width - digits.length) '0' ++ digits)

theorem toList_decimal (n : Nat) : (decimal n).toList = Nat.toDigits 10 n := by
  rw [decimal, if_neg (Int.not_lt.mpr (Int.natCast_nonneg n)), String.toList_ofList,
    Int.natAbs_natCast]

theorem isDigit_of_mem_toDigits {n : Nat} {c : Char} (h : c ∈ Nat.toDigits 10 n) :
    c.isDigit = true :=
  Nat.isDigit_of_mem_toDigits (by decide) (by decide) h

theorem isDigit_of_mem_decimal {n : Nat} {c : Char} (h : c ∈ (decimal n).toList) :
    c.isDigit = true :=
  isDigit_of_mem_toDigits (toList_decimal n ▸ h)

theorem decimal_inj {n m : Nat} (h : (decimal n).toList = (decimal m).toList) : n = m := by
  rw [toList_decimal, toList_decimal] at h
  rw [← Nat.ofDigitChars_ten_toDigits (n := n), h, Nat.ofDigitChars_ten_toDigits]

/-- Digits end where another character comes. -/
theorem digits_inj {c : Char} {ds es rest more : List Char} (hds : ∀ d ∈ ds, d.isDigit = true)
    (hes : ∀ e ∈ es, e.isDigit = true) (hc : c.isDigit = false)
    (h : ds ++ c :: rest = es ++ c :: more) : ds = es ∧ rest = more := by
  have hstop {xs ys : List Char} (hxs : ∀ x ∈ xs, x.isDigit = true) :
      (xs ++ c :: ys).takeWhile Char.isDigit = xs := by
    rw [List.takeWhile_append_of_pos hxs, List.takeWhile_cons_of_neg (by simp [hc]),
      List.append_nil]
  have hsame : ds = es := by rw [← hstop hds, h, hstop hes]
  subst hsame
  exact ⟨rfl, List.tail_eq_of_cons_eq (List.append_cancel_left h)⟩

end Hex

/-! Tables of characters. A table is a list of rows, a row holds entries with spaces between them,
and an entry is a key, an equals sign and code points in hexadecimal with hyphens between them. -/

section Codes

/-- The entries of a table. -/
def entries (table : List String) : List (List Char) :=
  table.flatMap fun row => pieces (· == ' ') row.toList

/-- The characters at a list of code points. -/
def charsAt (codes : List Char) : List Char :=
  (pieces (· == '-') codes).map fun digits => Char.ofNat (numberOfHex digits)

/-- The characters that a table gives to a key. -/
def valueOf? (table : List String) (key : List Char) : Option (List Char) :=
  (entries table).findSome? fun entry => (after? (key ++ ['=']) entry).map charsAt

/-- The characters that a table gives to a code point. -/
def valueAt? (table : List String) (n : Nat) : Option (List Char) :=
  (entries table).findSome? fun entry =>
    let key := entry.takeWhile (· != '=')
    if numberOfHex key = n then some (charsAt (entry.drop (key.length + 1))) else none

end Codes

end Typeset.Text
