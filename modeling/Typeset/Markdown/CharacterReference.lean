import Typeset.Markdown.NameTable
import Typeset.Text.Hex

/-! Character references such as `&amp;`, `&#38;` and `&#x26;`, and the text they stand for. -/

namespace Typeset.Markdown

/-- Control characters and code points that are no characters. -/
def isNoncharacter (n : Nat) : Bool :=
  (1 ≤ n && n ≤ 8) || n == 0xB || (0xE ≤ n && n ≤ 0x1F) || (0x7F ≤ n && n ≤ 0x9F) ||
    (0xFDD0 ≤ n && n ≤ 0xFDEF) || 0xFFFE ≤ n % 0x10000

/-- The text that a number stands for. -/
def numberedChars (n : Nat) : List Char :=
  match Text.valueAt? reassigned n with
  | some cs => cs
  | none =>
    if (0xD800 ≤ n && n ≤ 0xDFFF) || 0x10FFFF < n then ['\uFFFD']
    else if isNoncharacter n then []
    else [Char.ofNat n]

/-- Whether a text may stand between `&` and `;`. -/
def isReferenceBody (body : List Char) : Bool :=
  let isNumber (allowed : Char → Bool) (digits : List Char) : Bool :=
    !digits.isEmpty && digits.all allowed
  match body with
  | '#' :: 'x' :: digits => isNumber (fun c => (Text.hexValue? c).isSome) digits
  | '#' :: 'X' :: digits => isNumber (fun c => (Text.hexValue? c).isSome) digits
  | '#' :: digits => isNumber Char.isDigit digits && digits.length ≤ 7
  | name =>
    let plain c := not (['\t', '\n', '\x0c', ' ', '<', '&', '#'].contains c)
    isNumber plain name && name.length ≤ 32

/-- The text between an ampersand and the semicolon that closes its reference. -/
def referenceBody? (cs : List Char) : Option (List Char) :=
  let body := cs.takeWhile (· != ';')
  if body.length < cs.length && isReferenceBody body then some body else none

/-- The longest beginning of a name that counts without a semicolon. -/
def bareBeginning? (name : List Char) : Option (List Char) :=
  let bare := Text.entries bareNames
  (List.range (name.length + 1)).reverse.findSome? fun n =>
    if bare.contains (name.take n) then some (name.take n) else none

/-- The text that a reference stands for. Of an unknown name the longest known beginning counts. -/
def expand (body : List Char) : List Char :=
  match body with
  | '#' :: 'x' :: digits => numberedChars (Text.numberOfHex digits)
  | '#' :: 'X' :: digits => numberedChars (Text.numberOfHex digits)
  | '#' :: digits => numberedChars (Text.numberOfDigits digits)
  | name =>
    match Text.valueOf? nameTable name with
    | some cs => cs
    | none =>
      match bareBeginning? name with
      | some bare => (Text.valueOf? nameTable bare).getD bare ++ name.drop bare.length ++ [';']
      | none => '&' :: name ++ [';']

/-- A text with its character references replaced by what they stand for. -/
def decodeReferences (cs : List Char) : List Char :=
  match cs with
  | [] => []
  | '&' :: rest =>
    match referenceBody? rest with
    | some body => expand body ++ decodeReferences (rest.drop (body.length + 1))
    | none => '&' :: decodeReferences rest
  | c :: rest => c :: decodeReferences rest
termination_by cs.length
decreasing_by
  · exact Nat.lt_succ_of_le (List.drop_sublist _ rest).length_le
  · exact Nat.lt_succ_self _
  · exact Nat.lt_succ_self _

/-- Whether a character reference runs from one text into another that follows it. -/
def joinsReference : List Char → List Char → Bool
  | [], _ => false
  | c :: a, b =>
    (c == '&' && (referenceBody? (a ++ b)).any fun body => a.length ≤ body.length) ||
      joinsReference a b

end Typeset.Markdown
