import Typeset.Issue
import Typeset.Text.Blank
import Typeset.Text.Case
import Typeset.Text.Hex

/-! Dates of the proleptic Gregorian calendar, as authors write them and as the document rule
takes them. -/

namespace Typeset.Date

/-- Whether a year has a 29th of February. -/
def isLeap (year : Nat) : Bool := year % 4 == 0 && (year % 100 != 0 || year % 400 == 0)

/-- The number of days in a month. -/
def daysIn (year month : Nat) : Nat :=
  if month = 2 then (if isLeap year then 29 else 28)
  else if month = 4 || month = 6 || month = 9 || month = 11 then 30
  else 31

/-- The first thing wrong with the numbers of a date. -/
def fault? (year month day : Nat) : Option CalendarFault :=
  if year = 0 then some .year
  else if month = 0 || 12 < month then some .month
  else if day = 0 || daysIn year month < day then some .day
  else none

/-- The leading decimal digits of a text, at least `low` and at most `high` of them. -/
def takeDigits (low high : Nat) (cs : List Char) : Option (List Char × List Char) :=
  let digits := (cs.take high).takeWhile Text.isDecimalDigit
  if digits.length < low then none else some (digits, cs.drop digits.length)

/-- Four digits, one or two, and one or two, joined by hyphens; and what follows them. -/
def leadingDate (cs : List Char) : Option ((List Char × List Char × List Char) × List Char) := do
  let (year, cs) ← takeDigits 4 4 cs
  let cs ← Text.after? ['-'] cs
  let (month, cs) ← takeDigits 1 2 cs
  let cs ← Text.after? ['-'] cs
  let (day, cs) ← takeDigits 1 2 cs
  some ((year, month, day), cs)

/-- The year, month and day that a whole text writes. -/
def numbers? (cs : List Char) : Option (Nat × Nat × Nat) :=
  match leadingDate cs with
  | some ((year, month, day), []) =>
    some (Text.numberOfDigits year, Text.numberOfDigits month, Text.numberOfDigits day)
  | _ => none

/-- Whether a text starts with a clock time: one or two digits, a colon and two digits. -/
def startsWithClock (cs : List Char) : Bool :=
  match takeDigits 1 2 cs with
  | some (_, ':' :: rest) => (takeDigits 2 2 rest).isSome
  | _ => false

/-- The date of a text that starts with a date and a clock time, joined by the letter T or by
blanks. -/
def ofTimestamp? (cs : List Char) : Option (List Char) :=
  match leadingDate cs with
  | some ((year, month, day), rest) =>
    let date := year ++ '-' :: month ++ '-' :: day
    match rest with
    | 'T' :: rest => if startsWithClock rest then some date else none
    | 't' :: rest => if startsWithClock rest then some date else none
    | c :: _ =>
      if (c = ' ' || c = '\t') &&
          startsWithClock (rest.dropWhile fun c => c = ' ' || c = '\t') then
        some date
      else none
    | [] => none
  | none => none

/-- A date as an expression. -/
def expression (year month day : Nat) : String :=
  "datetime(day: " ++ Text.decimal day ++ ", month: " ++ Text.decimal month ++ ", year: " ++
    Text.decimal year ++ ")"

/-- An issue about a date that is given up in favour of today's. -/
def issue (value reason : String) (cause : Option Failure) : Issue where
  severity := .warning
  code := .invalidDate
  message := reason
  stage := .outputBuilding
  details := [("date", .str value)]
  cause := cause

/-- The expression for a date as an author writes it: a calendar date, or one of two keywords in
any case; anything else stands for today and is reported. -/
def parse (value : String) : Reported String :=
  let text := Text.strip value
  let keyword := Text.lower text
  if keyword = "auto" || keyword = "none" then ⟨keyword, []⟩
  else match numbers? text.toList with
    | some (year, month, day) =>
      match fault? year month day with
      | none => ⟨expression year month day, []⟩
      | some fault =>
        ⟨"auto", [issue value
          ("Invalid date \"" ++ value ++ "\": " ++ fault.message ++ "; using auto")
          (some (.calendar fault))]⟩
    | none =>
      ⟨"auto", [issue value
        ("Unrecognised date \"" ++ value ++
          "\"; expected YYYY-MM-DD, auto or none. Using auto") none]⟩

end Typeset.Date
