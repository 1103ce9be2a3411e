import Typeset.Failure
import Typeset.Text.Hex
import Typeset.Value.Basic

/-! Points in time as text. -/

namespace Typeset.Log

/-- A year, month and day of the calendar. -/
structure Day where
  year : Int
  month : Nat
  day : Nat
  deriving DecidableEq, Repr

/-- The day that comes so many days after the first of January 1970. Years are counted from the
first of March, so that a leap day is the last day of its year, and in spans of four hundred years,
which all have the same length. -/
def Day.ofCount (count : Int) : Day :=
  let shifted := count + 719468
  let span := shifted.fdiv 146097
  let inSpan := (shifted.fmod 146097).toNat
  let yearInSpan := (inSpan - inSpan / 1460 + inSpan / 36524 - inSpan / 146096) / 365
  let inYear := inSpan - (365 * yearInSpan + yearInSpan / 4 - yearInSpan / 100)
  let fromMarch := (5 * inYear + 2) / 153
  let month := if fromMarch < 10 then fromMarch + 3 else fromMarch - 9
  { year := span * 400 + yearInSpan + if month ≤ 2 then 1 else 0
    month
    day := inYear - (153 * fromMarch + 2) / 5 + 1 }

/-- Microseconds since 1970, from seconds. What a double has behind its point is scaled as doubles
are, which rounds it a first time. -/
def microseconds (v : Value) : Except Failure Int :=
  match v with
  | .int n => .ok (n * 1000000)
  | .bool b => .ok (if b then 1000000 else 0)
  | .real spelling =>
    match Double.ofSpelling spelling with
    | .infinite _ => .error .overflow
    | .finite negative seconds =>
      let part := roundEven (Double.rounded ((seconds - seconds.floor) * 1000000))
      let count := seconds.floor * 1000000 + part
      .ok (if negative then -count else count)
  | _ => .error .mismatch

/-- Seconds since 1970 are counted from minus this number to below it, in 64 binary digits. -/
def clockBound : Int := 9223372036854775808

/-- The clock counts the years since 1900 in the same way, in 32 binary digits. -/
def yearBound : Int := 2147483648

/-- A point in time in universal time. Microseconds are shown where there are any. -/
def timestamp (v : Value) : Except Failure String := do
  let count ← microseconds v
  let seconds := count.fdiv 1000000
  let fraction := (count.fmod 1000000).toNat
  let day := Day.ofCount (seconds.fdiv 86400)
  let inDay := (seconds.fmod 86400).toNat
  let two := Text.padded 2
  if seconds < -clockBound || clockBound ≤ seconds then throw .overflow
  else if day.year - 1900 < -yearBound || yearBound ≤ day.year - 1900 then
    throw (.foreign "OSError" "<cause>")
  else if day.year < 1 || 9999 < day.year then throw .badNumber
  else
    return Text.padded 4 day.year.toNat ++ "-" ++ two day.month ++ "-" ++ two day.day ++ "T" ++
      two (inDay / 3600) ++ ":" ++ two (inDay / 60 % 60) ++ ":" ++ two (inDay % 60) ++
      (if fraction = 0 then "" else "." ++ Text.padded 6 fraction) ++ "+00:00"

end Typeset.Log
