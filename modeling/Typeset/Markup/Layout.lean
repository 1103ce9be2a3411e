/-! Indentation, array literals and the fences of raw text. -/

namespace Typeset.Markup

/-- One level of indentation. -/
def unit : List Char := [' ', ' ']

/-- As many levels of indentation. -/
def margin (level : Nat) : List Char := (List.replicate level unit).flatten

/-- Every line of a text pushed in by a number of levels; no level below zero pushes out. -/
def indent (s : String) (level : Int) : String :=
  String.ofList (List.intercalate ['\n'] ((s.toList.splitOn '\n').map (margin level.toNat ++ ·)))

/-- An array literal of written items; a single item keeps a comma, or the parentheses would only
group. -/
def array : List String → String
  | [item] => "(" ++ item ++ ",)"
  | items => "(" ++ String.intercalate ", " items ++ ")"

/-- The longest run among the leading run, already `run` long, and all later ones. -/
def longestFrom {α : Type} (p : α → Bool) (run : Nat) : List α → Nat
  | [] => run
  | x :: rest => if p x then longestFrom p (run + 1) rest else max run (longestFrom p 0 rest)

/-- The length of the longest run of members of a class. -/
def longestRun {α : Type} (p : α → Bool) (xs : List α) : Nat := longestFrom p 0 xs

/-- Backticks enough to fence text whose longest run of them is given. -/
def fenceOver (run : Nat) : String := String.ofList (List.replicate (max 3 (run + 1)) '`')

/-- Backticks enough to fence a text: three, or one more than its longest run. -/
def fence (s : String) : String := fenceOver (longestRun (· == '`') s.toList)

end Typeset.Markup
