import Typeset.Failure
import Typeset.Value.Basic
import Typeset.Text.Hex

/-! JSON text of a value, in the order of its fields and with every script left as it is. -/

namespace Typeset.Json

/-- One character between double marks. Controls are named or written by code point. -/
def escapeChar (c : Char) : List Char :=
  if c = '"' || c = '\\' then ['\\', c]
  else if c = '\n' then ['\\', 'n']
  else if c = '\r' then ['\\', 'r']
  else if c = '\t' then ['\\', 't']
  else if c.toNat = 8 then ['\\', 'b']
  else if c.toNat = 12 then ['\\', 'f']
  else if c.toNat < 0x20 then '\\' :: 'u' :: Text.hexDigits 4 c.toNat
  else [c]

/-- Text as a JSON string. -/
def string (s : String) : String :=
  String.ofList ('"' :: (s.toList.flatMap escapeChar ++ ['"']))

/-- A number with a fraction, by its spelling. Infinity is written out. -/
def real (spelling : String) : String :=
  match spelling with
  | "inf" => "Infinity"
  | "-inf" => "-Infinity"
  | spelling => spelling

mutual

/-- A value on one line. -/
def line : Value → String
  | .null => "null"
  | .bool true => "true"
  | .bool false => "false"
  | .int n => Text.decimal n
  | .real spelling => real spelling
  | .str s => string s
  | .list items => "[" ++ String.intercalate ", " (lineItems items) ++ "]"
  | .object fields => "\x7b" ++ String.intercalate ", " (lineFields fields) ++ "\x7d"

def lineItems : List Value → List String
  | [] => []
  | v :: rest => line v :: lineItems rest

def lineFields : List (String × Value) → List String
  | [] => []
  | (key, v) :: rest => (string key ++ ": " ++ line v) :: lineFields rest

end

/-- A value on one line, unless it holds a number that is too long to be written. -/
def dumps (v : Value) : Except Failure String :=
  if v.isWritable then .ok (line v) else .error .badNumber

/-- The start of a line at a depth, two blanks a level. -/
def margin (depth : Nat) : String := String.ofList ('\n' :: List.replicate (2 * depth) ' ')

mutual

/-- A value with one item or field a line; `depth` is the depth of the line it starts on. -/
def tree (depth : Nat) : Value → String
  | .null => "null"
  | .bool true => "true"
  | .bool false => "false"
  | .int n => Text.decimal n
  | .real spelling => real spelling
  | .str s => string s
  | .list [] => "[]"
  | .list (v :: rest) =>
    let sep := "," ++ margin (depth + 1)
    "[" ++ margin (depth + 1) ++ String.intercalate sep (treeItems (depth + 1) (v :: rest)) ++
      margin depth ++ "]"
  | .object [] => "\x7b\x7d"
  | .object (f :: rest) =>
    let sep := "," ++ margin (depth + 1)
    "\x7b" ++ margin (depth + 1) ++ String.intercalate sep (treeFields (depth + 1) (f :: rest)) ++
      margin depth ++ "\x7d"

def treeItems (depth : Nat) : List Value → List String
  | [] => []
  | v :: rest => tree depth v :: treeItems depth rest

def treeFields (depth : Nat) : List (String × Value) → List String
  | [] => []
  | (key, v) :: rest => (string key ++ ": " ++ tree depth v) :: treeFields depth rest

end

/-- A value on lines of its own, unless it holds a number that is too long to be written. -/
def dumpsTree (v : Value) : Except Failure String :=
  if v.isWritable then .ok (tree 0 v) else .error .badNumber

end Typeset.Json
