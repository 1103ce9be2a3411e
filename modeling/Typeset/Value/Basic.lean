import Typeset.Value.Double

/-! Values of any shape, as they stand in token trees, options and log records. -/

namespace Typeset

/-- A value of any shape. The fields of an object keep their order. -/
inductive Value
  | null
  | bool (b : Bool)
  | int (n : Int)
  /-- A floating-point number, by its shortest spelling. -/
  | real (spelling : String)
  | str (s : String)
  | list (items : List Value)
  | object (fields : List (String × Value))
  deriving Repr, Inhabited

namespace Value

mutual

/-- Whether two values are the same, with the fields of objects in the same order. -/
def same : Value → Value → Bool
  | .null, .null => true
  | .bool a, .bool b => a == b
  | .int n, .int m => n == m
  | .real s, .real t => s == t
  | .str s, .str t => s == t
  | .list vs, .list ws => sameItems vs ws
  | .object fs, .object gs => sameFields fs gs
  | _, _ => false

def sameItems : List Value → List Value → Bool
  | [], [] => true
  | v :: vs, w :: ws => same v w && sameItems vs ws
  | _, _ => false

def sameFields : List (String × Value) → List (String × Value) → Bool
  | [], [] => true
  | (k, v) :: fs, (l, w) :: gs => k == l && same v w && sameFields fs gs
  | _, _ => false

end

instance : BEq Value := ⟨same⟩

/-- The name of a value's kind. -/
def kindName : Value → String
  | .null => "NoneType"
  | .bool _ => "bool"
  | .int _ => "int"
  | .real _ => "float"
  | .str _ => "str"
  | .list _ => "list"
  | .object _ => "dict"

/-- Whether a value counts as present: not null, false, zero or empty. -/
def truthy : Value → Bool
  | .null => false
  | .bool b => b
  | .int n => n != 0
  | .real spelling => (mantissa spelling).any fun c => c != '0' && c != '.' && c != '-' && c != '+'
  | .str s => s != ""
  | .list items => !items.isEmpty
  | .object fields => !fields.isEmpty

/-- A value if it counts as present, else another. -/
def orElse (v w : Value) : Value := if v.truthy then v else w

mutual

/-- Whether every whole number in a value is short enough to be written in decimal. -/
def isWritable : Value → Bool
  | .int n => Text.isWritable n
  | .list items => itemsWritable items
  | .object fields => fieldsWritable fields
  | _ => true

def itemsWritable : List Value → Bool
  | [] => true
  | v :: rest => isWritable v && itemsWritable rest

def fieldsWritable : List (String × Value) → Bool
  | [] => true
  | (_, v) :: rest => isWritable v && fieldsWritable rest

end

/-- The text inside, if the value is text. -/
def str? : Value → Option String
  | .str s => some s
  | _ => none

/-- The fields inside, if the value is an object. -/
def fields? : Value → Option (List (String × Value))
  | .object fields => some fields
  | _ => none

/-- Text as a value, absence as null. -/
def ofText? : Option String → Value
  | some s => .str s
  | none => .null

/-- A list of texts as a value. -/
def ofTexts (ss : List String) : Value := .list (ss.map .str)

/-- Whether two values that may stand for a kind are the same text. -/
def isText (v : Value) (s : String) : Bool :=
  match v with
  | .str t => t == s
  | _ => false

/-- Fields with one of them set: in its place if it is there, else at the end. -/
def setField (key : String) (v : Value) : List (String × Value) → List (String × Value)
  | [] => [(key, v)]
  | (k, w) :: rest => if k = key then (k, v) :: rest else (k, w) :: setField key v rest

theorem lookup_setField (key : String) (v : Value) (fields : List (String × Value)) :
    (setField key v fields).lookup key = some v := by
  induction fields with
  | nil => simp [setField]
  | cons f rest ih =>
    obtain ⟨k, w⟩ := f
    by_cases h : k = key
    · simp [setField, h]
    · have hb : (key == k) = false := by simpa using fun e => h e.symm
      simp [setField, h, List.lookup_cons, hb, ih]

theorem setField_setField (key : String) (v w : Value) (fields : List (String × Value)) :
    setField key w (setField key v fields) = setField key w fields := by
  induction fields with
  | nil => simp [setField]
  | cons f rest ih =>
    obtain ⟨k, u⟩ := f
    by_cases h : k = key
    · simp [setField, h]
    · simp [setField, h, ih]

/-- Fields overridden in order by others. -/
def override (fields others : List (String × Value)) : List (String × Value) :=
  others.foldl (fun acc f => setField f.1 f.2 acc) fields

end Value

end Typeset

/-! Comparing the numbers among values. -/

namespace Typeset.Value

/-- How a value compares with a whole number, if it is a number. Truth values count as one and
zero. -/
def compareTo? (v : Value) (n : Int) : Option Ordering :=
  match v with
  | .bool b => some (compare (if b then 1 else 0) n)
  | .int m => some (compare m n)
  | .real spelling => some ((Double.ofSpelling spelling).compareTo n)
  | _ => none

end Typeset.Value
