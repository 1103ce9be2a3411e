import Typeset.Value.Access

/-! Tokens: objects with a type, and with raw text, attributes or children as their type asks. -/

namespace Typeset.Token

/-- A token with text of its own. -/
def leaf (kind raw : String) : Value := .object [("type", .str kind), ("raw", .str raw)]

/-- A run of text. -/
def text (raw : String) : Value := leaf "text" raw

/-- A token with children. -/
def branch (kind : String) (children : List Value) : Value :=
  .object [("type", .str kind), ("children", .list children)]

/-- A token with attributes. -/
def marked (kind : String) (attrs : List (String × Value)) : Value :=
  .object [("type", .str kind), ("attrs", .object attrs)]

/-- A token with attributes and children. -/
def markedBranch (kind : String) (attrs : List (String × Value)) (children : List Value) : Value :=
  .object [("type", .str kind), ("attrs", .object attrs), ("children", .list children)]

/-- A token's type; a token without one has the empty type. -/
def kind (token : Value) : Except Failure Value := token.field "type" (.str "")

/-- Whether a value may be looked up in a table of kinds, and the kind it then names. -/
def kindKey (kind : Value) : Except Failure (Option String) :=
  if kind.hashable then .ok kind.str? else .error .mismatch

theorem kindKey_str (name : String) : kindKey (.str name) = .ok (some name) := rfl

end Typeset.Token
