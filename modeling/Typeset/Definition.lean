import Typeset.Value.Access

/-! What references and footnotes refer to. -/

namespace Typeset

/-- The target of link and image references. -/
structure Definition where
  identifier : Value
  url : Value
  title : Value := .null
  label : Value := .null

/-- The target of footnote references: blocks. -/
structure Footnote where
  identifier : Value
  body : Value := .list []
  label : Value := .null

/-- Targets by the lower-case form of their identifiers. -/
abbrev Targets (α : Type) := List (String × α)

namespace Targets

/-- The target under a key. -/
def find {α : Type} (ts : Targets α) (key : String) : Option α := ts.lookup key

/-- Targets with one of them set, in its place if it has one. -/
def set {α : Type} (key : String) (t : α) : Targets α → Targets α
  | [] => [(key, t)]
  | (k, u) :: rest => if k = key then (k, t) :: rest else (k, u) :: set key t rest

theorem find_set_self {α : Type} (key : String) (t : α) (ts : Targets α) :
    (ts.set key t).find key = some t := by
  unfold find
  induction ts with
  | nil => simp [set]
  | cons f rest ih =>
    obtain ⟨k, u⟩ := f
    by_cases h : k = key
    · simp [set, h]
    · have hb : (key == k) = false := by simpa using fun e => h e.symm
      simp [set, h, List.lookup_cons, hb, ih]

theorem find_set_of_ne {α : Type} {key other : String} (t : α) (ts : Targets α)
    (h : other ≠ key) : (ts.set key t).find other = ts.find other := by
  unfold find
  have hb : (other == key) = false := by simpa using h
  induction ts with
  | nil => simp [set, List.lookup_cons, hb]
  | cons f rest ih =>
    obtain ⟨k, u⟩ := f
    by_cases hk : k = key
    · subst hk
      simp [set, List.lookup_cons, hb]
    · simp only [set, if_neg hk, List.lookup_cons]
      split <;> simp_all

theorem mem_keys_of_find {α : Type} {key : String} {t : α} {ts : Targets α}
    (h : ts.find key = some t) : key ∈ ts.map (·.1) := by
  unfold find at h
  induction ts with
  | nil => simp at h
  | cons f rest ih =>
    obtain ⟨k, u⟩ := f
    simp only [List.lookup_cons] at h
    split at h
    next hk =>
      have hk : key = k := by simpa using hk
      simp [hk]
    next => exact List.mem_cons_of_mem _ (ih h)

end Targets

/-- The fields of an object, if it has no names but the allowed ones and all required ones. -/
def checkFields (allowed required : List String) (fields : List (String × Value)) :
    Except Failure Unit :=
  if fields.all (fun f => allowed.contains f.1) &&
      required.all (fun key => (fields.lookup key).isSome) then .ok ()
  else .error .mismatch

/-- A definition out of named parts. -/
def Definition.ofFields (fields : List (String × Value)) : Except Failure Definition := do
  checkFields ["identifier", "url", "title", "label"] ["identifier", "url"] fields
  let value (key : String) := (fields.lookup key).getD .null
  .ok ⟨value "identifier", value "url", value "title", value "label"⟩

/-- A footnote out of named parts. -/
def Footnote.ofFields (fields : List (String × Value)) : Except Failure Footnote := do
  checkFields ["identifier", "children", "label"] ["identifier"] fields
  let value (key : String) := (fields.lookup key).getD .null
  .ok ⟨value "identifier", (fields.lookup "children").getD (.list []), value "label"⟩

/-- The parts of a definition by name. -/
def Definition.toValue (d : Definition) : Value :=
  .object [("identifier", d.identifier), ("url", d.url), ("title", d.title), ("label", d.label)]

/-- The parts of a footnote by name. -/
def Footnote.toValue (f : Footnote) : Value :=
  .object [("identifier", f.identifier), ("children", f.body), ("label", f.label)]

end Typeset
