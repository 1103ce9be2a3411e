import Typeset.Failure

/-! Taking values apart. Each way of looking into a value names the failure of a value that does
not allow it. -/

namespace Typeset.Value

/-- The field of an object; none if it lacks the key. A value that is no object has no fields. -/
def field? (v : Value) (key : String) : Except Failure (Option Value) :=
  match v with
  | .object fields => .ok (fields.lookup key)
  | _ => .error .noMember

/-- The field of an object, or a default if it lacks the key. -/
def field (v : Value) (key : String) (default : Value) : Except Failure Value :=
  (v.field? key).map (·.getD default)

theorem field_object (fields : List (String × Value)) (key : String) (default : Value) :
    (object fields).field key default = .ok ((fields.lookup key).getD default) := rfl

/-- The field of an object that must be there. -/
def required (v : Value) (key : String) : Except Failure Value :=
  match v with
  | .object fields =>
    match fields.lookup key with
    | some w => .ok w
    | none => .error .missingKey
  | _ => .error .mismatch

/-- The attribute of a token; an absent attribute object has no attributes. -/
def attr (v : Value) (key : String) (default : Value) : Except Failure Value := do
  (← v.field "attrs" (.object [])).field key default

/-- The tokens that a value holds: the items of a list. Text and objects hold none, and asking
their first part for a field fails; other values cannot be gone through. -/
def tokens : Value → Except Failure (List Value)
  | .list items => .ok items
  | .str s => if s = "" then .ok [] else .error .noMember
  | .object fields => if fields.isEmpty then .ok [] else .error .noMember
  | _ => .error .mismatch

/-- The parts that a value goes through: items, characters or keys. -/
def parts : Value → Except Failure (List Value)
  | .list items => .ok items
  | .str s => .ok (s.toList.map fun c => .str (String.singleton c))
  | .object fields => .ok (fields.map fun f => .str f.1)
  | _ => .error .mismatch

/-- The number of parts of a value. -/
def count (v : Value) : Except Failure Nat := v.parts.map List.length

/-- The part at a position that lies within the count. -/
def at? (v : Value) (i : Nat) : Except Failure Value :=
  match v with
  | .list items =>
    match items[i]? with
    | some w => .ok w
    | none => .error .mismatch
  | .str s =>
    match s.toList[i]? with
    | some c => .ok (.str (String.singleton c))
    | none => .error .mismatch
  | .object _ => .error .missingKey
  | _ => .error .mismatch

/-- The items that a value holds by position. Text and objects hold none, and their first part is
no item; other values have no positions. -/
def members : Value → Except Failure (List Value)
  | .list items => .ok items
  | .str s => if s = "" then .ok [] else .error .noMember
  | .object fields => if fields.isEmpty then .ok [] else .error .missingKey
  | _ => .error .mismatch

/-- The items that a value holds by position, where what counts as absent holds none. -/
def membersIfAny (v : Value) : Except Failure (List Value) :=
  if v.truthy then v.members else .ok []

/-- What is below a token, read in a given way. -/
def childrenAs (read : Value → Except Failure (List Value)) (v : Value) :
    Except Failure (List Value) :=
  match v with
  | .object fields =>
    match fields.lookup "children" with
    | some c => read c
    | none => .ok []
  | _ => .error .noMember

/-- The tokens below a token. -/
def children (v : Value) : Except Failure (List Value) := v.childrenAs tokens

/-- The text inside a value that an operation on text was asked of. -/
def asText : Value → Except Failure String
  | .str s => .ok s
  | _ => .error .noMember

/-- The text inside a value handed to an operation that takes text. -/
def needText : Value → Except Failure String
  | .str s => .ok s
  | _ => .error .mismatch

/-- Whether a value can be looked up among keys: lists and objects cannot. -/
def hashable : Value → Bool
  | .list _ => false
  | .object _ => false
  | _ => true

/-- The texts of values that are to be joined. -/
def needTexts (vs : List Value) : Except Failure (List String) := vs.mapM needText

theorem sizeOf_head_lt (v : Value) (rest : List Value) : sizeOf v < sizeOf (v :: rest) := by
  rw [List.cons.sizeOf_spec]
  omega

theorem sizeOf_tail_lt (v : Value) (rest : List Value) : sizeOf rest < sizeOf (v :: rest) := by
  rw [List.cons.sizeOf_spec]
  omega

theorem sizeOf_nil_lt_object (fields : List (String × Value)) :
    sizeOf ([] : List Value) < sizeOf (object fields) := by
  cases fields with
  | nil => simp
  | cons f rest =>
    simp only [List.nil.sizeOf_spec, object.sizeOf_spec, List.cons.sizeOf_spec]
    omega

theorem sizeOf_lookup_lt {fields : List (String × Value)} {key : String} {v : Value}
    (h : fields.lookup key = some v) : sizeOf v < sizeOf fields := by
  induction fields with
  | nil => simp at h
  | cons f rest ih =>
    obtain ⟨k, w⟩ := f
    simp only [List.lookup_cons] at h
    split at h
    · simp at h
      subst h
      simp
      omega
    · have := ih h
      simp
      omega

theorem sizeOf_tokens_le {v : Value} {items : List Value} (h : v.tokens = .ok items) :
    sizeOf items ≤ sizeOf v := by
  unfold tokens at h
  split at h
  · injection h with h
    subst h
    simp
  · split at h
    · injection h with h
      subst h
      simp
    · simp at h
  · split at h
    · injection h with h
      subst h
      simp
    · simp at h
  · simp at h

theorem sizeOf_members_le {v : Value} {items : List Value} (h : v.members = .ok items) :
    sizeOf items ≤ sizeOf v := by
  unfold members at h
  split at h
  · injection h with h
    subst h
    simp
  · split at h
    · injection h with h
      subst h
      simp
    · simp at h
  · split at h
    · injection h with h
      subst h
      simp
    · simp at h
  · simp at h

theorem sizeOf_membersIfAny_le {v : Value} {items : List Value}
    (h : v.membersIfAny = .ok items) : sizeOf items ≤ sizeOf v := by
  unfold membersIfAny at h
  split at h
  · exact sizeOf_members_le h
  · injection h with h
    subst h
    cases v <;> simp

theorem sizeOf_childrenAs_lt {read : Value → Except Failure (List Value)}
    (hread : ∀ {v items}, read v = .ok items → sizeOf items ≤ sizeOf v) {v : Value}
    {items : List Value} (h : v.childrenAs read = .ok items) : sizeOf items < sizeOf v := by
  unfold childrenAs at h
  split at h
  · split at h
    · next fields c hc =>
      have h1 := sizeOf_lookup_lt hc
      have h2 := hread h
      simp
      omega
    · next fields _ _ =>
      injection h with h
      subst h
      exact sizeOf_nil_lt_object fields
  · simp at h

/-- The tokens below a token are smaller than it. -/
theorem sizeOf_children_lt {v : Value} {items : List Value} (h : v.children = .ok items) :
    sizeOf items < sizeOf v := sizeOf_childrenAs_lt sizeOf_tokens_le h

end Typeset.Value
