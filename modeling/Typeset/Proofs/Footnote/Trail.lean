import Mathlib.Data.List.Chain
import Typeset.Proofs.Token.Within

/-! The graph of the footnotes: one refers to another if a reference to the other stands in its
body. Footnotes that are being expanded inside one another lie on a trail through this graph. -/

namespace Typeset.Footnote

open Render

variable {env : Environment} {active : List String}

/-- A token is a reference to a footnote of some identifier. -/
def IsReference (token : Value) (identifier : String) : Prop :=
  Token.kind token = .ok (.str "footnote_ref") ∧ identifierOf token = .ok identifier

/-- A token occurs in the body of the footnote under a key. -/
def Occurs (env : Environment) (key : String) (token : Value) : Prop :=
  ∃ note items root, env.footnotes.find key = some note ∧ note.body = .list items ∧
    root ∈ items ∧ root.Within token

/-- The footnote under one key refers to that under another. -/
def Refers (env : Environment) (key other : String) : Prop :=
  ∃ token identifier, Occurs env key token ∧ IsReference token identifier ∧
    Text.lower identifier = other

/-- A token that is met while footnotes are being expanded, the innermost first: each of them refers
to the one inside it, and the token occurs in the innermost. -/
structure Placed (env : Environment) (active : List String) (token : Value) : Prop where
  trail : active.IsChain fun inner outer => Refers env outer inner
  occurs : ∀ key, active.head? = some key → Occurs env key token

theorem Placed.outermost (env : Environment) (token : Value) : Placed env [] token :=
  ⟨.nil, by simp⟩

theorem Placed.child {token t : Value} (h : Placed env active token) (ht : token.IsChild t) :
    Placed env active t := by
  refine ⟨h.trail, fun key hk => ?_⟩
  obtain ⟨note, items, root, hf, hb, hr, hw⟩ := h.occurs key hk
  exact ⟨note, items, root, hf, hb, hr, hw.tail ht⟩

theorem Placed.refers {token : Value} {identifier key : String} (h : Placed env active token)
    (hr : IsReference token identifier) (hk : active.head? = some key) :
    Refers env key (Text.lower identifier) :=
  ⟨token, identifier, h.occurs key hk, hr, rfl⟩

/-- The expansion of a footnote goes one step further along the trail. -/
theorem Placed.enter {token t : Value} {identifier : String} {note : Footnote}
    {body : List Value} (h : Placed env active token) (hr : IsReference token identifier)
    (hf : env.footnotes.find (Text.lower identifier) = some note)
    (hb : note.body.tokens = .ok body) (ht : t ∈ body) :
    Placed env (Text.lower identifier :: active) t := by
  refine ⟨?_, fun key hk => ?_⟩
  · rw [List.isChain_cons]
    exact ⟨fun key hk => h.refers hr hk, h.trail⟩
  · cases hk
    exact ⟨note, body, t, hf, Value.eq_list_of_tokens hb ht, ht, .refl⟩

/-- Every footnote on a trail leads to the innermost. -/
theorem reaches_head {key inner : String} {rest : List String}
    (h : (inner :: rest).IsChain fun inner outer => Refers env outer inner)
    (hk : key ∈ inner :: rest) : Relation.ReflTransGen (Refers env) key inner := by
  induction rest generalizing inner with
  | nil =>
    rw [List.mem_singleton.mp hk]
  | cons outer rest ih =>
    rw [List.isChain_cons_cons] at h
    rcases List.mem_cons.mp hk with rfl | hk
    · exact .refl
    · exact (ih h.2 hk).tail h.1

/-- A reference to a footnote that is being expanded closes a cycle. -/
theorem Placed.cycle {token : Value} {identifier : String} (h : Placed env active token)
    (hr : IsReference token identifier) (ha : Text.lower identifier ∈ active) :
    Relation.TransGen (Refers env) (Text.lower identifier) (Text.lower identifier) := by
  cases active with
  | nil => simp at ha
  | cons inner rest => exact .tail' (reaches_head h.trail ha) (h.refers hr rfl)

end Typeset.Footnote
