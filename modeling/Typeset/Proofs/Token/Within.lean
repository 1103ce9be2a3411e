import Mathlib.Logic.Relation
import Typeset.Render.Block

/-! Which tokens lie below which, whatever way a renderer takes to them. -/

namespace Typeset

namespace Value

/-- A token is a child of another if it is an item of the list of its children. -/
def IsChild (parent child : Value) : Prop :=
  ∃ fields items, parent = .object fields ∧ fields.lookup "children" = some (.list items) ∧
    child ∈ items

theorem eq_list_of_tokens {v item : Value} {items : List Value} (h : v.tokens = .ok items)
    (hi : item ∈ items) : v = .list items := by
  unfold tokens at h
  split at h
  · injection h with h
    rw [h]
  · split at h <;> simp_all
  · split at h <;> simp_all
  · simp at h

theorem eq_list_of_members {v item : Value} {items : List Value} (h : v.members = .ok items)
    (hi : item ∈ items) : v = .list items := by
  unfold members at h
  split at h
  · injection h with h
    rw [h]
  · split at h <;> simp_all
  · split at h <;> simp_all
  · simp at h

theorem eq_list_of_membersIfAny {v item : Value} {items : List Value}
    (h : v.membersIfAny = .ok items) (hi : item ∈ items) : v = .list items := by
  unfold membersIfAny at h
  split at h
  · exact eq_list_of_members h hi
  · simp_all

theorem isChild_of_mem {read : Value → Except Failure (List Value)}
    (hread : ∀ {v items item}, read v = .ok items → item ∈ items → v = .list items)
    {parent child : Value} {items : List Value} (h : parent.childrenAs read = .ok items)
    (hi : child ∈ items) : IsChild parent child := by
  unfold childrenAs at h
  split at h
  next fields =>
    split at h
    next c hc => exact ⟨fields, items, rfl, by rw [hc, hread h hi], hi⟩
    next => simp_all
  next => simp at h

theorem mem_of_isChild {read : Value → Except Failure (List Value)}
    (hread : ∀ items, read (.list items) = .ok items) {parent child : Value} {items : List Value}
    (h : parent.childrenAs read = .ok items) (hc : IsChild parent child) : child ∈ items := by
  obtain ⟨fields, others, rfl, hl, hm⟩ := hc
  obtain rfl : others = items := by simpa [childrenAs, hl, hread] using h
  exact hm

theorem isChild_of_children {parent child : Value} {items : List Value}
    (h : parent.children = .ok items) (hi : child ∈ items) : IsChild parent child :=
  isChild_of_mem eq_list_of_tokens h hi

theorem isChild_iff_of_children {parent child : Value} {items : List Value}
    (h : parent.children = .ok items) : IsChild parent child ↔ child ∈ items :=
  ⟨mem_of_isChild (fun _ => rfl) h, isChild_of_children h⟩

/-- A token lies within another if it is that token or lies within one of its children. -/
def Within (parent descendant : Value) : Prop :=
  Relation.ReflTransGen IsChild parent descendant

/-- A property holds everywhere in a token if each token within has it. -/
def Everywhere (P : Value → Prop) (token : Value) : Prop := ∀ t, token.Within t → P t

theorem Everywhere.self {P : Value → Prop} {token : Value} (h : token.Everywhere P) : P token :=
  h token .refl

theorem Everywhere.intro {P : Value → Prop} {token : Value} (h : P token)
    (hc : ∀ t, token.IsChild t → t.Everywhere P) : token.Everywhere P := by
  intro t ht
  rcases Relation.ReflTransGen.cases_head ht with rfl | ⟨u, hu, htu⟩
  · exact h
  · exact hc u hu t htu

theorem everywhere_object {P : Value → Prop} {fields : List (String × Value)}
    (h : P (.object fields))
    (hc : ∀ items, fields.lookup "children" = some (.list items) → ∀ t ∈ items, t.Everywhere P) :
    (object fields).Everywhere P := by
  refine Everywhere.intro h fun t ht => ?_
  obtain ⟨fields, items, hf, hl, hi⟩ := ht
  cases hf
  exact hc items hl t hi

theorem everywhere_branch {P : Value → Prop} {kind : String} {children : List Value}
    (h : P (Token.branch kind children)) (hc : ∀ t ∈ children, t.Everywhere P) :
    (Token.branch kind children).Everywhere P := by
  refine everywhere_object h fun items hl => ?_
  cases hl
  exact hc

theorem everywhere_leaf {P : Value → Prop} {kind raw : String} (h : P (Token.leaf kind raw)) :
    (Token.leaf kind raw).Everywhere P := by
  refine everywhere_object h fun items hl => ?_
  cases hl

theorem everywhere_marked {P : Value → Prop} {kind : String} {attrs : List (String × Value)}
    (h : P (Token.marked kind attrs)) : (Token.marked kind attrs).Everywhere P := by
  refine everywhere_object h fun items hl => ?_
  cases hl

theorem everywhere_markedBranch {P : Value → Prop} {kind : String}
    {attrs : List (String × Value)} {children : List Value}
    (h : P (Token.markedBranch kind attrs children)) (hc : ∀ t ∈ children, t.Everywhere P) :
    (Token.markedBranch kind attrs children).Everywhere P := by
  refine everywhere_object h fun items hl => ?_
  cases hl
  exact hc

theorem Everywhere.child {P : Value → Prop} {token t : Value} (h : token.Everywhere P)
    (ht : token.IsChild t) : t.Everywhere P :=
  fun u hu => h u (.head ht hu)

end Value

namespace Render

theorem isChild_of_itemParts {parent child : Value} {items : List Value}
    (h : itemParts parent = .ok items) (hi : child ∈ items) : parent.IsChild child :=
  Value.isChild_of_mem Value.eq_list_of_members h hi

theorem isChild_iff_of_itemParts {parent child : Value} {items : List Value}
    (h : itemParts parent = .ok items) : parent.IsChild child ↔ child ∈ items :=
  ⟨Value.mem_of_isChild (fun _ => rfl) h, isChild_of_itemParts h⟩

theorem isChild_of_rowsOf {parent child : Value} {items : List Value}
    (h : rowsOf parent = .ok items) (hi : child ∈ items) : parent.IsChild child :=
  Value.isChild_of_mem Value.eq_list_of_membersIfAny h hi

end Render

end Typeset
