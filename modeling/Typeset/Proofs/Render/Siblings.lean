import Typeset.Proofs.Render.Postcondition
import Typeset.Render.Document

/-! Blocks beside one another: a block whose type is text always comes to an end, and blocks that
stand one after the other are rendered apart. -/

namespace Typeset

/-- A token whose type is text; a token without a type has the empty one. -/
def Token.Typed (token : Value) : Prop := ∃ kind, Token.kind token = .ok (.str kind)

namespace Render

variable {env : Environment} {active : List String} {indent : Int}

theorem block_outcome_ok {token : Value} (h : Token.Typed token) :
    ∃ text, (block env active token indent).outcome = .ok text := by
  obtain ⟨kind, hk⟩ := h
  rw [block, hk]
  simp only [liftM, monadLift, MonadLift.monadLift, Rendering.ofExcept, bind, Rendering.andThen,
    Token.kindKey_str, Rendering.after]
  split
  · exact ⟨none, rfl⟩
  · split
    · exact ⟨none, rfl⟩
    · exact @Rendering.rescue_outcome_ok _ _ _ (fun _ => none) fun cause => rfl

theorem blocks_outcome_ok {tokens : List Value} (h : ∀ token ∈ tokens, Token.Typed token) :
    ∃ parts, (blocks env active tokens indent).outcome = .ok parts := by
  induction tokens with
  | nil =>
    rw [blocks]
    exact ⟨[], rfl⟩
  | cons token rest ih =>
    obtain ⟨here, hh⟩ := @block_outcome_ok env active indent token (h token List.mem_cons_self)
    obtain ⟨more, hm⟩ := ih fun t ht => h t (List.mem_cons_of_mem _ ht)
    rw [blocks, Rendering.bind_of_ok hh, Rendering.bind_of_ok hm]
    cases here with
    | none => exact ⟨more, rfl⟩
    | some text => exact ⟨_, rfl⟩

/-- Blocks are rendered as those before some place and those after it. -/
theorem blocks_append (xs ys : List Value) :
    blocks env active (xs ++ ys) indent =
      (blocks env active xs indent >>= fun before =>
        blocks env active ys indent >>= fun after => pure (before ++ after)) := by
  induction xs with
  | nil =>
    rw [List.nil_append, blocks]
    simp
  | cons token rest ih =>
    rw [List.cons_append, blocks, blocks, ih]
    simp only [bind_assoc]
    congr 1
    funext here
    cases here with
    | none => simp
    | some text =>
      simp only [pure_bind]
      congr 1
      funext before
      congr 1
      funext after
      split
      · rfl
      · rfl

/-- No part that shows nothing is among the parts of a text. -/
theorem blocks_yield_shown (tokens : List Value) :
    Rendering.Yields (fun parts => ∀ part ∈ parts, part ≠ "")
      (blocks env active tokens indent) := by
  induction tokens with
  | nil =>
    rw [blocks]
    exact Rendering.yields_pure (by simp)
  | cons token rest ih =>
    rw [blocks]
    refine Rendering.yields_bind fun here => ih.bind fun more hm => ?_
    cases here with
    | none => exact Rendering.yields_pure hm
    | some text =>
      refine Rendering.yields_pure ?_
      split
      · exact hm
      next hne => simpa using ⟨hne, hm⟩

/-- The parts of a text are what its blocks show. -/
theorem mem_parts_iff {tokens : List Value} {parts : List String} {part : String}
    (h : (blocks env active tokens indent).outcome = .ok parts) :
    part ∈ parts ↔
      part ≠ "" ∧ ∃ token ∈ tokens, (block env active token indent).outcome = .ok (some part) := by
  induction tokens generalizing parts with
  | nil =>
    rw [blocks] at h
    cases h
    simp
  | cons token rest ih =>
    rw [blocks] at h
    obtain ⟨here, hhere, h⟩ := Rendering.exists_of_bind h
    obtain ⟨more, hmore, h⟩ := Rendering.exists_of_bind h
    have hsplit : (∃ t ∈ token :: rest, (block env active t indent).outcome = .ok (some part)) ↔
        here = some part ∨
          ∃ t ∈ rest, (block env active t indent).outcome = .ok (some part) := by
      simp [hhere]
    rw [hsplit, and_or_left, ← ih hmore]
    cases here with
    | none =>
      cases h
      simp
    | some text =>
      injection h with h
      subst h
      split
      next hempty => simp [hempty, eq_comm]
      next hne =>
        rw [List.mem_cons]
        refine or_congr_left ⟨fun he => ?_, fun he => ?_⟩
        · subst he
          exact ⟨hne, rfl⟩
        · cases he.2
          rfl

/-- The text of two rows of parts is that of each with a separator between; one without parts is
dropped. -/
theorem intercalate_append {separator : String} {xs ys : List String}
    (hx : ∀ x ∈ xs, x ≠ "") (hy : ∀ y ∈ ys, y ≠ "") :
    separator.intercalate (xs ++ ys) =
      separator.intercalate
        ([separator.intercalate xs, separator.intercalate ys].filter (· ≠ "")) := by
  have hne : ∀ zs : List String, (∀ z ∈ zs, z ≠ "") → zs ≠ [] → separator.intercalate zs ≠ "" := by
    intro zs hz hzs h
    cases zs with
    | nil => exact hzs rfl
    | cons z rest =>
      have h0 : z ≠ "" := hz z List.mem_cons_self
      cases rest with
      | nil => exact h0 (by simpa using h)
      | cons w rest => simp_all
  by_cases h1 : xs = []
  · by_cases h2 : ys = []
    · simp [h1, h2]
    · simp [h1, hne ys hy h2]
  · by_cases h2 : ys = []
    · simp [h2, hne xs hx h1]
    · rw [String.intercalate_append_of_ne_nil h1 h2]
      simp [hne xs hx h1, hne ys hy h2]

end Render

end Typeset
