import Typeset.Proofs.Render.Siblings
import Typeset.Proofs.Session.Simulation

/-! What rendering blocks leaves of a session: all of it but what is appended, whatever failed on
the way. -/

namespace Typeset.Act

open Render

variable {α β : Type} {env : Environment} {active : List String} {depth : Nat} {indent : Int}

/-- On every session with this environment and these footnotes marked, whatever was reported before,
the step ends with one and the same answer and appends the same issues. It changes nothing else but
that it may note a remote image. -/
def Ends (env : Environment) (active : List String) (x : Act α) (answer : α)
    (issues : List Issue) (remoteImage : Bool) : Prop :=
  ∃ opened, ∀ s : Session, s.env = env → s.active = active →
    x s = some (.ok answer,
      { s with
        issues := s.issues ++ issues
        remoteImage := s.remoteImage || remoteImage
        opened := s.opened ++ opened })

theorem Follows.ends {x : Act α} {r : Rendering α} {a : α} (h : Follows env active x r)
    (ha : r.outcome = .ok a) : Ends env active x a r.issues r.remoteImage := by
  obtain ⟨opened, _, hx⟩ := h
  refine ⟨opened, fun s he hs => ?_⟩
  rw [hx s he hs, ha]
  rfl

theorem remaining_le_length (env : Environment) (active : List String) :
    env.remaining active ≤ env.footnotes.length := List.length_filter_le _ _

theorem block_ends (hd : env.footnotes.length ≤ depth) {token : Value}
    (h : Token.Typed token) : ∃ text,
      (Render.block env active token indent).outcome = .ok text ∧
      Ends env active (block depth token indent) text
        (Render.block env active token indent).issues
        (Render.block env active token indent).remoteImage := by
  obtain ⟨text, ht⟩ := @block_outcome_ok env active indent token h
  have hle := remaining_le_length env active
  exact ⟨text, ht, (block_tracks env active token indent depth (by omega)).ends ht⟩

theorem blocksText_ends (hd : env.footnotes.length ≤ depth) {tokens : List Value}
    {parts : List String} (separator : String)
    (h : (Render.blocks env active tokens indent).outcome = .ok parts) :
    Ends env active (blocksText depth tokens indent separator) (separator.intercalate parts)
      (Render.blocks env active tokens indent).issues
      (Render.blocks env active tokens indent).remoteImage := by
  have hle := remaining_le_length env active
  have hf := (blocks_track env active tokens indent depth (by omega)).bind fun parts =>
    follows_pure (separator.intercalate parts)
  have hends := hf.ends (by rw [Rendering.bind_of_ok h]; rfl)
  rw [Rendering.bind_of_ok h] at hends
  simpa [blocksText, Rendering.after] using hends

/-- A block whose type is text always comes to an end, and blocks that stand one after the other are
rendered apart: each row of them to its own text with its own issues, and both rows to the two texts
with the separator between them, one that is empty dropped. -/
theorem blocks_keep_session (env : Environment) (active : List String) {depth : Nat}
    (hd : env.footnotes.length ≤ depth) (indent : Int) :
    (∀ token, Token.Typed token → ∃ text,
      (Render.block env active token indent).outcome = .ok text ∧
      Ends env active (block depth token indent) text
        (Render.block env active token indent).issues
        (Render.block env active token indent).remoteImage) ∧
    ∀ separator xs ys, (∀ token ∈ xs ++ ys, Token.Typed token) →
      ∃ before after issues issues' remote remote',
        Ends env active (blocksText depth xs indent separator) before issues remote ∧
        Ends env active (blocksText depth ys indent separator) after issues' remote' ∧
        Ends env active (blocksText depth (xs ++ ys) indent separator)
          (separator.intercalate ([before, after].filter (· ≠ ""))) (issues ++ issues')
          (remote || remote') := by
  refine ⟨fun token h => block_ends hd h, fun separator xs ys h => ?_⟩
  obtain ⟨before, hb⟩ := @blocks_outcome_ok env active indent xs
    fun token ht => h token (List.mem_append_left ys ht)
  obtain ⟨after, ha⟩ := @blocks_outcome_ok env active indent ys
    fun token ht => h token (List.mem_append_right xs ht)
  refine ⟨_, _, _, _, _, _, blocksText_ends hd separator hb, blocksText_ends hd separator ha, ?_⟩
  have happ := @blocks_append env active indent xs ys
  rw [Rendering.bind_of_ok hb, Rendering.bind_of_ok ha] at happ
  rw [← intercalate_append (blocks_yield_shown xs before hb) (blocks_yield_shown ys after ha)]
  have hboth : (Render.blocks env active (xs ++ ys) indent).outcome = .ok (before ++ after) := by
    rw [happ]
    rfl
  have hends := blocksText_ends hd separator hboth
  rw [happ] at hends
  simpa [Rendering.after] using hends

/-- A paragraph that is a reference to a footnote. -/
def referring : Value :=
  Token.branch "paragraph" [Token.marked "footnote_ref" [("identifier", .str "a")]]

/-- A footnote that refers to itself. -/
def selfReferring : Environment where
  footnotes := [("a", { identifier := .str "a", body := .list [referring] })]
  convertMath := .ok

theorem blocks_keep_session_selfReferring :
    selfReferring.footnotes.length ≤ 1 ∧ (∀ token ∈ [referring] ++ [referring], Token.Typed token) ∧
      (∃ text, (Render.block selfReferring [] referring 0).outcome = .ok text ∧
        Ends selfReferring [] (block 1 referring 0) text
          (Render.block selfReferring [] referring 0).issues
          (Render.block selfReferring [] referring 0).remoteImage) ∧
      ∃ before after issues issues' remote remote',
        Ends selfReferring [] (blocksText 1 [referring] 0 "\n\n") before issues remote ∧
        Ends selfReferring [] (blocksText 1 [referring] 0 "\n\n") after issues' remote' ∧
        Ends selfReferring [] (blocksText 1 ([referring] ++ [referring]) 0 "\n\n")
          ("\n\n".intercalate ([before, after].filter (· ≠ ""))) (issues ++ issues')
          (remote || remote') := by
  have hd : selfReferring.footnotes.length ≤ 1 := by decide
  have htyped : Token.Typed referring := ⟨"paragraph", rfl⟩
  have hall : ∀ token ∈ [referring] ++ [referring], Token.Typed token := by
    intro token ht
    simp only [List.cons_append, List.nil_append, List.mem_cons, List.not_mem_nil, or_false,
      or_self] at ht
    rw [ht]
    exact htyped
  obtain ⟨hone, hrows⟩ := blocks_keep_session selfReferring [] hd 0
  exact ⟨hd, hall, hone referring htyped, hrows "\n\n" [referring] [referring] hall⟩

end Typeset.Act
