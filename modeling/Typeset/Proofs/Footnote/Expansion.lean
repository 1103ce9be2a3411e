import Typeset.Proofs.Footnote.Guarded
import Typeset.Proofs.Session.Frame

/-! A footnote is reported to refer to itself only if it does so in the graph of the footnotes. -/

namespace Typeset.Footnote

section Cycle

open Render Rendering

variable {env : Environment} {active : List String}

/-- An issue reports a cycle only of a footnote that leads back to itself. -/
def Sound (env : Environment) (issue : Issue) : Prop :=
  issue.code = .footnoteCycle → ∃ identifier,
    issue.details = [("identifier", .str identifier)] ∧
    Relation.TransGen (Refers env) (Text.lower identifier) (Text.lower identifier)

theorem sound_guarded (env : Environment) : Guarded env (Sound env) (Placed env) where
  child hp hc := hp.child hc
  enter hp href hf hb ht := hp.enter href hf hb ht
  cycle hp href ha := fun _ => ⟨_, rfl, hp.cycle href ha⟩
  issue hm hc := by
    rw [hc] at hm
    exact absurd hm (by decide)

/-- Outside all expansions, a footnote is reported to refer to itself only if it does. -/
theorem block_reports_sound (env : Environment) (token : Value) (indent : Int) :
    Reports (Sound env) (block env [] token indent) :=
  (sound_guarded env).guarding_inductive.holds.block [] token indent (Placed.outermost env token)

theorem inlines_report_sound (env : Environment) (tokens : List Value) :
    Reports (Sound env) (inlines env [] tokens) :=
  (sound_guarded env).guarding_inductive.holds.inlines [] tokens
    fun token _ => Placed.outermost env token

end Cycle

/-! Rendering comes to an end whatever the footnotes refer to: expansions are nested no deeper than
there are footnotes to expand. -/

section Expansion

open Render

variable {α : Type}

/-- On this session the step comes to an end, with what the rendering comes to. Wherever it expanded
footnotes inside one another they were distinct footnotes that are defined and were not being
expanded before, and outside all expansions it reports a footnote to refer to itself only if it does
so in the graph of the footnotes. -/
def Finishes (s : Session) (x : Act α) (r : Rendering α) : Prop :=
  ∃ opened,
    x s = some (r.outcome, s.extend r.issues r.remoteImage opened) ∧
    (∀ chain ∈ opened, ∃ keys, chain = keys ++ s.active ∧ keys.Nodup ∧
      (∀ key ∈ keys, key ∉ s.active ∧ key ∈ s.env.footnotes.map (·.1)) ∧
      keys.length ≤ s.env.footnotes.length) ∧
    (s.active = [] → ∀ issue ∈ r.issues, issue.code = .footnoteCycle → ∃ identifier,
      issue.details = [("identifier", .str identifier)] ∧
      Relation.TransGen (Refers s.env) (Text.lower identifier) (Text.lower identifier)) ∧
    (s.active = [] → (∀ key, ¬ Relation.TransGen (Refers s.env) key key) →
      ∀ issue ∈ r.issues, issue.code ≠ .footnoteCycle)

theorem finishes {s : Session} {x : Act α} {r : Rendering α}
    (hx : Act.Follows s.env s.active x r)
    (hr : s.active = [] → Rendering.Reports (Sound s.env) r) : Finishes s x r := by
  obtain ⟨opened, ho, hx⟩ := hx
  refine ⟨opened, hx s rfl rfl, fun chain hc => ?_, fun ha issue hi => hr ha issue hi,
    fun ha hacyclic issue hi hcode => ?_⟩
  · have hle := (ho chain hc).length_le
    obtain ⟨keys, rfl, hnd, hkeys⟩ := ho chain hc
    exact ⟨keys, rfl, hnd, hkeys, by simpa using hle⟩
  · obtain ⟨identifier, _, hcycle⟩ := hr ha issue hi hcode
    exact hacyclic _ hcycle

/-- Blocks and inlines of any shape are rendered to an end, with expansions allowed to nest as deep
as there are footnotes that are not being expanded yet. -/
theorem rendering_finishes (s : Session) {depth : Nat} (hd : s.env.remaining s.active ≤ depth) :
    (∀ token indent, Finishes s (Act.block depth token indent)
      (Render.block s.env s.active token indent)) ∧
      ∀ tokens, Finishes s (Act.inlines depth tokens)
        (Render.inlines s.env s.active tokens) := by
  refine ⟨fun token indent => ?_, fun tokens => ?_⟩
  · refine finishes (Act.block_tracks s.env s.active token indent depth hd) fun ha => ?_
    rw [ha]
    exact block_reports_sound s.env token indent
  · refine finishes (Act.inlines_track s.env s.active tokens depth hd) fun ha => ?_
    rw [ha]
    exact inlines_report_sound s.env tokens

theorem rendering_finishes_selfReferring :
    Act.selfReferring.remaining [] ≤ 1 ∧
      Finishes { env := Act.selfReferring } (Act.block 1 Act.referring 0)
        (Render.block Act.selfReferring [] Act.referring 0) ∧
      Finishes { env := Act.selfReferring } (Act.inlines 1 [Act.referring])
        (Render.inlines Act.selfReferring [] [Act.referring]) := by
  have hd : Act.selfReferring.remaining [] ≤ 1 := by decide
  obtain ⟨hblock, hinlines⟩ := rendering_finishes { env := Act.selfReferring } hd
  exact ⟨hd, hblock Act.referring 0, hinlines [Act.referring]⟩

end Expansion

end Typeset.Footnote
