import Typeset.Definition
import Typeset.Render.Rendering

/-! What rendering looks things up in. -/

namespace Typeset.Render

/-- What rendering needs to know besides the tokens. -/
structure Environment where
  /-- Report inline tokens of unknown kinds. -/
  warnUnknownInline : Bool := false
  definitions : Targets Definition := []
  footnotes : Targets Footnote := []
  /-- How LaTeX becomes Typst math. -/
  convertMath : String → Except Failure String
  /-- Whether blocks can be rendered inside footnotes. -/
  rendersFootnotes : Bool := true

/-- The footnotes that are not being expanded already. -/
def Environment.remaining (env : Environment) (active : List String) : Nat :=
  (env.footnotes.filter fun f => !active.contains f.1).length

/-- Expanding a footnote leaves fewer to expand inside it. -/
theorem Environment.remaining_lt {env : Environment} {active : List String} {key : String}
    {note : Footnote} (hf : env.footnotes.find key = some note) (ha : key ∉ active) :
    env.remaining (key :: active) < env.remaining active := by
  obtain ⟨before, after, hnotes, -⟩ := List.lookup_eq_some_iff.mp hf
  have hsplit : (env.footnotes.filter fun f => !(key :: active).contains f.1) =
      (env.footnotes.filter fun f => !active.contains f.1).filter fun f => f.1 != key := by
    rw [List.filter_filter]
    congr
    funext f
    rw [List.contains_cons, Bool.not_or, bne]
  rw [remaining, remaining, hsplit, List.length_filter_lt_length_iff_exists]
  refine ⟨(key, note), List.mem_filter.mpr ⟨?_, by simp [ha]⟩, by simp⟩
  rw [hnotes]
  exact List.mem_append_right _ (List.mem_cons_self ..)

/-- The severity, code and stage of an issue met while inlines are rendered. -/
def inlineWarning (code : IssueCode) (message key : String) (value : Value) : Issue where
  severity := .warning
  code := code
  message := message
  stage := .inlineRendering
  details := [(key, value)]

end Typeset.Render
