import Typeset.Proofs.Render.Footnote
import Typeset.Proofs.Render.Postcondition

/-! The issues that each part of a rendering reports by itself, whatever is asked of them. -/

namespace Typeset

/-- A value that names a form in a table of kinds is the text that it is looked up by. -/
theorem Token.exists_text_of_kindKey {α : Type} {kind : Value} {key : Option String}
    {table : String → Option α} {form : α} (hk : Token.kindKey kind = .ok key)
    (hf : key.bind table = some form) : ∃ name, kind = .str name ∧ table name = some form := by
  obtain ⟨name, rfl, hn⟩ := Option.bind_eq_some_iff.mp hf
  unfold Token.kindKey at hk
  split at hk
  next =>
    injection hk with hk
    cases kind <;> simp_all [Value.str?]
  next => cases hk

namespace Render

open Rendering

variable {env : Environment} {R : Issue → Prop}

theorem imageMarkup_reports (url : Value) : Reports R (imageMarkup url) := by
  unfold imageMarkup
  refine (reports_lift _).bind fun address _ => ?_
  split
  · refine Reports.bind ?_ fun _ _ => reports_pure _
    intro issue h
    cases h
  · exact reports_pure _

theorem imageReferenceMarkup_reports (h : ∀ identifier, R (unresolved "Image" identifier))
    (token : Value) : Reports R (imageReferenceMarkup env token) := by
  unfold imageReferenceMarkup
  refine (reports_lift _).bind fun identifier _ => ?_
  split
  · exact imageMarkup_reports _
  · refine (reports_report (h identifier)).bind fun _ _ => ?_
    refine (reports_lift _).bind fun alt _ => ?_
    exact (reports_lift _).bind fun label _ => reports_lift _

theorem unknownInline_reports (h : ∀ issue, issue.code = .unknownInline → R issue)
    (kind : Value) : Reports R (unknownInline env kind) := by
  unfold unknownInline
  split
  · exact (reports_report (h _ rfl)).bind fun _ _ => reports_pure _
  · exact reports_pure _

theorem convertOrKeep_reports (h : ∀ issue, issue.code = .mathFallback → R issue) (stage : Stage)
    (latex : String) : Reports R (convertOrKeep env stage latex) := by
  unfold convertOrKeep
  split
  · exact reports_pure _
  · exact (reports_report (h _ rfl)).bind fun _ _ => reports_pure _

theorem inlineFormula_reports (h : ∀ issue, issue.code = .mathFallback → R issue)
    (expression span : Value) : Reports R (inlineFormula env expression span) := by
  unfold inlineFormula
  refine (reports_lift _).bind fun text _ => ?_
  refine (convertOrKeep_reports h _ _).bind fun math _ => ?_
  refine (reports_lift _).bind fun display _ => ?_
  split
  · exact reports_pure _
  · exact reports_pure _

theorem blockFormula_reports (h : ∀ issue, issue.code = .mathFallback → R issue)
    (expression : Value) : Reports R (blockFormula env expression) := by
  unfold blockFormula
  refine (reports_lift _).bind fun text _ => ?_
  exact (convertOrKeep_reports h _ _).bind fun math _ => reports_pure _

end Render

end Typeset
