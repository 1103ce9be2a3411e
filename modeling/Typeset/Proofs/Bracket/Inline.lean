import Typeset.Proofs.Bracket.Literal
import Typeset.Proofs.Render.Form
import Typeset.Proofs.Render.Postcondition
import Typeset.Proofs.Token.Within

/-! Inlines open and close nothing: each is literal text, raw text, or a template around string
literals and inlines. -/

namespace Typeset.Bracket

open Render Rendering

variable {env : Environment} {active : List String}

/-- A token of a kind that is written with brackets, calls and literals only. Code that is not in a
block is text, and what stands after the fence of code in a block holds no backtick. -/
def Bracketable (token : Value) : Prop :=
  ∃ kind, Token.kind token = .ok (.str kind) ∧
    kind ∉ ["footnote_ref", "inline_math", "block_math"] ∧
    (kind = "codespan" → ∃ code, token.field "raw" (.str "") = .ok (.str code)) ∧
    (kind = "block_code" → ∀ info, token.attr "info" .null = .ok (.str info) → '`' ∉ info.toList)

theorem closed_escapeValue {v : Value} {text : String} (h : Markup.escapeValue v = .ok text) :
    Closed .content text := by
  cases v with
  | str s =>
    injection h with h
    subst h
    exact closed_escape s
  | _ => cases h

theorem closed_textMarkup {token : Value} {text : String} (h : textMarkup token = .ok text) :
    Closed .content text := by
  obtain ⟨raw, _, h⟩ := Failure.exists_of_bind h
  exact closed_escapeValue h

theorem closed_link (url : String) {label : String} (h : Closed .content label) :
    Closed .content ("#link(\"" ++ Markup.escapeString url ++ "\")[" ++ label ++ "]") := by
  have hcall := @Closed.called "link" _ rfl (closed_literal url)
  simpa [Closed] using hcall.append (h.bracketed .content)

theorem closed_linkMarkup {url : Value} {label text : String} (hl : Closed .content label)
    (h : linkMarkup url label = .ok text) : Closed .content text := by
  cases url with
  | str u =>
    by_cases hb : Text.isBlankText label
    · simp only [linkMarkup, if_pos hb] at h
      injection h with h
      subst h
      exact closed_link u (closed_escape u)
    · simp only [linkMarkup, if_neg hb] at h
      injection h with h
      subst h
      exact closed_link u hl
  | _ =>
    simp only [linkMarkup] at h
    split at h <;> cases h

theorem closed_codeMarkup {token : Value} {code text : String}
    (hraw : token.field "raw" (.str "") = .ok (.str code)) (h : codeMarkup token = .ok text) :
    Closed .content text := by
  have hliteral := @Closed.called "raw" _ rfl (closed_literal code)
  rw [codeMarkup, hraw] at h
  by_cases hne : code = ""
  · subst hne
    injection h with h
    subst h
    simpa [Closed] using hliteral
  · by_cases hb : '`' ∈ code.toList
    · simp [bind, Except.bind, pure, Except.pure, Value.truthy, hne, holdsBacktick, hb,
        Markup.escapeStringValue, Value.asText, Except.map] at h
      subst h
      simpa [Closed] using hliteral
    · simp [bind, Except.bind, pure, Except.pure, Value.truthy, hne, holdsBacktick, hb,
        Value.shown] at h
      subst h
      exact closed_codeSpan hne hb

theorem imageMarkup_closed (url : Value) : Yields (Closed .content) (imageMarkup url) := by
  unfold imageMarkup
  refine yields_bind fun address => ?_
  have hliteral := closed_literal address
  split
  · refine yields_bind fun _ => yields_pure ?_
    have hargs := ((@closed_inert .call "\n  " rfl).append hliteral).append
      (@closed_inert .call "\n" rfl)
    have h := @Closed.called "external-image" _ rfl hargs
    simpa [Closed] using h
  · exact yields_pure (by simpa [Closed] using @Closed.called "image" _ rfl hliteral)

theorem imageReferenceMarkup_closed (token : Value) :
    Yields (Closed .content) (imageReferenceMarkup env token) := by
  unfold imageReferenceMarkup
  refine yields_bind fun identifier => ?_
  split
  · exact imageMarkup_closed _
  · refine yields_bind fun _ => yields_bind fun alt => yields_bind fun label => ?_
    exact yields_lift fun text h => closed_escapeValue h

theorem unknownInline_closed (kind : Value) :
    Yields (Closed .content) (unknownInline env kind) := by
  unfold unknownInline
  split
  · exact yields_bind fun _ => yields_pure Balanced.nil
  · exact yields_pure Balanced.nil

theorem Leaves.wrapped {name opening closing : String}
    (hw : inlineKind? name = some (.wrapped opening closing)) (h : Leaves n text) :
    Leaves n (opening ++ text ++ closing) := by
  have hbetween {mark : String} (hmark : mark.toList.all isInert) :
      Leaves n (mark ++ text ++ mark) := by
    have hclosed : Leaves 0 mark := closed_inert .content hmark
    simpa using (hclosed.append h).append hclosed
  unfold inlineKind? at hw
  split at hw <;> cases hw
  · exact hbetween rfl
  · exact hbetween rfl
  · exact @Leaves.applied _ _ "strike" rfl h
  · exact @Leaves.applied _ _ "highlight" rfl h
  · exact @Leaves.applied _ _ "super" rfl h
  · exact @Leaves.applied _ _ "sub" rfl h

theorem closed_wrapped {name opening closing text : String}
    (h : inlineKind? name = some (.wrapped opening closing)) (ht : Closed .content text) :
    Closed .content (opening ++ text ++ closing) := ht.leaves.wrapped h

theorem closed_lineBreak : Closed .content "\\\n" := fun _ _ => rfl

theorem inline_closed {token : Value} (ht : Bracketable token)
    (hb : Yields (Closed .content) (inlinesBelow env active token)) :
    Yields (Closed .content) (Render.inline env active token) := by
  obtain ⟨name, hk, hname, hcode, -⟩ := ht
  cases hform : inlineKind? name with
  | none =>
    rw [inline_of_unknown hk hform]
    exact unknownInline_closed _
  | some form =>
    rw [inline_of_form hk hform]
    unfold inlineOf
    obtain ⟨hspan, hnote, hmath⟩ := eq_of_inlineKind? hform
    cases form with
    | text => exact yields_lift fun text h => closed_textMarkup h
    | wrapped opening closing =>
      exact hb.bind fun text h => yields_pure (closed_wrapped hform h)
    | code =>
      obtain ⟨code, hraw⟩ := hcode (hspan rfl)
      exact yields_lift fun text h => closed_codeMarkup hraw h
    | link =>
      refine yields_bind fun url => hb.bind fun label hl => ?_
      exact yields_lift fun text h => closed_linkMarkup hl h
    | linkReference =>
      refine yields_bind fun identifier => ?_
      split
      · exact hb.bind fun label hl => yields_lift fun text h => closed_linkMarkup hl h
      · refine yields_bind fun _ => hb.bind fun text ht => ?_
        split
        · exact yields_pure ht
        · exact yields_bind fun label => yields_lift fun text h => closed_escapeValue h
    | image => exact yields_bind fun url => imageMarkup_closed url
    | imageReference => exact imageReferenceMarkup_closed token
    | footnoteReference => simp [hnote rfl] at hname
    | formula => simp [hmath rfl] at hname
    | lineBreak => exact yields_pure closed_lineBreak
    | softBreak => exact yields_pure (closed_inert .content rfl)

end Typeset.Bracket
