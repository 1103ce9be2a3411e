import Typeset.Proofs.Render.Footnote
import Typeset.Proofs.Render.Form
import Typeset.Proofs.Render.Issues

/-! When a computation has met a remote image: the renderers one by one, each in terms of those that
it goes on to. -/

namespace Typeset

namespace Rendering

variable {α β : Type} {r : Rendering α} {next : α → Rendering β} {x : Except Failure α}

theorem outcome_bind_of_ok {a : α} (h : r.outcome = .ok a) (next : α → Rendering β) :
    (r >>= next).outcome = (next a).outcome := by
  rw [bind_of_ok h]
  rfl

theorem remoteImage_lift (x : Except Failure α) : (liftM x : Rendering α).remoteImage = false := rfl

@[simp] theorem remoteImage_fail (f : Failure) : (fail f : Rendering α).remoteImage = false := rfl

theorem remoteImage_bind_iff : (r >>= next).remoteImage = true ↔
    r.remoteImage = true ∨ ∃ a, r.outcome = .ok a ∧ (next a).remoteImage = true := by
  cases h : r.outcome with
  | ok a => simp [bind_of_ok h, after]
  | error f => simp [bind_of_error h, withOutcome]

theorem remoteImage_lift_bind_iff : ((liftM x : Rendering α) >>= next).remoteImage = true ↔
    ∃ a, x = .ok a ∧ (next a).remoteImage = true := by
  rw [remoteImage_bind_iff]
  exact or_iff_right (by simp [remoteImage_lift])

/-- What comes after a look at some value is the same whatever it is. -/
theorem remoteImage_lift_bind_of_same {s : Rendering α} {y : Except Failure β}
    {f : β → Rendering α} (h : ∀ b, (f b).remoteImage = s.remoteImage) :
    ((liftM y : Rendering β) >>= f).remoteImage = true ↔
      (∃ b, y = .ok b) ∧ s.remoteImage = true := by
  rw [remoteImage_lift_bind_iff]
  simp only [h, exists_and_right]

theorem remoteImage_bind_of_quiet (h : ∀ a, (next a).remoteImage = false) :
    (r >>= next).remoteImage = r.remoteImage := by
  cases ho : r.outcome with
  | ok a => rw [bind_of_ok ho, after, h a, Bool.or_false]
  | error f => rw [bind_of_error ho, withOutcome]

/-- Two computations one after the other, the second of which does not depend on the first. -/
theorem remoteImage_bind_bind_iff {γ : Type} {s : Rendering β} {f : α → β → Rendering γ}
    (h : ∀ a b, (f a b).remoteImage = false) :
    (r >>= fun a => s >>= f a).remoteImage = true ↔
      r.remoteImage = true ∨ (∃ a, r.outcome = .ok a) ∧ s.remoteImage = true := by
  rw [remoteImage_bind_iff]
  simp only [remoteImage_bind_of_quiet (h _), exists_and_right]

theorem remoteImage_report_bind (issue : Issue) (next : Unit → Rendering β) :
    (report issue >>= next).remoteImage = (next ()).remoteImage := rfl

theorem remoteImage_rescue {handler : Failure → Rendering α}
    (h : ∀ f, (handler f).remoteImage = false) :
    (r.rescue handler).remoteImage = r.remoteImage := by
  cases ho : r.outcome with
  | ok a => simp [rescue, ho]
  | error f => simp [rescue, ho, after, h]

end Rendering

namespace Image

open Render Rendering

variable {env : Environment} {active : List String} {token first : Value} {rest : List Value}
  {indent : Int} {marker : String}

/-- Inlines that show the inlines below them, as far as nothing else stops them before. -/
def Labelled (token : Value) : InlineKind → Prop
  | .wrapped _ _ => True
  | .link => ∃ url, token.attr "url" (.str "") = .ok url
  | .linkReference => ∃ identifier, identifierOf token = .ok identifier
  | _ => False

theorem remoteImage_imageMarkup {address : Value} : (imageMarkup address).remoteImage = true ↔
    ∃ url, address = .str url ∧ isRemote url = true := by
  unfold imageMarkup
  rw [remoteImage_lift_bind_iff]
  cases address with
  | str url =>
    by_cases h : isRemote url = true
    · simp [Value.needText, h, noteRemoteImage, bind, andThen, after]
    · simp [Value.needText, h]
  | _ => simp [Value.needText]

theorem remoteImage_imageReferenceMarkup :
    (imageReferenceMarkup env token).remoteImage = true ↔
      ∃ identifier d, identifierOf token = .ok identifier ∧
        env.definitions.find (Text.lower identifier) = some d ∧
        (imageMarkup d.url).remoteImage = true := by
  rw [imageReferenceMarkup, remoteImage_lift_bind_iff]
  refine exists_congr fun identifier => ?_
  cases hd : env.definitions.find (Text.lower identifier) with
  | some d => simp
  | none =>
    have hquiet : (do
        let alt ← liftM (token.attr "alt" .null)
        let label ← liftM (token.attr "label" .null)
        liftM (Markup.escapeValue (alt.orElse (label.orElse (.str identifier)))) :
          Rendering String).remoteImage = false :=
      remoteImage_bind_of_quiet fun _ => remoteImage_bind_of_quiet fun _ => rfl
    simpa [hd, remoteImage_report_bind] using fun _ => hquiet

theorem remoteImage_convertOrKeep (stage : Stage) (latex : String) :
    (convertOrKeep env stage latex).remoteImage = false := by
  unfold convertOrKeep
  split <;> rfl

theorem remoteImage_inlineFormula (expression span : Value) :
    (inlineFormula env expression span).remoteImage = false := by
  refine remoteImage_bind_of_quiet fun text => ?_
  refine (remoteImage_bind_of_quiet fun math => ?_).trans (remoteImage_convertOrKeep _ _)
  refine remoteImage_bind_of_quiet fun display => ?_
  split <;> rfl

theorem remoteImage_blockFormula (expression : Value) :
    (blockFormula env expression).remoteImage = false := by
  refine remoteImage_bind_of_quiet fun text => ?_
  exact (remoteImage_bind_of_quiet fun math => rfl).trans (remoteImage_convertOrKeep _ _)

theorem remoteImage_unknownInline (kind : Value) :
    (unknownInline env kind).remoteImage = false := by
  unfold unknownInline
  split <;> rfl

/-- An inline of a kind meets what it has below it, or is an image, or a footnote. -/
theorem remoteImage_inlineOf (form : InlineKind) :
    (inlineOf env active form token).remoteImage = true ↔
      (Labelled token form ∧ (inlinesBelow env active token).remoteImage = true) ∨
      (form = .image ∧ ∃ address, token.attr "url" (.str "") = .ok address ∧
        (imageMarkup address).remoteImage = true) ∨
      (form = .imageReference ∧ (imageReferenceMarkup env token).remoteImage = true) ∨
      (form = .footnoteReference ∧ (footnoteReference env active token).remoteImage = true) := by
  cases form with
  | text => simp [inlineOf, Labelled, remoteImage_lift]
  | wrapped opening closing =>
    have hbelow : (inlineOf env active (.wrapped opening closing) token).remoteImage =
        (inlinesBelow env active token).remoteImage := remoteImage_bind_of_quiet fun _ => rfl
    simp [hbelow, Labelled]
  | code => simp [inlineOf, Labelled, remoteImage_lift]
  | link =>
    have hbelow : (inlineOf env active .link token).remoteImage = true ↔
        Labelled token .link ∧ (inlinesBelow env active token).remoteImage = true :=
      remoteImage_lift_bind_of_same fun url => remoteImage_bind_of_quiet fun _ => rfl
    simp [hbelow]
  | linkReference =>
    have hbelow : (inlineOf env active .linkReference token).remoteImage = true ↔
        Labelled token .linkReference ∧ (inlinesBelow env active token).remoteImage = true := by
      refine remoteImage_lift_bind_of_same fun identifier => ?_
      cases env.definitions.find (Text.lower identifier) with
      | some d => exact remoteImage_bind_of_quiet fun _ => rfl
      | none =>
        rw [remoteImage_report_bind]
        refine remoteImage_bind_of_quiet fun text => ?_
        split
        · rfl
        · exact remoteImage_bind_of_quiet fun _ => rfl
    simp [hbelow]
  | image => simp [inlineOf, Labelled, remoteImage_lift_bind_iff]
  | imageReference => simp [inlineOf, Labelled]
  | footnoteReference => simp [inlineOf, Labelled]
  | formula =>
    have hquiet : (inlineOf env active .formula token).remoteImage = false :=
      remoteImage_bind_of_quiet fun _ => remoteImage_bind_of_quiet fun _ =>
        remoteImage_inlineFormula _ _
    simp [hquiet, Labelled]
  | lineBreak => simp [inlineOf, Labelled]
  | softBreak => simp [inlineOf, Labelled]

theorem remoteImage_inline : (Render.inline env active token).remoteImage = true ↔
    ∃ name form, Token.kind token = .ok (.str name) ∧ inlineKind? name = some form ∧
      (inlineOf env active form token).remoteImage = true := by
  constructor
  · rw [inline_eq, remoteImage_lift_bind_iff]
    rintro ⟨kind, hk, h⟩
    obtain ⟨key, hkey, h⟩ := remoteImage_lift_bind_iff.mp h
    cases hform : key.bind inlineKind? with
    | none =>
      rw [hform] at h
      exact absurd h (by simp [remoteImage_unknownInline])
    | some form =>
      rw [hform] at h
      obtain ⟨name, rfl, hname⟩ := Token.exists_text_of_kindKey hkey hform
      exact ⟨name, form, hk, hname, h⟩
  · rintro ⟨name, form, hk, hform, h⟩
    rw [inline_of_form hk hform]
    exact h

theorem remoteImage_block : (block env active token indent).remoteImage = true ↔
    ∃ name form, Token.kind token = .ok (.str name) ∧ blockKind? name = some form ∧
      (blockOf env active form token indent).remoteImage = true := by
  constructor
  · rw [block, remoteImage_lift_bind_iff]
    rintro ⟨kind, hk, h⟩
    obtain ⟨key, hkey, h⟩ := remoteImage_lift_bind_iff.mp h
    split at h
    · cases h
    · cases hform : key.bind blockKind? with
      | none =>
        rw [hform] at h
        cases h
      | some form =>
        rw [hform] at h
        obtain ⟨name, rfl, hname⟩ := Token.exists_text_of_kindKey hkey hform
        exact ⟨name, form, hk, hname, (remoteImage_rescue fun _ => rfl).symm.trans h⟩
  · rintro ⟨name, form, hk, hform, h⟩
    rw [block_of_form hk hform]
    exact (remoteImage_rescue fun _ => rfl).trans h

theorem remoteImage_inlinesBelow : (inlinesBelow env active token).remoteImage = true ↔
    ∃ children, token.children = .ok children ∧
      (inlines env active children).remoteImage = true := by
  cases hc : token.children with
  | error f =>
    have hfail : inlinesBelow env active token = Rendering.fail f := by
      rw [inlinesBelow]
      split <;> simp_all
    simp [hfail]
  | ok children => simp [inlinesBelow_of_children hc]

theorem remoteImage_expandedBody {key : String} {note : Footnote} :
    (expandedBody env active key note).remoteImage = true ↔
      env.rendersFootnotes = true ∧ ∃ body, note.body.tokens = .ok body ∧
        (blocks env (key :: active) body 0).remoteImage = true := by
  have hbody (body : List Value) :
      (blocks env (key :: active) body 0 >>= fun parts => pure (footnoteMarkup parts)).remoteImage =
        (blocks env (key :: active) body 0).remoteImage := remoteImage_bind_of_quiet fun _ => rfl
  rw [expandedBody]
  cases env.rendersFootnotes with
  | false => simp [remoteImage_bind_iff]
  | true =>
    rw [if_pos rfl]
    dsimp only
    rw [remoteImage_lift_bind_iff]
    simp only [hbody, true_and]

theorem remoteImage_noteFor {identifier : String} :
    (noteFor env active identifier).remoteImage = true ↔
      ∃ note, env.footnotes.find (Text.lower identifier) = some note ∧
        Text.lower identifier ∉ active ∧
        (expandedBody env active (Text.lower identifier) note).remoteImage = true := by
  rw [noteFor]
  cases hf : env.footnotes.find (Text.lower identifier) with
  | none =>
    dsimp only
    rw [remoteImage_report_bind]
    simp
  | some note =>
    dsimp only
    split
    next ha =>
      rw [remoteImage_report_bind]
      simp [ha]
    next ha =>
      rw [expansion, remoteImage_rescue fun _ => rfl]
      simp [ha]

end Image

end Typeset
