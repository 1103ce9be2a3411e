import Typeset.Proofs.Footnote.Trail
import Typeset.Proofs.Render.Induction
import Typeset.Proofs.Render.Form
import Typeset.Proofs.Render.Issues

/-! What is reported while tokens are rendered, where the footnotes that they refer to are followed
into their bodies. -/

namespace Typeset.Footnote

open Render Rendering

variable {env : Environment} {active : List String} {R : Issue → Prop}
  {G : List String → Value → Prop}

/-- The codes that the renderers report under, apart from that of a footnote that refers to
itself. -/
def codes : List IssueCode :=
  [.unresolvedLinkReference, .unresolvedFootnote, .mathFallback, .emptyTable, .unknownBlock,
    .unknownInline, .blockRenderError, .inlineRenderError]

/-- A property that the issues of the renderers have as long as the tokens have one that goes over
to what stands below them and in the footnotes that they refer to. -/
structure Guarded (env : Environment) (R : Issue → Prop) (G : List String → Value → Prop) :
    Prop where
  child : ∀ {active token t}, G active token → token.IsChild t → G active t
  enter : ∀ {active token t identifier note body}, G active token →
    IsReference token identifier → env.footnotes.find (Text.lower identifier) = some note →
      note.body.tokens = .ok body → t ∈ body → G (Text.lower identifier :: active) t
  cycle : ∀ {active token identifier}, G active token → IsReference token identifier →
    Text.lower identifier ∈ active → R (footnoteCycle identifier)
  issue : ∀ {issue}, issue.code ∈ codes → R issue

/-- The codes that the renderers report under whatever is referred to. -/
def otherCodes : List IssueCode :=
  [.mathFallback, .emptyTable, .unknownBlock, .unknownInline, .blockRenderError,
    .inlineRenderError]

/-- A property as above, which an issue about a reference need only have where a reference
stands. -/
structure Watched (env : Environment) (R : Issue → Prop) (G : List String → Value → Prop) :
    Prop where
  child : ∀ {active token t}, G active token → token.IsChild t → G active t
  enter : ∀ {active token t identifier note body}, G active token →
    IsReference token identifier → env.footnotes.find (Text.lower identifier) = some note →
      note.body.tokens = .ok body → t ∈ body → G (Text.lower identifier :: active) t
  cycle : ∀ {active token identifier}, G active token → IsReference token identifier →
    Text.lower identifier ∈ active → R (footnoteCycle identifier)
  unresolved : ∀ {active token issue}, G active token → IsReferenceToken token →
    issue.code = .unresolvedLinkReference ∨ issue.code = .unresolvedFootnote → R issue
  other : ∀ {issue}, issue.code ∈ otherCodes → R issue

theorem Guarded.watched (g : Guarded env R G) : Watched env R G where
  child := g.child
  enter := g.enter
  cycle := g.cycle
  unresolved _ _ h := g.issue (by obtain h | h := h <;> rw [h] <;> decide)
  other h := by
    have hcodes : ∀ code ∈ otherCodes, code ∈ codes := by decide
    exact g.issue (hcodes _ h)

variable (g : Watched env R G)

include g

theorem Watched.of_code {c : IssueCode} (hc : c ∈ otherCodes) {issue : Issue}
    (h : issue.code = c) : R issue := g.other (h ▸ hc)

theorem Watched.report_pure {α : Type} {c : IssueCode} (hc : c ∈ otherCodes) {issue : Issue}
    (h : issue.code = c) (a : α) : Reports R (do report issue; pure a : Rendering α) :=
  (reports_report (g.of_code hc h)).bind fun _ _ => reports_pure _

theorem Watched.footnoteReference_reports {token : Value} (hp : G active token)
    (hk : Token.kind token = .ok (.str "footnote_ref"))
    (h : ∀ identifier note, env.footnotes.find (Text.lower identifier) = some note →
      Text.lower identifier ∉ active → ∀ body,
        (∀ t ∈ body, G (Text.lower identifier :: active) t) →
          Reports R (blocks env (Text.lower identifier :: active) body 0)) :
    Reports R (footnoteReference env active token) := by
  rw [footnoteReference_eq]
  refine (reports_lift _).bind fun identifier hi => ?_
  have href : IsReference token identifier := ⟨hk, hi⟩
  unfold noteFor
  cases hf : env.footnotes.find (Text.lower identifier) with
  | none =>
    have hreference : IsReferenceToken token := ⟨_, by decide, hk⟩
    refine (reports_report ?_).bind fun _ _ => reports_pure _
    exact g.unresolved hp hreference (.inr rfl)
  | some note =>
    dsimp only
    split
    next ha =>
      exact (reports_report (g.cycle hp href ha)).bind fun _ _ => reports_pure _
    next ha =>
      unfold expansion
      refine Reports.rescue ?_ fun cause => ?_
      · have hbody : Reports R (do
            let body ← liftM note.body.tokens
            let parts ← blocks env (Text.lower identifier :: active) body 0
            pure (footnoteMarkup parts)) := by
          refine (reports_lift _).bind fun body hb => ?_
          refine (h identifier note hf ha body fun t ht => ?_).bind fun _ _ => reports_pure _
          exact g.enter hp href hf hb ht
        unfold expandedBody
        split
        · exact hbody
        · exact (reports_fail _).bind fun _ _ => hbody
      · exact g.report_pure (c := .inlineRenderError) (by decide) rfl _

theorem Watched.inline_reports {token : Value} (hp : G active token)
    (hb : Reports R (inlinesBelow env active token))
    (hf : Token.kind token = .ok (.str "footnote_ref") →
      Reports R (footnoteReference env active token)) :
    Reports R (Render.inline env active token) := by
  rw [Render.inline]
  refine (reports_lift _).bind fun kind hk => ?_
  refine (reports_lift _).bind fun key hkey => ?_
  cases hform : key.bind inlineKind? with
  | none => exact unknownInline_reports (fun _ => g.of_code (by decide)) _
  | some form =>
    obtain ⟨name, rfl, hname⟩ := Token.exists_text_of_kindKey hkey hform
    have hreference (h : form = .linkReference ∨ form = .imageReference ∨
        form = .footnoteReference) : IsReferenceToken token :=
      ⟨name, mem_referenceKinds hname h, hk⟩
    cases form with
    | text => exact reports_lift _
    | wrapped opening closing => exact hb.bind fun _ _ => reports_pure _
    | code => exact reports_lift _
    | link =>
      refine (reports_lift _).bind fun url _ => ?_
      exact hb.bind fun label _ => reports_lift _
    | linkReference =>
      refine (reports_lift _).bind fun identifier _ => ?_
      split
      · exact hb.bind fun label _ => reports_lift _
      · refine (reports_report (g.unresolved hp (hreference (.inl rfl)) (.inl rfl))).bind
          fun _ _ => hb.bind fun text _ => ?_
        split
        · exact reports_pure _
        · exact (reports_lift _).bind fun label _ => reports_lift _
    | image => exact (reports_lift _).bind fun url _ => imageMarkup_reports _
    | imageReference =>
      refine imageReferenceMarkup_reports (fun identifier => ?_) _
      exact g.unresolved hp (hreference (.inr (.inl rfl))) (.inl rfl)
    | footnoteReference =>
      rw [(eq_of_inlineKind? hname).2.1 rfl] at hk
      exact hf hk
    | formula =>
      refine (reports_lift _).bind fun span _ => ?_
      refine (reports_lift _).bind fun raw _ => ?_
      exact inlineFormula_reports (fun _ => g.of_code (by decide)) _ _
    | lineBreak => exact reports_pure _
    | softBreak => exact reports_pure _

theorem Watched.block_reports {token : Value} {indent : Int}
    (h : ∀ form, Reports R (blockOf env active form token indent)) :
    Reports R (block env active token indent) := by
  rw [block]
  refine (reports_lift _).bind fun kind _ => ?_
  refine (reports_lift _).bind fun key _ => ?_
  split
  · exact reports_pure _
  · split
    · exact g.report_pure (c := .unknownBlock) (by decide) rfl _
    · refine (h _).rescue fun cause => ?_
      exact g.report_pure (c := .blockRenderError) (by decide) rfl _

theorem Watched.table_reports {token : Value} {indent : Int}
    (h : ∀ header body, rowsOf token = .ok (header :: body) →
      Reports R (row env active header) ∧ Reports R (rows env active body)) :
    Reports R (table env active token indent) := by
  have hempty (message : String) : Reports R
      (do report (emptyTable message); pure none : Rendering (Option String)) :=
    g.report_pure (c := .emptyTable) (by decide) rfl _
  rw [table]
  rcases hc : rowsOf token with f | _ | ⟨header, body⟩
  · exact reports_fail _
  · exact hempty _
  · obtain ⟨hh, hb⟩ := h header body hc
    refine (reports_lift _).bind fun children _ => ?_
    refine (reports_lift _).bind fun columns _ => ?_
    split
    · exact hempty _
    · refine (reports_lift _).bind fun align _ => ?_
      exact hh.bind fun head _ => hb.bind fun body _ => reports_pure _

omit g

/-- What is reported of guarded tokens has the property. -/
def guarding (env : Environment) (R : Issue → Prop) (G : List String → Value → Prop) :
    Property where
  inlines active tokens :=
    (∀ t ∈ tokens, G active t) → Reports R (inlines env active tokens)
  inlinesBelow active token :=
    G active token → Reports R (inlinesBelow env active token)
  inline active token :=
    G active token → Reports R (Render.inline env active token)
  footnoteReference active token :=
    G active token → Token.kind token = .ok (.str "footnote_ref") →
      Reports R (footnoteReference env active token)
  blocks active tokens indent :=
    (∀ t ∈ tokens, G active t) → Reports R (blocks env active tokens indent)
  block active token indent :=
    G active token → Reports R (block env active token indent)
  blockOf active form token indent :=
    G active token → Reports R (blockOf env active form token indent)
  paragraph active token :=
    G active token → Reports R (paragraph env active token)
  items active marker tokens indent :=
    (∀ t ∈ tokens, G active t) →
      Reports R (items env active marker tokens indent)
  item active marker token indent :=
    G active token → Reports R (item env active marker token indent)
  cells active tokens :=
    (∀ t ∈ tokens, G active t) → Reports R (cells env active tokens)
  rows active tokens :=
    (∀ t ∈ tokens, G active t) → Reports R (rows env active tokens)
  row active token := G active token → Reports R (row env active token)
  table active token indent :=
    G active token → Reports R (table env active token indent)

include g

theorem Watched.guarding_inductive : (guarding env R G).Inductive env where
  inlinesNil _ := by
    rw [inlines]
    exact reports_pure _
  inlinesCons h hr hp := by
    rw [inlines]
    obtain ⟨hh, ht⟩ := List.forall_mem_cons.mp hp
    exact (h hh).bind fun here _ => (hr ht).bind fun more _ => reports_pure _
  inlinesBelow {active token} h hp := by
    rw [inlinesBelow]
    cases hc : token.children with
    | error f => exact reports_fail _
    | ok children =>
      exact h children hc fun t ht => g.child hp (Value.isChild_of_children hc ht)
  inline hb hf hp := g.inline_reports hp (hb hp) fun hk => hf hp hk
  footnoteReference h hp hk := g.footnoteReference_reports hp hk h
  blocksNil _ := by
    rw [blocks]
    exact reports_pure _
  blocksCons h hr hp := by
    rw [blocks]
    obtain ⟨hh, ht⟩ := List.forall_mem_cons.mp hp
    refine (h hh).bind fun here _ => (hr ht).bind fun more _ => ?_
    cases here with
    | some text => exact reports_pure _
    | none => exact reports_pure _
  block h hp := g.block_reports fun form => h form hp
  heading hb hp := by
    rw [blockOf]
    refine (reports_lift _).bind fun value _ => ?_
    refine (reports_lift _).bind fun level _ => ?_
    refine (hb hp).bind fun text _ => ?_
    cases level with
    | some level => exact reports_pure _
    | none => exact reports_fail _
  paragraphBlock h hp := by
    rw [blockOf]
    exact (h hp).bind fun text _ => reports_pure _
  list {active token indent} h hp := by
    rw [blockOf]
    refine (reports_lift _).bind fun marker _ => ?_
    cases hc : token.children with
    | error f => exact reports_fail _
    | ok children =>
      have hi := h marker children hc fun t ht => g.child hp (Value.isChild_of_children hc ht)
      exact hi.bind fun parts _ => reports_pure _
  listItem h hp := by
    rw [blockOf]
    exact (h hp).bind fun text _ => reports_pure _
  code _ := by
    rw [blockOf]
    exact (reports_lift _).bind fun text _ => reports_pure _
  quote {active token indent} h hp := by
    rw [blockOf]
    cases hc : token.children with
    | error f => exact reports_fail _
    | ok children =>
      have hb := h children hc fun t ht => g.child hp (Value.isChild_of_children hc ht)
      exact hb.bind fun parts _ => reports_pure _
  rule _ := by
    rw [blockOf]
    exact reports_pure _
  tableBlock h hp := by
    rw [blockOf]
    exact h hp
  formula _ := by
    rw [blockOf]
    refine (reports_lift _).bind fun raw _ => ?_
    refine (blockFormula_reports (fun _ => g.of_code (by decide)) _).bind fun text _ => ?_
    exact reports_pure _
  html _ := by
    rw [blockOf]
    exact reports_lift _
  paragraph hb hp := by
    rw [paragraph]
    refine (reports_lift _).bind fun marker _ => ?_
    split
    · exact reports_pure _
    · exact hb hp
  itemsNil _ := by
    rw [items]
    exact reports_pure _
  itemsCons h hr hp := by
    rw [items]
    obtain ⟨hh, ht⟩ := List.forall_mem_cons.mp hp
    exact (h hh).bind fun here _ => (hr ht).bind fun more _ => reports_pure _
  item {active marker token indent} h hp := by
    rw [item]
    rcases hc : itemParts token with f | _ | ⟨first, more⟩
    · exact reports_fail _
    · exact reports_pure _
    · obtain ⟨hf, hm, ha⟩ := h first more hc
      have hplaced : ∀ t ∈ first :: more, G active t :=
        fun t ht => g.child hp (isChild_of_itemParts hc ht)
      obtain ⟨hfirst, hmore⟩ := List.forall_mem_cons.mp hplaced
      refine (reports_lift _).bind fun kind _ => ?_
      split
      · exact (hf hfirst).bind fun text _ => (hm hmore).bind fun parts _ => reports_pure _
      · exact (ha hplaced).bind fun parts _ => reports_pure _
  cellsNil _ := by
    rw [cells]
    exact reports_pure _
  cellsCons h hr hp := by
    rw [cells]
    obtain ⟨hh, ht⟩ := List.forall_mem_cons.mp hp
    exact (h hh).bind fun here _ => (hr ht).bind fun more _ => reports_pure _
  rowsNil _ := by
    rw [rows]
    exact reports_pure _
  rowsCons h hr hp := by
    rw [rows]
    obtain ⟨hh, ht⟩ := List.forall_mem_cons.mp hp
    exact (h hh).bind fun here _ => (hr ht).bind fun more _ => reports_pure _
  row {active token} h hp := by
    rw [row]
    cases hc : token.children with
    | error f => exact reports_fail _
    | ok children =>
      exact h children hc fun t ht => g.child hp (Value.isChild_of_children hc ht)
  table h hp := by
    refine g.table_reports fun header body hc => ?_
    obtain ⟨hh, hb⟩ := h header body hc
    have hplaced : ∀ t ∈ header :: body, G _ t :=
      fun t ht => g.child hp (isChild_of_rowsOf hc ht)
    obtain ⟨hheader, hbody⟩ := List.forall_mem_cons.mp hplaced
    exact ⟨hh hheader, hb hbody⟩

omit g

theorem Guarded.guarding_inductive (g : Guarded env R G) : (guarding env R G).Inductive env :=
  g.watched.guarding_inductive

end Typeset.Footnote
