import Typeset.Proofs.Conversion.Issues
import Typeset.Proofs.Render.Form
import Typeset.Proofs.Token.Pair
import Typeset.Proofs.Token.Run

/-! Token trees in which nothing is referred to. Where no identifier is known, they are those that
come of trees whose runs of text refer to nothing. -/

namespace Typeset.Token

open Render (IsReferenceToken referenceKinds)

variable {s : String} {t : Value} {r : Reference} {texts trees outs : List Value}

/-- A token that refers to nothing. -/
def Unreferring (t : Value) : Prop := ¬ IsReferenceToken t

/-- A kind of tokens that refer to nothing. -/
def IsUnreferringKind (kind : Value) : Prop := ∀ name ∈ referenceKinds, kind ≠ .str name

section Kind

theorem isReferenceToken_token (r : Reference) : IsReferenceToken r.token := by
  cases r with
  | footnote name => exact ⟨"footnote_ref", by decide, rfl⟩
  | target image form label identifier =>
    cases image with
    | true => exact ⟨"image_reference", by decide, rfl⟩
    | false => exact ⟨"link_reference", by decide, rfl⟩

theorem unreferring_of_kind {kind : Value} (hk : Token.kind t = .ok kind)
    (h : IsUnreferringKind kind) : Unreferring t := by
  rintro ⟨name, hname, hkind⟩
  cases hk.symm.trans hkind
  exact h name hname rfl

theorem isUnreferringKind_of_unreferring {kind : Value} (h : Unreferring t)
    (hk : Token.kind t = .ok kind) : IsUnreferringKind kind := by
  rintro name hname rfl
  exact h ⟨name, hname, hk⟩

theorem isUnreferringKind_str {name : String} (h : name ∉ referenceKinds) :
    IsUnreferringKind (.str name) := by
  rintro other hother heq
  cases heq
  exact h hother

theorem isUnreferringKind_of_own {name : String} (h : isForeign name = false) :
    IsUnreferringKind (.str name) := by
  refine isUnreferringKind_str fun hname => ?_
  have hall : ∀ name ∈ referenceKinds, isForeign name = true := by decide
  rw [hall name hname] at h
  cases h

theorem unreferring_of_named (h : Named IsUnreferringKind t) : Unreferring t := by
  obtain ⟨fields, rfl, hheaded⟩ := h
  obtain ⟨name, hname, hown⟩ | ⟨kind, hkind, hfree, -⟩ := hheaded.kind
  · refine unreferring_of_kind ?_ (isUnreferringKind_of_own hown)
    rw [Token.kind, Value.field_object, hname]
    rfl
  · refine unreferring_of_kind ?_ hfree
    rw [Token.kind, Value.field_object, hkind]
    rfl

theorem unreferring_withChildren (children : List Value) (h : Unreferring t) :
    Unreferring (withChildren children t) := by
  rintro ⟨name, hname, hkind⟩
  rw [Token.kind, field_withChildren (by decide)] at hkind
  exact h ⟨name, hname, hkind⟩

theorem everywhere_unreferring_text (s : String) : (text s).Everywhere Unreferring :=
  Value.everywhere_leaf (unreferring_of_kind rfl (isUnreferringKind_of_own rfl))

end Kind

section Tree

/-- A token tree all of whose tokens are alike has what they have everywhere. -/
theorem Tree.everywhere {P : Fields → Prop} {Q : Value → Prop} {token : Value} (h : Tree P token)
    (hpq : ∀ fields, P fields → Q (.object fields)) : token.Everywhere Q := by
  induction h with
  | object here list below ih =>
    exact Value.everywhere_object (hpq _ here) fun items hitems t ht =>
      ih items (mem_of_lookup hitems) t ht

/-- What the reader of Markdown makes of a text refers to nothing by itself. -/
theorem Tree.unreferring {token : Value} (h : Tree Readable token) :
    token.Everywhere Unreferring := by
  refine h.everywhere fun fields here => ?_
  obtain ⟨name, hname, -⟩ := here.kind
  refine unreferring_of_kind ?_ (isUnreferringKind_of_own (here.own name hname))
  rw [Token.kind, Value.field_object, hname]
  rfl

end Tree

section Text

theorem token_mem_assemble {ps : List Piece} (hr : r ∈ targets ps) (held : List Char) :
    r.token ∈ assemble held ps := by
  induction ps generalizing held with
  | nil => cases hr
  | cons p ps ih =>
    cases p with
    | plain source => exact ih hr (held ++ source)
    | reference target =>
      refine List.mem_append_right _ ?_
      obtain rfl | hr := List.mem_cons.mp hr
      · exact List.mem_cons_self
      · exact List.mem_cons_of_mem _ (ih hr [])

/-- A text that refers to nothing stays one token. -/
theorem splitReferences_of_not_referring (h : ¬ Referring s.toList) :
    splitReferences [] s = [text s] :=
  splitReferences_of_plain (not_not.mp fun hne => h (targets_ne_nil_iff.mp hne))

theorem exists_token_of_referring (h : Referring s.toList) :
    ∃ r : Reference, r.token ∈ splitReferences [] s := by
  obtain ⟨r, hr⟩ := List.exists_mem_of_ne_nil _ (targets_ne_nil_iff.mpr h)
  have hmem := token_mem_assemble hr []
  rw [← splitFrom_nil_eq] at hmem
  exact ⟨r, splitReferences_of_mem hmem ▸ hmem⟩

end Text

/-- Where no identifier is known, tokens refer to nothing exactly if the runs of text that they come
of do not. -/
theorem canonical_unreferring_iff (hread : ∀ t ∈ texts, t.Everywhere Unreferring)
    (htrees : normalizeAll texts = .ok trees) (h : canonical [] texts = .ok outs) :
    (∀ out ∈ outs, out.Everywhere Unreferring) ↔
      ∀ tree ∈ trees, ∀ run, Run tree run → ¬ Referring run.toList := by
  constructor
  · intro hall tree htree run hrun hreferring
    obtain ⟨r, hr⟩ := exists_token_of_referring hreferring
    obtain ⟨out, hout, hwithin⟩ := exists_within_of_canonical h htrees htree hrun hr
    exact hall out hout _ hwithin (isReferenceToken_token r)
  · intro hruns out hout
    obtain ⟨trees', htrees', hres⟩ := exists_of_canonical h
    cases htrees.symm.trans htrees'
    obtain ⟨tree, htree, hres⟩ := exists_of_mem_right hres hout
    have hnamed := normalizeAll_everywhere texts htrees fun t ht u hu kind hk =>
      isUnreferringKind_of_unreferring (hread t ht u hu) hk
    have hown : tree.Everywhere Unreferring :=
      fun t ht => unreferring_of_named (hnamed tree htree t ht)
    refine resolve_everywhere (fun _ h => h) (fun _ _ h => unreferring_withChildren _ h) [] tree
      hres hown fun s hrun t ht => ?_
    rw [splitReferences_of_not_referring (hruns tree htree s hrun)] at ht
    rw [List.mem_singleton.mp ht]
    exact everywhere_unreferring_text s

end Typeset.Token

/-! A conversion of tokens that refer to nothing reports nothing about references. -/

namespace Typeset

open Rendering Token

/-- The codes under which references are reported. -/
def IssueCode.isReference : IssueCode → Bool
  | .unresolvedLinkReference | .unresolvedFootnote | .footnoteCycle => true
  | _ => false

/-- An issue about a link, an image or a footnote that is referred to. -/
def Issue.AboutReference (issue : Issue) : Prop := issue.code.isReference = true

theorem Issue.Peripheral.not_aboutReference {issue : Issue} (h : issue.Peripheral) :
    ¬ issue.AboutReference := by
  have hall (code : IssueCode) (hcode : code.isOuter = true) : code.isReference = false := by
    cases code <;> first | rfl | cases hcode
  obtain h | h := h
  · rw [AboutReference, hall _ h]
    nofun
  · rw [AboutReference, h]
    nofun

/-- Where nothing is referred to, the renderers report nothing about references. -/
theorem watched_unreferring (env : Render.Environment) :
    Footnote.Watched env (fun issue => ¬ issue.AboutReference)
      fun _ token => token.Everywhere Unreferring where
  child h hc := h.child hc
  enter h href _ _ _ := absurd ⟨_, by decide, href.1⟩ h.self
  cycle h href _ := absurd ⟨_, by decide, href.1⟩ h.self
  unresolved h href _ := absurd href h.self
  other hm hcode := by
    have hall : ∀ code ∈ Footnote.otherCodes, code.isReference = false := by decide
    rw [Issue.AboutReference, hall _ hm] at hcode
    cases hcode

theorem Converter.run_reports_of_unreferring {c : Converter} {input : Input}
    {tokens : List Value} (hread : c.tokensOf input = .ok tokens)
    (h : ∀ t ∈ tokens, t.Everywhere Unreferring) :
    Reports (fun issue => ¬ issue.AboutReference) (c.run input) := by
  rw [run, hread]
  refine Reports.rescue ?_ fun cause => ?_
  · refine ofTokens_reports (fun _ hp => hp.not_aboutReference) fun env body hbody => ?_
    exact (watched_unreferring env).guarding_inductive.holds.blocks [] body 0
      fun t ht => h t (hbody t ht)
  · exact List.forall_mem_singleton.mpr nofun

end Typeset
