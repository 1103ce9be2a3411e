import Typeset.Proofs.Bracket.Layout
import Typeset.Proofs.Render.Form
import Typeset.Proofs.Render.Induction
import Typeset.Proofs.Render.Siblings

/-! Rendered markup is well bracketed, whatever text stands in the tokens. -/

namespace Typeset.Bracket

open Render Rendering

variable {env : Environment} {active : List String} {indent : Int}

theorem Bracketable.ofForm {form : BlockKind} {token : Value} (ht : Bracketable token)
    (hf : OfForm form token) : form ≠ .formula ∧
      (form = .code → ∀ info, token.attr "info" .null = .ok (.str info) → '`' ∉ info.toList) := by
  obtain ⟨name, hk, hname, -, hinfo⟩ := ht
  obtain ⟨other, hother, hform⟩ := hf
  obtain rfl : name = other := by simpa [hk] using hother
  obtain ⟨hcode, hmath, -⟩ := eq_of_blockKind? hform
  refine ⟨fun h => ?_, fun h => hinfo (hcode h)⟩
  simp [hmath h] at hname

/-- Each renderer opens and closes nothing where no formulas and footnotes are among the tokens. -/
def bracketing (env : Environment) : Property where
  inlines active tokens := (∀ t ∈ tokens, t.Everywhere Bracketable) →
    Yields (Closed .content) (inlines env active tokens)
  inlinesBelow active token := token.Everywhere Bracketable →
    Yields (Closed .content) (inlinesBelow env active token)
  inline active token := token.Everywhere Bracketable →
    Yields (Closed .content) (Render.inline env active token)
  footnoteReference _ _ := True
  blocks active tokens indent := (∀ t ∈ tokens, t.Everywhere Bracketable) →
    Yields (∀ part ∈ ·, Closed .content part) (blocks env active tokens indent)
  block active token indent := token.Everywhere Bracketable →
    Yields (∀ text ∈ ·, Closed .content text) (block env active token indent)
  blockOf active form token indent := token.Everywhere Bracketable → OfForm form token →
    Yields (∀ text ∈ ·, Closed .content text) (blockOf env active form token indent)
  paragraph active token := token.Everywhere Bracketable →
    Yields (Closed .content) (paragraph env active token)
  items active marker tokens indent := Closed .content marker →
    (∀ t ∈ tokens, t.Everywhere Bracketable) →
    Yields (∀ part ∈ ·, Closed .content part) (items env active marker tokens indent)
  item active marker token indent := Closed .content marker → token.Everywhere Bracketable →
    Yields (Closed .content) (item env active marker token indent)
  cells active tokens := (∀ t ∈ tokens, t.Everywhere Bracketable) →
    Yields (∀ cell ∈ ·, Closed .content cell) (cells env active tokens)
  rows active tokens := (∀ t ∈ tokens, t.Everywhere Bracketable) →
    Yields (∀ row ∈ ·, ∀ cell ∈ row, Closed .content cell) (rows env active tokens)
  row active token := token.Everywhere Bracketable →
    Yields (∀ cell ∈ ·, Closed .content cell) (row env active token)
  table active token indent := token.Everywhere Bracketable →
    Yields (∀ text ∈ ·, Closed .content text) (table env active token indent)

theorem block_closed {token : Value} (ht : token.Everywhere Bracketable)
    (h : ∀ form, OfForm form token →
      Yields (∀ text ∈ ·, Closed .content text) (blockOf env active form token indent)) :
    Yields (∀ text ∈ ·, Closed .content text) (block env active token indent) := by
  obtain ⟨name, hk, -⟩ := ht.self
  rw [block, lift_bind_of_ok hk, lift_bind_of_ok (Token.kindKey_str name)]
  split
  · exact yields_pure (by simp)
  · split
    · exact yields_bind fun _ => yields_pure (by simp)
    next form hform =>
      refine (h form ⟨name, hk, hform⟩).rescue fun cause => ?_
      exact yields_bind fun _ => yields_pure (by simp)

theorem item_closed {marker : String} {token : Value} (hm : Closed .content marker)
    (h : ∀ first more, itemParts token = .ok (first :: more) →
      Yields (Closed .content) (paragraph env active first) ∧
      Yields (∀ part ∈ ·, Closed .content part) (blocks env active more (indent + 1)) ∧
      Yields (∀ part ∈ ·, Closed .content part)
        (blocks env active (first :: more) (indent + 1))) :
    Yields (Closed .content) (item env active marker token indent) := by
  rw [item]
  rcases hc : itemParts token with f | _ | ⟨first, more⟩
  · exact yields_fail f
  · exact yields_pure (hm.indent indent)
  · obtain ⟨hp, hrest, hall⟩ := h first more hc
    refine yields_bind fun kind => ?_
    split
    · refine hp.bind fun text ht => hrest.bind fun parts hparts => yields_pure ?_
      exact closed_item ((hm.append (closed_inert .content rfl)).append ht) hparts
    · refine hall.bind fun parts hparts => yields_pure (closed_lines ?_)
      exact List.forall_mem_cons.mpr ⟨hm.indent indent, hparts⟩

theorem table_closed {token : Value}
    (h : ∀ header body, rowsOf token = .ok (header :: body) →
      Yields (∀ cell ∈ ·, Closed .content cell) (row env active header) ∧
      Yields (∀ row ∈ ·, ∀ cell ∈ row, Closed .content cell) (rows env active body)) :
    Yields (∀ text ∈ ·, Closed .content text) (table env active token indent) := by
  rw [table]
  rcases hc : rowsOf token with f | _ | ⟨header, body⟩
  · exact yields_fail f
  · exact yields_bind fun _ => yields_pure (by simp)
  · obtain ⟨hh, hb⟩ := h header body hc
    refine yields_bind fun children => yields_bind fun columns => ?_
    split
    · exact yields_bind fun _ => yields_pure (by simp)
    · refine (yields_lift fun align ha => closed_alignments ha).bind fun align ha => ?_
      refine hh.bind fun head hh => hb.bind fun body hb => yields_pure ?_
      simpa using (closed_tableMarkup ha hh hb).indent indent

theorem bracketing_inductive (env : Environment) : (bracketing env).Inductive env where
  inlinesNil _ := by
    rw [inlines]
    exact yields_pure Balanced.nil
  inlinesCons h hr ht := by
    rw [inlines]
    obtain ⟨hh, hmore⟩ := List.forall_mem_cons.mp ht
    exact (h hh).bind fun here hhere => (hr hmore).bind fun more hm => yields_pure (hhere.append hm)
  inlinesBelow {active token} h ht := by
    rw [inlinesBelow]
    cases hc : token.children with
    | error f => exact yields_fail f
    | ok children => exact h children hc fun t hi => ht.child (Value.isChild_of_children hc hi)
  inline hb _ ht := inline_closed ht.self (hb ht)
  footnoteReference _ := trivial
  blocksNil _ := by
    rw [blocks]
    exact yields_pure (by simp)
  blocksCons h hr ht := by
    rw [blocks]
    obtain ⟨hh, hmore⟩ := List.forall_mem_cons.mp ht
    refine (h hh).bind fun here hhere => (hr hmore).bind fun more hm => ?_
    cases here with
    | none => exact yields_pure hm
    | some text =>
      refine yields_pure ?_
      split
      · exact hm
      · exact List.forall_mem_cons.mpr ⟨hhere text rfl, hm⟩
  block h ht := block_closed ht fun form hf => h form ht hf
  heading hb ht _ := by
    rw [blockOf]
    refine yields_bind fun value => yields_bind fun level => ?_
    refine (hb ht).bind fun text htext => ?_
    cases level with
    | none => exact yields_fail _
    | some level => exact yields_pure (by simpa using (closed_heading level htext).indent _)
  paragraphBlock h ht _ := by
    rw [blockOf]
    exact (h ht).bind fun text htext => yields_pure (by simpa using htext.indent _)
  list {active token indent} h ht _ := by
    rw [blockOf]
    refine (yields_lift fun marker hm => closed_listMarker hm).bind fun marker hm => ?_
    cases hc : token.children with
    | error f => exact yields_fail f
    | ok children =>
      refine (h marker children hc hm fun t hi =>
        ht.child (Value.isChild_of_children hc hi)).bind fun parts hparts => yields_pure ?_
      simpa using closed_lines hparts
  listItem h ht _ := by
    rw [blockOf]
    refine (h (closed_inert .content rfl) ht).bind fun text htext => yields_pure ?_
    simpa using htext
  code {active token indent} ht hf := by
    have hinfo := (ht.self.ofForm hf).2 rfl
    rw [blockOf]
    refine (yields_lift fun text h => closed_codeBlock hinfo h).bind fun text h => yields_pure ?_
    simpa using h
  quote {active token indent} h ht _ := by
    rw [blockOf]
    cases hc : token.children with
    | error f => exact yields_fail f
    | ok children =>
      refine (h children hc fun t hi =>
        ht.child (Value.isChild_of_children hc hi)).bind fun parts hparts => yields_pure ?_
      simpa using closed_quoteBlock (Closed.intercalate (closed_inert .content rfl) hparts)
  rule _ _ := by
    rw [blockOf]
    exact yields_pure (by simpa using closed_rule.indent _)
  tableBlock h ht _ := by
    rw [blockOf]
    exact h ht
  formula ht hf := ((ht.self.ofForm hf).1 rfl).elim
  html _ _ := by
    rw [blockOf]
    exact yields_lift fun shown h => closed_htmlBlock h
  paragraph hb ht := by
    rw [paragraph]
    refine yields_bind fun marker => ?_
    split
    · exact yields_pure closed_outline
    · exact hb ht
  itemsNil _ _ := by
    rw [items]
    exact yields_pure (by simp)
  itemsCons h hr hm ht := by
    rw [items]
    obtain ⟨hh, hmore⟩ := List.forall_mem_cons.mp ht
    refine (h hm hh).bind fun here hhere => (hr hm hmore).bind fun more hmore => ?_
    exact yields_pure (List.forall_mem_cons.mpr ⟨hhere, hmore⟩)
  item {active marker token indent} h hm ht := by
    refine item_closed hm fun first more hc => ?_
    obtain ⟨hp, hrest, hall⟩ := h first more hc
    have hparts : ∀ t ∈ first :: more, t.Everywhere Bracketable :=
      fun t hi => ht.child (isChild_of_itemParts hc hi)
    obtain ⟨hfirst, hmore⟩ := List.forall_mem_cons.mp hparts
    exact ⟨hp hfirst, hrest hmore, hall hparts⟩
  cellsNil _ := by
    rw [cells]
    exact yields_pure (by simp)
  cellsCons h hr ht := by
    rw [cells]
    obtain ⟨hh, hmore⟩ := List.forall_mem_cons.mp ht
    refine (h hh).bind fun here hhere => (hr hmore).bind fun more hm => ?_
    exact yields_pure (List.forall_mem_cons.mpr ⟨hhere, hm⟩)
  rowsNil _ := by
    rw [rows]
    exact yields_pure (by simp)
  rowsCons h hr ht := by
    rw [rows]
    obtain ⟨hh, hmore⟩ := List.forall_mem_cons.mp ht
    refine (h hh).bind fun here hhere => (hr hmore).bind fun more hm => ?_
    exact yields_pure (List.forall_mem_cons.mpr ⟨hhere, hm⟩)
  row {active token} h ht := by
    rw [row]
    cases hc : token.children with
    | error f => exact yields_fail f
    | ok children => exact h children hc fun t hi => ht.child (Value.isChild_of_children hc hi)
  table {active token indent} h ht := by
    refine table_closed fun header body hc => ?_
    obtain ⟨hh, hb⟩ := h header body hc
    have hparts : ∀ t ∈ header :: body, t.Everywhere Bracketable :=
      fun t hi => ht.child (isChild_of_rowsOf hc hi)
    obtain ⟨hheader, hbody⟩ := List.forall_mem_cons.mp hparts
    exact ⟨hh hheader, hb hbody⟩

/-- Blocks are rendered to an end and to well bracketed text, at every level of indentation. -/
theorem blocksText_wellBracketed (env : Environment) (tokens : List Value) (indent : Int)
    (h : ∀ token ∈ tokens, token.Everywhere Bracketable) :
    ∃ text, (blocksText env tokens indent "\n\n").outcome = .ok text ∧ WellBracketed text := by
  have htyped : ∀ token ∈ tokens, Token.Typed token := by
    intro token ht
    obtain ⟨name, hk, -⟩ := (h token ht).self
    exact ⟨name, hk⟩
  obtain ⟨parts, hparts⟩ := @blocks_outcome_ok env [] indent tokens htyped
  have hclosed := (bracketing_inductive env).holds.blocks [] tokens indent h parts hparts
  refine ⟨String.intercalate "\n\n" parts, ?_, ?_⟩
  · rw [blocksText, Rendering.bind_of_ok hparts]
    rfl
  · exact (Closed.intercalate (closed_inert .content rfl) hclosed).wellBracketed

/-- Text and code out of what opens and closes brackets, raw text and strings. -/
def hostile : List Value :=
  [Token.branch "paragraph"
      [Token.text "]`#f(\"", Token.branch "mark" [Token.leaf "codespan" "[`"]],
    Token.leaf "block_code" "```\n]"]

theorem hostile_bracketable : ∀ token ∈ hostile, token.Everywhere Bracketable := by
  have hleaf (kind raw : String)
      (hkind : kind ∉ ["footnote_ref", "inline_math", "block_math"]) :
      (Token.leaf kind raw).Everywhere Bracketable :=
    Value.everywhere_leaf ⟨kind, rfl, hkind, fun _ => ⟨raw, rfl⟩, fun _ info h => by cases h⟩
  have hbranch (kind : String) (children : List Value)
      (hkind : kind ∉ ["footnote_ref", "inline_math", "block_math", "codespan", "block_code"])
      (hc : ∀ t ∈ children, t.Everywhere Bracketable) :
      (Token.branch kind children).Everywhere Bracketable := by
    simp only [List.mem_cons, List.not_mem_nil, or_false, not_or] at hkind
    exact Value.everywhere_branch ⟨kind, rfl, by simp [hkind], fun h => (hkind.2.2.2.1 h).elim,
      fun h => (hkind.2.2.2.2 h).elim⟩ hc
  refine List.forall_mem_cons.mpr ⟨hbranch _ _ (by decide) ?_, ?_⟩
  · refine List.forall_mem_cons.mpr ⟨hleaf _ _ (by decide), ?_⟩
    refine List.forall_mem_singleton.mpr (hbranch _ _ (by decide) ?_)
    exact List.forall_mem_singleton.mpr (hleaf _ _ (by decide))
  · exact List.forall_mem_singleton.mpr (hleaf _ _ (by decide))

theorem blocksText_wellBracketed_hostile :
    (∀ token ∈ hostile, token.Everywhere Bracketable) ∧
      ∃ text, (blocksText { convertMath := .ok } hostile 1 "\n\n").outcome = .ok text ∧
        WellBracketed text :=
  ⟨hostile_bracketable,
    blocksText_wellBracketed { convertMath := .ok } hostile 1 hostile_bracketable⟩

end Typeset.Bracket
