import Mathlib.Logic.Relation
import Typeset.Proofs.Image.Flag
import Typeset.Proofs.Render.Induction

/-! The renderers as a graph of calls. A remote image is met in a call exactly if a path leads from
it to the markup of an image with a remote address. -/

namespace Typeset.Image

open Render Rendering Relation

/-- What is asked of the renderers. -/
inductive Call
  | image (address : Value)
  | inlines (tokens : List Value)
  | below (token : Value)
  | inline (token : Value)
  | note (token : Value)
  | blocks (tokens : List Value) (indent : Int)
  | block (token : Value) (indent : Int)
  | form (kind : BlockKind) (token : Value) (indent : Int)
  | paragraph (token : Value)
  | items (marker : String) (tokens : List Value) (indent : Int)
  | item (marker : String) (token : Value) (indent : Int)
  | cells (tokens : List Value)
  | row (token : Value)
  | rows (tokens : List Value)
  | table (token : Value) (indent : Int)

/-- Whether the answer to a call meets a remote image, inside the expansion of some footnotes. -/
def Call.meets (env : Environment) (active : List String) : Call → Bool
  | .image address => (imageMarkup address).remoteImage
  | .inlines tokens => (Render.inlines env active tokens).remoteImage
  | .below token => (inlinesBelow env active token).remoteImage
  | .inline token => (Render.inline env active token).remoteImage
  | .note token => (footnoteReference env active token).remoteImage
  | .blocks tokens indent => (Render.blocks env active tokens indent).remoteImage
  | .block token indent => (Render.block env active token indent).remoteImage
  | .form kind token indent => (blockOf env active kind token indent).remoteImage
  | .paragraph token => (Render.paragraph env active token).remoteImage
  | .items marker tokens indent => (Render.items env active marker tokens indent).remoteImage
  | .item marker token indent => (Render.item env active marker token indent).remoteImage
  | .cells tokens => (Render.cells env active tokens).remoteImage
  | .row token => (Render.row env active token).remoteImage
  | .rows tokens => (Render.rows env active tokens).remoteImage
  | .table token indent => (Render.table env active token indent).remoteImage

/-- A table whose columns can be counted and aligned, and that has some. -/
def HasColumns (token header : Value) : Prop :=
  ∃ cells columns align, header.field "children" (.list []) = .ok cells ∧
    cells.count = .ok columns ∧ columns ≠ 0 ∧ alignments token columns = .ok align

/-- In answering one call the renderers come to another, all that stands before it having come to an
end. Either is made inside the expansion of some footnotes. -/
inductive Calls (env : Environment) : List String × Call → List String × Call → Prop
  | firstInline {active token rest} :
      Calls env (active, .inlines (token :: rest)) (active, .inline token)
  | laterInline {active token rest text} :
      (Render.inline env active token).outcome = .ok text →
        Calls env (active, .inlines (token :: rest)) (active, .inlines rest)
  | below {active token children} :
      token.children = .ok children → Calls env (active, .below token) (active, .inlines children)
  | label {active token name form} :
      Token.kind token = .ok (.str name) → inlineKind? name = some form → Labelled token form →
        Calls env (active, .inline token) (active, .below token)
  | image {active token name address} :
      Token.kind token = .ok (.str name) → inlineKind? name = some .image →
        token.attr "url" (.str "") = .ok address →
          Calls env (active, .inline token) (active, .image address)
  | imageReference {active token name identifier d} :
      Token.kind token = .ok (.str name) → inlineKind? name = some .imageReference →
        identifierOf token = .ok identifier →
          env.definitions.find (Text.lower identifier) = some d →
            Calls env (active, .inline token) (active, .image d.url)
  | note {active token name} :
      Token.kind token = .ok (.str name) → inlineKind? name = some .footnoteReference →
        Calls env (active, .inline token) (active, .note token)
  | expansion {active token identifier note body} :
      identifierOf token = .ok identifier →
        env.footnotes.find (Text.lower identifier) = some note → Text.lower identifier ∉ active →
          env.rendersFootnotes = true → note.body.tokens = .ok body →
            Calls env (active, .note token) (Text.lower identifier :: active, .blocks body 0)
  | firstBlock {active token rest indent} :
      Calls env (active, .blocks (token :: rest) indent) (active, .block token indent)
  | laterBlock {active token rest indent shown} :
      (Render.block env active token indent).outcome = .ok shown →
        Calls env (active, .blocks (token :: rest) indent) (active, .blocks rest indent)
  | form {active token indent name kind} :
      Token.kind token = .ok (.str name) → blockKind? name = some kind →
        Calls env (active, .block token indent) (active, .form kind token indent)
  | heading {active token indent level} :
      token.attr "level" (.int 1) >>= headingLevel = .ok level →
        Calls env (active, .form .heading token indent) (active, .below token)
  | paragraph {active token indent} :
      Calls env (active, .form .paragraph token indent) (active, .paragraph token)
  | list {active token indent marker children} :
      listMarker token = .ok marker → token.children = .ok children →
        Calls env (active, .form .list token indent) (active, .items marker children indent)
  | listItem {active token indent} :
      Calls env (active, .form .listItem token indent) (active, .item "-" token indent)
  | quote {active token indent children} :
      token.children = .ok children →
        Calls env (active, .form .quote token indent) (active, .blocks children 0)
  | table {active token indent} :
      Calls env (active, .form .table token indent) (active, .table token indent)
  | text {active token} :
      isOutlineMarker env token = .ok false →
        Calls env (active, .paragraph token) (active, .below token)
  | firstItem {active marker token rest indent} :
      Calls env (active, .items marker (token :: rest) indent) (active, .item marker token indent)
  | laterItem {active marker token rest indent text} :
      (Render.item env active marker token indent).outcome = .ok text →
        Calls env (active, .items marker (token :: rest) indent) (active, .items marker rest indent)
  | lead {active marker token indent first more} :
      itemParts token = .ok (first :: more) → IsLead first →
        Calls env (active, .item marker token indent) (active, .paragraph first)
  | afterLead {active marker token indent first more text} :
      itemParts token = .ok (first :: more) → IsLead first →
        (Render.paragraph env active first).outcome = .ok text →
          Calls env (active, .item marker token indent) (active, .blocks more (indent + 1))
  | leadless {active marker token indent first more} :
      itemParts token = .ok (first :: more) → Leadless (first :: more) →
        Calls env (active, .item marker token indent)
          (active, .blocks (first :: more) (indent + 1))
  | firstCell {active token rest} :
      Calls env (active, .cells (token :: rest)) (active, .below token)
  | laterCell {active token rest text} :
      (inlinesBelow env active token).outcome = .ok text →
        Calls env (active, .cells (token :: rest)) (active, .cells rest)
  | row {active token children} :
      token.children = .ok children → Calls env (active, .row token) (active, .cells children)
  | firstRow {active token rest} :
      Calls env (active, .rows (token :: rest)) (active, .row token)
  | laterRow {active token rest cells} :
      (Render.row env active token).outcome = .ok cells →
        Calls env (active, .rows (token :: rest)) (active, .rows rest)
  | header {active token indent header body} :
      rowsOf token = .ok (header :: body) → HasColumns token header →
        Calls env (active, .table token indent) (active, .row header)
  | laterRows {active token indent header body cells} :
      rowsOf token = .ok (header :: body) → HasColumns token header →
        (Render.row env active header).outcome = .ok cells →
          Calls env (active, .table token indent) (active, .rows body)

/-- A call does not go on to others for ever. -/
abbrev Ends (env : Environment) (active : List String) (call : Call) : Prop :=
  Acc (flip (Calls env)) (active, call)

/-- That no renderer goes on for ever. -/
def ending (env : Environment) : Property where
  inlines active tokens := Ends env active (.inlines tokens)
  inlinesBelow active token := Ends env active (.below token)
  inline active token := Ends env active (.inline token)
  footnoteReference active token := Ends env active (.note token)
  blocks active tokens indent := Ends env active (.blocks tokens indent)
  block active token indent := Ends env active (.block token indent)
  blockOf active kind token indent := Ends env active (.form kind token indent)
  paragraph active token := Ends env active (.paragraph token)
  items active marker tokens indent := Ends env active (.items marker tokens indent)
  item active marker token indent := Ends env active (.item marker token indent)
  cells active tokens := Ends env active (.cells tokens)
  rows active tokens := Ends env active (.rows tokens)
  row active token := Ends env active (.row token)
  table active token indent := Ends env active (.table token indent)

variable {env : Environment} {active : List String}

theorem ending_inductive (env : Environment) : (ending env).Inductive env where
  inlinesNil := .intro _ fun _ h => by cases h
  inlinesCons hi hr := .intro _ fun _ h => by
    cases h with
    | firstInline => exact hi
    | laterInline => exact hr
  inlinesBelow hc := .intro _ fun _ h => by
    cases h with
    | below h => exact hc _ h
  inline hb hf := .intro _ fun _ h => by
    cases h with
    | label => exact hb
    | image => exact .intro _ fun _ h => by cases h
    | imageReference => exact .intro _ fun _ h => by cases h
    | note => exact hf
  footnoteReference hb := .intro _ fun _ h => by
    cases h with
    | expansion _ hf ha => exact hb _ _ hf ha _
  blocksNil := .intro _ fun _ h => by cases h
  blocksCons hb hr := .intro _ fun _ h => by
    cases h with
    | firstBlock => exact hb
    | laterBlock => exact hr
  block hb := .intro _ fun _ h => by
    cases h with
    | form => exact hb _
  heading hb := .intro _ fun _ h => by
    cases h with
    | heading => exact hb
  paragraphBlock hp := .intro _ fun _ h => by
    cases h with
    | paragraph => exact hp
  list hi := .intro _ fun _ h => by
    cases h with
    | list _ h => exact hi _ _ h
  listItem hi := .intro _ fun _ h => by
    cases h with
    | listItem => exact hi
  code := .intro _ fun _ h => by cases h
  quote hb := .intro _ fun _ h => by
    cases h with
    | quote h => exact hb _ h
  rule := .intro _ fun _ h => by cases h
  tableBlock ht := .intro _ fun _ h => by
    cases h with
    | table => exact ht
  formula := .intro _ fun _ h => by cases h
  html := .intro _ fun _ h => by cases h
  paragraph hb := .intro _ fun _ h => by
    cases h with
    | text => exact hb
  itemsNil := .intro _ fun _ h => by cases h
  itemsCons hi hr := .intro _ fun _ h => by
    cases h with
    | firstItem => exact hi
    | laterItem => exact hr
  item hb := .intro _ fun _ h => by
    cases h with
    | lead h => exact (hb _ _ h).1
    | afterLead h => exact (hb _ _ h).2.1
    | leadless h => exact (hb _ _ h).2.2
  cellsNil := .intro _ fun _ h => by cases h
  cellsCons hb hr := .intro _ fun _ h => by
    cases h with
    | firstCell => exact hb
    | laterCell => exact hr
  rowsNil := .intro _ fun _ h => by cases h
  rowsCons hr hm := .intro _ fun _ h => by
    cases h with
    | firstRow => exact hr
    | laterRow => exact hm
  row hc := .intro _ fun _ h => by
    cases h with
    | row h => exact hc _ h
  table hr := .intro _ fun _ h => by
    cases h with
    | header h => exact (hr _ _ h).1
    | laterRows h => exact (hr _ _ h).2

/-- A call goes on to one that meets a remote image. -/
def GoesOn (env : Environment) (active : List String) (call : Call) : Prop :=
  ∃ next, Calls env (active, call) next ∧ next.2.meets env next.1 = true

/-- A call that goes on to no other one, and is not for an image. -/
theorem meets_iff_of_last {call : Call} (hquiet : call.meets env active = false)
    (hlast : ∀ next, ¬ Calls env (active, call) next) :
    call.meets env active = true ↔ GoesOn env active call := by
  constructor
  · intro h
    rw [hquiet] at h
    cases h
  · rintro ⟨next, hcalls, -⟩
    exact (hlast next hcalls).elim

section Steps

variable {token : Value} {tokens : List Value} {marker : String} {indent : Int}

theorem inlines_meet_iff :
    (Call.inlines tokens).meets env active = true ↔ GoesOn env active (.inlines tokens) := by
  cases tokens with
  | nil =>
    have hquiet : (Call.inlines []).meets env active = false := by
      rw [Call.meets, inlines, pure_remoteImage]
    exact meets_iff_of_last hquiet fun _ h => by cases h
  | cons token rest =>
    rw [Call.meets, inlines, remoteImage_bind_bind_iff fun _ _ => rfl]
    constructor
    · rintro (h | ⟨⟨text, ht⟩, h⟩)
      · exact ⟨_, .firstInline, h⟩
      · exact ⟨_, .laterInline ht, h⟩
    · rintro ⟨_, hcalls, h⟩
      cases hcalls with
      | firstInline => exact .inl h
      | laterInline ht => exact .inr ⟨⟨_, ht⟩, h⟩

theorem below_meets_iff :
    (Call.below token).meets env active = true ↔ GoesOn env active (.below token) := by
  rw [Call.meets, remoteImage_inlinesBelow]
  constructor
  · rintro ⟨children, hc, h⟩
    exact ⟨_, .below hc, h⟩
  · rintro ⟨_, hcalls, h⟩
    cases hcalls with
    | below hc => exact ⟨_, hc, h⟩

theorem inline_meets_iff :
    (Call.inline token).meets env active = true ↔ GoesOn env active (.inline token) := by
  rw [Call.meets, remoteImage_inline]
  constructor
  · rintro ⟨name, form, hk, hform, h⟩
    rcases (remoteImage_inlineOf form).mp h with
      ⟨hlabel, h⟩ | ⟨rfl, address, ha, h⟩ | ⟨rfl, h⟩ | ⟨rfl, h⟩
    · exact ⟨_, .label hk hform hlabel, h⟩
    · exact ⟨_, .image hk hform ha, h⟩
    · obtain ⟨identifier, d, hi, hd, h⟩ := remoteImage_imageReferenceMarkup.mp h
      exact ⟨_, .imageReference hk hform hi hd, h⟩
    · exact ⟨_, .note hk hform, h⟩
  · rintro ⟨_, hcalls, h⟩
    cases hcalls with
    | label hk hform hlabel =>
      exact ⟨_, _, hk, hform, (remoteImage_inlineOf _).mpr (.inl ⟨hlabel, h⟩)⟩
    | image hk hform ha =>
      exact ⟨_, _, hk, hform, (remoteImage_inlineOf _).mpr (.inr (.inl ⟨rfl, _, ha, h⟩))⟩
    | imageReference hk hform hi hd =>
      have hmeets := remoteImage_imageReferenceMarkup.mpr ⟨_, _, hi, hd, h⟩
      exact ⟨_, _, hk, hform, (remoteImage_inlineOf _).mpr (.inr (.inr (.inl ⟨rfl, hmeets⟩)))⟩
    | note hk hform =>
      exact ⟨_, _, hk, hform, (remoteImage_inlineOf _).mpr (.inr (.inr (.inr ⟨rfl, h⟩)))⟩

theorem note_meets_iff :
    (Call.note token).meets env active = true ↔ GoesOn env active (.note token) := by
  rw [Call.meets, footnoteReference_eq, remoteImage_lift_bind_iff]
  constructor
  · rintro ⟨identifier, hi, h⟩
    obtain ⟨note, hf, ha, h⟩ := remoteImage_noteFor.mp h
    obtain ⟨hr, body, hb, h⟩ := remoteImage_expandedBody.mp h
    exact ⟨_, .expansion hi hf ha hr hb, h⟩
  · rintro ⟨_, hcalls, h⟩
    cases hcalls with
    | expansion hi hf ha hr hb =>
      have hbody := remoteImage_expandedBody.mpr ⟨hr, _, hb, h⟩
      exact ⟨_, hi, remoteImage_noteFor.mpr ⟨_, hf, ha, hbody⟩⟩

theorem blocks_meet_iff :
    (Call.blocks tokens indent).meets env active = true ↔
      GoesOn env active (.blocks tokens indent) := by
  cases tokens with
  | nil =>
    have hquiet : (Call.blocks [] indent).meets env active = false := by
      rw [Call.meets, blocks, pure_remoteImage]
    exact meets_iff_of_last hquiet fun _ h => by cases h
  | cons token rest =>
    rw [Call.meets, blocks, remoteImage_bind_bind_iff fun here more => by cases here <;> rfl]
    constructor
    · rintro (h | ⟨⟨text, ht⟩, h⟩)
      · exact ⟨_, .firstBlock, h⟩
      · exact ⟨_, .laterBlock ht, h⟩
    · rintro ⟨_, hcalls, h⟩
      cases hcalls with
      | firstBlock => exact .inl h
      | laterBlock ht => exact .inr ⟨⟨_, ht⟩, h⟩

theorem block_meets_iff :
    (Call.block token indent).meets env active = true ↔
      GoesOn env active (.block token indent) := by
  rw [Call.meets, remoteImage_block]
  constructor
  · rintro ⟨name, kind, hk, hkind, h⟩
    exact ⟨_, .form hk hkind, h⟩
  · rintro ⟨_, hcalls, h⟩
    cases hcalls with
    | form hk hkind => exact ⟨_, _, hk, hkind, h⟩

theorem paragraph_meets_iff :
    (Call.paragraph token).meets env active = true ↔ GoesOn env active (.paragraph token) := by
  rw [Call.meets, paragraph, remoteImage_lift_bind_iff]
  constructor
  · rintro ⟨marker, hm, h⟩
    cases marker with
    | true => cases h
    | false => exact ⟨_, .text hm, h⟩
  · rintro ⟨_, hcalls, h⟩
    cases hcalls with
    | text hm => exact ⟨false, hm, h⟩

theorem items_meet_iff :
    (Call.items marker tokens indent).meets env active = true ↔
      GoesOn env active (.items marker tokens indent) := by
  cases tokens with
  | nil =>
    have hquiet : (Call.items marker [] indent).meets env active = false := by
      rw [Call.meets, items, pure_remoteImage]
    exact meets_iff_of_last hquiet fun _ h => by cases h
  | cons token rest =>
    rw [Call.meets, items, remoteImage_bind_bind_iff fun _ _ => rfl]
    constructor
    · rintro (h | ⟨⟨text, ht⟩, h⟩)
      · exact ⟨_, .firstItem, h⟩
      · exact ⟨_, .laterItem ht, h⟩
    · rintro ⟨_, hcalls, h⟩
      cases hcalls with
      | firstItem => exact .inl h
      | laterItem ht => exact .inr ⟨⟨_, ht⟩, h⟩

theorem cells_meet_iff :
    (Call.cells tokens).meets env active = true ↔ GoesOn env active (.cells tokens) := by
  cases tokens with
  | nil =>
    have hquiet : (Call.cells []).meets env active = false := by
      rw [Call.meets, cells, pure_remoteImage]
    exact meets_iff_of_last hquiet fun _ h => by cases h
  | cons token rest =>
    rw [Call.meets, cells, remoteImage_bind_bind_iff fun _ _ => rfl]
    constructor
    · rintro (h | ⟨⟨text, ht⟩, h⟩)
      · exact ⟨_, .firstCell, h⟩
      · exact ⟨_, .laterCell ht, h⟩
    · rintro ⟨_, hcalls, h⟩
      cases hcalls with
      | firstCell => exact .inl h
      | laterCell ht => exact .inr ⟨⟨_, ht⟩, h⟩

theorem row_meets_iff :
    (Call.row token).meets env active = true ↔ GoesOn env active (.row token) := by
  constructor
  · rw [Call.meets, row]
    intro h
    split at h
    · cases h
    next children hc => exact ⟨_, .row hc, h⟩
  · rintro ⟨_, hcalls, h⟩
    cases hcalls with
    | row hc =>
      rw [Call.meets, row]
      split <;> simp_all [Call.meets]

theorem rows_meet_iff :
    (Call.rows tokens).meets env active = true ↔ GoesOn env active (.rows tokens) := by
  cases tokens with
  | nil =>
    have hquiet : (Call.rows []).meets env active = false := by
      rw [Call.meets, rows, pure_remoteImage]
    exact meets_iff_of_last hquiet fun _ h => by cases h
  | cons token rest =>
    rw [Call.meets, rows, remoteImage_bind_bind_iff fun _ _ => rfl]
    constructor
    · rintro (h | ⟨⟨cells, ht⟩, h⟩)
      · exact ⟨_, .firstRow, h⟩
      · exact ⟨_, .laterRow ht, h⟩
    · rintro ⟨_, hcalls, h⟩
      cases hcalls with
      | firstRow => exact .inl h
      | laterRow ht => exact .inr ⟨⟨_, ht⟩, h⟩

theorem item_meets_iff :
    (Call.item marker token indent).meets env active = true ↔
      GoesOn env active (.item marker token indent) := by
  constructor
  · rw [Call.meets, item]
    intro h
    split at h
    · cases h
    · cases h
    next first more hp =>
      obtain ⟨kind, hk, h⟩ := remoteImage_lift_bind_iff.mp h
      split at h
      next htext =>
        obtain rfl : kind = .str "paragraph" := by
          cases kind <;> simp_all [Value.isText]
        rcases (remoteImage_bind_bind_iff fun _ _ => rfl).mp h with h | ⟨⟨text, ht⟩, h⟩
        · exact ⟨_, .lead hp hk, h⟩
        · exact ⟨_, .afterLead hp hk ht, h⟩
      next htext =>
        rw [remoteImage_bind_of_quiet fun _ => rfl] at h
        refine ⟨_, .leadless hp ?_, h⟩
        rintro _ ⟨⟩
        exact ⟨kind, hk, by simpa using htext⟩
  · rintro ⟨_, hcalls, h⟩
    cases hcalls with
    | lead hp hlead =>
      rw [Call.meets, item_of_lead hp hlead, remoteImage_bind_bind_iff fun _ _ => rfl]
      exact .inl h
    | afterLead hp hlead ht =>
      rw [Call.meets, item_of_lead hp hlead, remoteImage_bind_bind_iff fun _ _ => rfl]
      exact .inr ⟨⟨_, ht⟩, h⟩
    | leadless hp hlead =>
      rw [Call.meets, item_of_leadless hp hlead, remoteImage_bind_of_quiet fun _ => rfl]
      exact h

theorem table_meets_iff :
    (Call.table token indent).meets env active = true ↔
      GoesOn env active (.table token indent) := by
  have hrows (align : List String) (header : Value) (body : List Value) : (do
      let head ← Render.row env active header
      let rows ← Render.rows env active body
      pure (some (Markup.indent (tableMarkup align head rows) indent)) :
        Rendering (Option String)).remoteImage = true ↔
      (Call.row header).meets env active = true ∨
        (∃ cells, (Render.row env active header).outcome = .ok cells) ∧
          (Call.rows body).meets env active = true :=
    remoteImage_bind_bind_iff fun _ _ => rfl
  have htable {header : Value} {body : List Value} (hr : rowsOf token = .ok (header :: body)) :
      (Call.table token indent).meets env active = true ↔ HasColumns token header ∧
        ((Call.row header).meets env active = true ∨
          (∃ cells, (Render.row env active header).outcome = .ok cells) ∧
            (Call.rows body).meets env active = true) := by
    show (Render.table env active token indent).remoteImage = true ↔ _
    rw [table]
    split
    · simp_all
    · simp_all
    next header' body' hr' =>
      obtain ⟨rfl, rfl⟩ : header' = header ∧ body' = body := by simpa [hr] using hr'.symm
      constructor
      · intro h
        obtain ⟨cells, hcells, h⟩ := remoteImage_lift_bind_iff.mp h
        obtain ⟨columns, hcount, h⟩ := remoteImage_lift_bind_iff.mp h
        split at h
        · cases h
        next hsome =>
          obtain ⟨align, halign, h⟩ := remoteImage_lift_bind_iff.mp h
          exact ⟨⟨cells, columns, align, hcells, hcount, hsome, halign⟩, (hrows _ _ _).mp h⟩
      · rintro ⟨⟨cells, columns, align, hcells, hcount, hsome, halign⟩, h⟩
        rw [Rendering.lift_bind_of_ok hcells, Rendering.lift_bind_of_ok hcount, if_neg hsome,
          Rendering.lift_bind_of_ok halign]
        exact (hrows _ _ _).mpr h
  constructor
  · intro h
    have hcalled := h
    rw [Call.meets, table] at hcalled
    split at hcalled
    · cases hcalled
    · cases hcalled
    next header body hr =>
      obtain ⟨hcolumns, h | ⟨⟨cells, ho⟩, h⟩⟩ := (htable hr).mp h
      · exact ⟨_, .header hr hcolumns, h⟩
      · exact ⟨_, .laterRows hr hcolumns ho, h⟩
  · rintro ⟨_, hcalls, h⟩
    cases hcalls with
    | header hr hcolumns => exact (htable hr).mpr ⟨hcolumns, .inl h⟩
    | laterRows hr hcolumns ho => exact (htable hr).mpr ⟨hcolumns, .inr ⟨⟨_, ho⟩, h⟩⟩

theorem form_meets_iff {kind : BlockKind} :
    (Call.form kind token indent).meets env active = true ↔
      GoesOn env active (.form kind token indent) := by
  rw [Call.meets]
  cases kind with
  | heading =>
    rw [blockOf, remoteImage_lift_bind_iff]
    constructor
    · rintro ⟨value, hv, h⟩
      obtain ⟨level, hl, h⟩ := remoteImage_lift_bind_iff.mp h
      rw [remoteImage_bind_of_quiet fun _ => by cases level <;> rfl] at h
      have hlevel : token.attr "level" (.int 1) >>= headingLevel = .ok level := by
        rw [hv]
        exact hl
      exact ⟨_, .heading hlevel, h⟩
    · rintro ⟨_, hcalls, h⟩
      cases hcalls with
      | @heading _ _ _ level hlevel =>
        obtain ⟨value, hv, hl⟩ := Failure.exists_of_bind hlevel
        refine ⟨value, hv, ?_⟩
        rw [Rendering.lift_bind_of_ok hl,
          remoteImage_bind_of_quiet fun _ => by cases level <;> rfl]
        exact h
  | paragraph =>
    rw [blockOf, remoteImage_bind_of_quiet fun _ => rfl]
    constructor
    · exact fun h => ⟨_, .paragraph, h⟩
    · rintro ⟨_, hcalls, h⟩
      cases hcalls
      exact h
  | list =>
    constructor
    · rw [blockOf, remoteImage_lift_bind_iff]
      rintro ⟨marker, hm, h⟩
      split at h
      · cases h
      next children hc =>
        rw [remoteImage_bind_of_quiet fun _ => rfl] at h
        exact ⟨_, .list hm hc, h⟩
    · rintro ⟨_, hcalls, h⟩
      cases hcalls with
      | list hm hc =>
        rw [blockOf_list hm hc, remoteImage_bind_of_quiet fun _ => rfl]
        exact h
  | listItem =>
    rw [blockOf, remoteImage_bind_of_quiet fun _ => rfl]
    constructor
    · exact fun h => ⟨_, .listItem, h⟩
    · rintro ⟨_, hcalls, h⟩
      cases hcalls
      exact h
  | code =>
    have hquiet : (Call.form .code token indent).meets env active = false := by
      rw [Call.meets, blockOf]
      exact remoteImage_bind_of_quiet fun _ => rfl
    exact meets_iff_of_last hquiet fun _ h => by cases h
  | quote =>
    constructor
    · rw [blockOf]
      intro h
      split at h
      · cases h
      next children hc =>
        rw [remoteImage_bind_of_quiet fun _ => rfl] at h
        exact ⟨_, .quote hc, h⟩
    · rintro ⟨_, hcalls, h⟩
      cases hcalls with
      | quote hc =>
        rw [blockOf_quote hc, remoteImage_bind_of_quiet fun _ => rfl]
        exact h
  | rule =>
    have hquiet : (Call.form .rule token indent).meets env active = false := by
      rw [Call.meets, blockOf]
      rfl
    exact meets_iff_of_last hquiet fun _ h => by cases h
  | table =>
    rw [blockOf]
    constructor
    · exact fun h => ⟨_, .table, h⟩
    · rintro ⟨_, hcalls, h⟩
      cases hcalls
      exact h
  | formula =>
    have hquiet : (Call.form .formula token indent).meets env active = false := by
      rw [Call.meets, blockOf]
      refine remoteImage_bind_of_quiet fun raw => ?_
      exact (remoteImage_bind_of_quiet fun _ => rfl).trans (remoteImage_blockFormula raw)
    exact meets_iff_of_last hquiet fun _ h => by cases h
  | html =>
    have hquiet : (Call.form .html token indent).meets env active = false := by
      rw [Call.meets, blockOf]
      rfl
    exact meets_iff_of_last hquiet fun _ h => by cases h

end Steps

/-- A call that is not yet the markup of an image meets one only in what it goes on to. -/
theorem meets_iff_goesOn {call : Call} (h : ∀ address, call ≠ .image address) :
    call.meets env active = true ↔ GoesOn env active call := by
  cases call with
  | image address => exact (h address rfl).elim
  | inlines => exact inlines_meet_iff
  | below => exact below_meets_iff
  | inline => exact inline_meets_iff
  | note => exact note_meets_iff
  | blocks => exact blocks_meet_iff
  | block => exact block_meets_iff
  | form => exact form_meets_iff
  | paragraph => exact paragraph_meets_iff
  | items => exact items_meet_iff
  | item => exact item_meets_iff
  | cells => exact cells_meet_iff
  | row => exact row_meets_iff
  | rows => exact rows_meet_iff
  | table => exact table_meets_iff

/-- A path of calls leads to the markup of an image with this address. -/
def Reaches (env : Environment) (start : List String × Call) (url : String) : Prop :=
  ∃ inside, ReflTransGen (Calls env) start (inside, .image (.str url))

theorem reaches_image_iff {address : Value} {url : String} :
    Reaches env (active, .image address) url ↔ address = .str url := by
  constructor
  · rintro ⟨inside, hpath⟩
    rcases hpath.cases_head with heq | ⟨next, hcalls, _⟩
    · cases heq
      rfl
    · cases hcalls
  · rintro rfl
    exact ⟨active, .refl⟩

theorem reaches_iff_calls {call : Call} (h : ∀ address, call ≠ .image address) {url : String} :
    Reaches env (active, call) url ↔
      ∃ next, Calls env (active, call) next ∧ Reaches env next url := by
  constructor
  · rintro ⟨inside, hpath⟩
    rcases hpath.cases_head with heq | ⟨next, hcalls, hrest⟩
    · cases heq
      exact (h _ rfl).elim
    · exact ⟨next, hcalls, inside, hrest⟩
  · rintro ⟨next, hcalls, inside, hrest⟩
    exact ⟨inside, .head hcalls hrest⟩

theorem meets_iff_reaches {start : List String × Call} (h : Acc (flip (Calls env)) start) :
    start.2.meets env start.1 = true ↔ ∃ url, isRemote url = true ∧ Reaches env start url := by
  -- No call goes on for ever, so the claim may be taken as known for the calls that come next.
  induction h with
  | intro start _ ih =>
    obtain ⟨active, call⟩ := start
    by_cases himage : ∃ address, call = .image address
    · obtain ⟨address, rfl⟩ := himage
      simp only [Call.meets, remoteImage_imageMarkup, reaches_image_iff]
      exact exists_congr fun url => and_comm
    · have hcall : ∀ address, call ≠ .image address := fun address h => himage ⟨address, h⟩
      rw [meets_iff_goesOn hcall]
      constructor
      · rintro ⟨next, hcalls, h⟩
        obtain ⟨url, hurl, hreach⟩ := (ih next hcalls).mp h
        exact ⟨url, hurl, (reaches_iff_calls hcall).mpr ⟨next, hcalls, hreach⟩⟩
      · rintro ⟨url, hurl, hreach⟩
        obtain ⟨next, hcalls, hreach⟩ := (reaches_iff_calls hcall).mp hreach
        exact ⟨next, hcalls, (ih next hcalls).mpr ⟨url, hurl, hreach⟩⟩

/-- Blocks meet a remote image exactly if a path of calls leads from them to one. -/
theorem remoteImage_blocks_iff (env : Environment) (active : List String) (tokens : List Value)
    (indent : Int) : (blocks env active tokens indent).remoteImage = true ↔
      ∃ url, isRemote url = true ∧ Reaches env (active, .blocks tokens indent) url := by
  have hends : Acc (flip (Calls env)) (active, .blocks tokens indent) :=
    (ending_inductive env).holds.blocks active tokens indent
  exact meets_iff_reaches hends

end Typeset.Image
