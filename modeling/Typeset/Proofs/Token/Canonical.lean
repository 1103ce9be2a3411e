import Typeset.Proofs.Lists
import Typeset.Proofs.Value.Fields
import Typeset.Token.Normal

/-! Token trees as the reader of Markdown builds them can always be brought into the form that the
renderers take: nothing on the way asks a token for what it does not have. -/

namespace Typeset

namespace Failure

variable {α β : Type} {Q : α → Prop} {R : β → Prop}

/-- The computation comes to an end, with an answer of this kind. -/
def Gives (Q : α → Prop) (x : Except Failure α) : Prop := ∃ a, x = .ok a ∧ Q a

theorem gives_ok {a : α} (h : Q a) : Gives Q (.ok a) := ⟨a, rfl, h⟩

theorem Gives.bind {x : Except Failure α} {next : α → Except Failure β} (hx : Gives Q x)
    (hn : ∀ a, Q a → Gives R (next a)) : Gives R (x >>= next) := by
  obtain ⟨a, rfl, ha⟩ := hx
  exact hn a ha

theorem Gives.map {x : Except Failure α} {g : α → β} (hx : Gives Q x) (h : ∀ a, Q a → R (g a)) :
    Gives R (x.map g) := by
  obtain ⟨a, rfl, ha⟩ := hx
  exact gives_ok (h a ha)

theorem Gives.mono {R : α → Prop} {x : Except Failure α} (hx : Gives Q x) (h : ∀ a, Q a → R a) :
    Gives R x := by
  obtain ⟨a, ha, hq⟩ := hx
  exact ⟨a, ha, h a hq⟩

theorem gives_mapM {f : α → Except Failure β} {xs : List α} (h : ∀ x ∈ xs, Gives R (f x)) :
    Gives (fun ys => ∀ y ∈ ys, R y) (xs.mapM f) := by
  induction xs with
  | nil => exact gives_ok (List.forall_mem_nil _)
  | cons x rest ih =>
    rw [List.mapM_cons]
    refine (h x List.mem_cons_self).bind fun y hy => ?_
    refine (ih fun z hz => h z (List.mem_cons_of_mem x hz)).bind fun ys hys => ?_
    exact gives_ok (List.forall_mem_cons.mpr ⟨hy, hys⟩)

end Failure

namespace Token

open Failure

/-- The fields of an object. -/
abbrev Fields := List (String × Value)

/-- A token tree in which the fields of each token are of a kind. -/
inductive Tree (P : Fields → Prop) : Value → Prop
  | object {fields : Fields} (here : P fields)
    (list : ∀ v, ("children", v) ∈ fields → ∃ items, v = .list items)
    (below : ∀ items, ("children", .list items) ∈ fields → ∀ t ∈ items, Tree P t) :
    Tree P (.object fields)

/-- Kinds that no token of the text itself has. -/
def isReserved (kind : String) : Bool := kind == "frontmatter" || kind == "link_reference"

/-- A token with a type of its own, and with raw text if it has any. -/
structure Plain (fields : Fields) : Prop where
  kind : ∃ name, fields.lookup "type" = some (.str name) ∧ isReserved name = false
  raw : ∀ v, ("raw", v) ∈ fields → ∃ s, v = .str s

/-- Kinds that a token only has once definitions have been taken out and references found. -/
def isForeign (kind : String) : Bool :=
  isReserved kind ||
    ["definition", "footnote_definition", "image_reference", "footnote_ref"].contains kind

theorem isReserved_of_isForeign {kind : String} (h : isForeign kind = false) :
    isReserved kind = false := (Bool.or_eq_false_iff.mp h).1

/-- A plain token of a kind that the text itself has, whose attributes are an object in which only
text tells about code. -/
structure Readable (fields : Fields) : Prop extends Plain fields where
  own : ∀ name, fields.lookup "type" = some (.str name) → isForeign name = false
  attrs : ∀ v, ("attrs", v) ∈ fields →
    ∃ attrs, v = .object attrs ∧ ∀ w, ("info", w) ∈ attrs → ∃ s, w = .str s

/-- A reader of Markdown: whatever the text, it makes trees of such tokens. -/
def IsReader (read : List Char → List Value) : Prop := ∀ text, ∀ t ∈ read text, Tree Readable t

variable {P : Fields → Prop} {fields : Fields} {token : Value} {tokens : List Value}

theorem Tree.mono {Q : Fields → Prop} (h : Tree P token) (hpq : ∀ fs, P fs → Q fs) :
    Tree Q token := by
  induction h with
  | object here list _ ih => exact .object (hpq _ here) list ih

section Fields

theorem field_gives (fields : Fields) (key : String) (default : Value) :
    Gives (fun v => (key, v) ∈ fields ∨ v = default) ((Value.object fields).field key default) := by
  rw [Value.field_object]
  cases h : fields.lookup key with
  | none => exact gives_ok (.inr rfl)
  | some v => exact gives_ok (.inl (mem_of_lookup h))

theorem raw_gives (h : ∀ v, ("raw", v) ∈ fields → ∃ s, v = .str s) :
    Gives (fun raw => ∃ s, raw = .str s) ((Value.object fields).field "raw" (.str "")) := by
  refine (field_gives fields "raw" _).mono ?_
  rintro v (hv | rfl)
  · exact h v hv
  · exact ⟨"", rfl⟩

theorem Plain.kind_gives (h : Plain fields) :
    Gives (fun kind => ∃ name, kind = .str name ∧ isReserved name = false)
      (Token.kind (.object fields)) := by
  obtain ⟨name, hname, hfree⟩ := h.kind
  rw [Token.kind, Value.field_object, hname]
  exact gives_ok ⟨name, rfl, hfree⟩

/-- The attributes of a token that reads well: an object, or nothing. -/
def AttrsReadable (v : Value) : Prop :=
  v = .null ∨ ∃ attrs, v = .object attrs ∧ ∀ w, ("info", w) ∈ attrs → ∃ s, w = .str s

theorem Readable.attrs_gives (h : Readable fields) :
    Gives AttrsReadable ((Value.object fields).field "attrs" .null) := by
  refine (field_gives fields "attrs" _).mono ?_
  rintro v (hv | rfl)
  · exact .inr (h.attrs v hv)
  · exact .inl rfl

theorem AttrsReadable.orElse {v : Value} (h : AttrsReadable v) :
    ∃ attrs, v.orElse (.object []) = .object attrs ∧
      ∀ w, ("info", w) ∈ attrs → ∃ s, w = .str s := by
  obtain rfl | ⟨attrs, rfl, hinfo⟩ := h
  · exact ⟨[], rfl, by simp⟩
  · cases attrs with
    | nil => exact ⟨[], rfl, by simp⟩
    | cons f rest => exact ⟨f :: rest, rfl, hinfo⟩

theorem AttrsReadable.copy_gives {v : Value} (h : AttrsReadable v) (ht : v.truthy = true) :
    Gives (fun _ => True) (copyAttrs v) := by
  obtain rfl | ⟨attrs, rfl, -⟩ := h
  · cases ht
  · exact gives_ok trivial

theorem Tree.children_gives (h : Tree P token) :
    Gives (fun items => ∀ t ∈ items, Tree P t) token.children := by
  cases h with
  | @object fields here list below =>
    rw [Value.children, Value.childrenAs]
    cases hc : fields.lookup "children" with
    | none => exact gives_ok (List.forall_mem_nil _)
    | some c =>
      have hmem := mem_of_lookup hc
      obtain ⟨items, rfl⟩ := list c hmem
      exact gives_ok (below items hmem)

theorem Tree.plain (h : Tree Readable token) : Tree Plain token := h.mono fun _ hr => hr.toPlain

theorem Tree.kind_gives (h : Tree Plain token) :
    Gives (fun kind => ∃ name, kind = .str name ∧ isReserved name = false)
      (Token.kind token) := by
  cases h with
  | object here list below => exact here.kind_gives

theorem Tree.typeField_gives (h : Tree Plain token) :
    Gives (fun kind => ∃ name, kind = .str name) (token.field "type" .null) := by
  cases h with
  | object here list below =>
    obtain ⟨name, hname, -⟩ := here.kind
    rw [Value.field_object, hname]
    exact gives_ok ⟨name, rfl⟩

theorem Tree.raw_gives (h : Tree Plain token) :
    Gives (fun raw => ∃ s, raw = .str s) (token.field "raw" (.str "")) := by
  cases h with
  | object here list below => exact raw_gives here.raw

theorem Tree.anyField_gives (h : Tree P token) (key : String) (default : Value) :
    Gives (fun _ => True) (token.field key default) := by
  cases h with
  | object here list below => exact (field_gives _ key default).mono fun _ _ => trivial

theorem Tree.attrs_gives (h : Tree Readable token) :
    Gives AttrsReadable (token.field "attrs" .null) := by
  cases h with
  | object here list below => exact here.attrs_gives

theorem Tree.childrenField_gives (h : Tree P token) :
    Gives (fun v => ∃ items, v = .list items ∧ ∀ t ∈ items, Tree P t)
      (token.field "children" (.list [])) := by
  cases h with
  | @object fields here list below =>
    refine (field_gives fields "children" _).mono ?_
    rintro v (hv | rfl)
    · obtain ⟨items, rfl⟩ := list v hv
      exact ⟨items, rfl, below items hv⟩
    · exact ⟨[], rfl, List.forall_mem_nil _⟩

theorem Tree.presentChildren_gives (h : Tree P token) :
    Gives (fun items => ∀ t ∈ items, Tree P t) (presentChildren token) := by
  have hchildren := h.children_gives
  cases h with
  | @object fields here list below =>
    rw [presentChildren]
    refine (field_gives fields "children" .null).bind fun c _ => ?_
    split
    · exact hchildren
    · exact gives_ok (List.forall_mem_nil _)

end Fields

section Fit

/-- A field that a token of a tree may have besides its type. -/
def FieldFits (P : Fields → Prop) (f : String × Value) : Prop :=
  (f.1 = "raw" → ∃ s, f.2 = .str s) ∧
    (f.1 = "children" → ∃ items, f.2 = .list items ∧ ∀ t ∈ items, Tree P t)

theorem fits_attrs (v : Value) : FieldFits P ("attrs", v) := ⟨by simp, by simp⟩

theorem fits_raw (s : String) : FieldFits P ("raw", .str s) := ⟨by simp, by simp⟩

theorem fits_children {items : List Value} (h : ∀ t ∈ items, Tree P t) :
    FieldFits P ("children", .list items) := ⟨by simp, fun _ => ⟨items, rfl, h⟩⟩

theorem fits_of_mem {name key : String} {rest : Fields} {v : Value}
    (h : ∀ f ∈ rest, FieldFits P f) (hne : key ≠ "type")
    (hm : (key, v) ∈ ("type", Value.str name) :: rest) : FieldFits P (key, v) := by
  obtain he | hm := List.mem_cons.mp hm
  · cases he
    exact absurd rfl hne
  · exact h _ hm

theorem plain_of_fits {name : String} {rest : Fields} (hn : isReserved name = false)
    (h : ∀ f ∈ rest, FieldFits P f) : Plain (("type", .str name) :: rest) :=
  ⟨⟨name, rfl, hn⟩, fun _ hv => (fits_of_mem h (by decide) hv).1 rfl⟩

theorem tree_of_fits {name : String} {rest : Fields} (here : P (("type", .str name) :: rest))
    (h : ∀ f ∈ rest, FieldFits P f) : Tree P (.object (("type", .str name) :: rest)) := by
  refine .object here (fun v hv => ?_) fun items hi => ?_
  · obtain ⟨items, he, -⟩ := (fits_of_mem h (by decide) hv).2 rfl
    exact ⟨items, he⟩
  · obtain ⟨items', he, hall⟩ := (fits_of_mem h (by decide) hi).2 rfl
    cases he
    exact hall

theorem tree_plain {name : String} {rest : Fields} (hn : isReserved name = false)
    (h : ∀ f ∈ rest, FieldFits Plain f) : Tree Plain (.object (("type", .str name) :: rest)) :=
  tree_of_fits (plain_of_fits hn h) h

theorem tree_text (s : String) : Tree Plain (text s) :=
  tree_plain rfl (List.forall_mem_singleton.mpr (fits_raw s))

theorem tree_branch {name : String} {children : List Value} (hn : isReserved name = false)
    (h : ∀ t ∈ children, Tree Plain t) : Tree Plain (branch name children) :=
  tree_plain hn (List.forall_mem_singleton.mpr (fits_children h))

end Fit

section Leaves

theorem attrsField_gives (h : Tree Readable token) :
    Gives (fun out => ∀ f ∈ out, FieldFits Plain f) (attrsField token) := by
  rw [attrsField]
  refine h.attrs_gives.bind fun attrs ha => ?_
  split
  next ht =>
    refine (ha.copy_gives ht).bind fun copy _ => gives_ok ?_
    exact List.forall_mem_singleton.mpr (fits_attrs _)
  next => exact gives_ok (List.forall_mem_nil _)

theorem rawField_gives (h : Tree Readable token) :
    Gives (fun out => ∀ f ∈ out, FieldFits Plain f) (rawField token) := by
  cases h with
  | @object fields here list below =>
    have hfield : (Value.object fields).field? "raw" = .ok (fields.lookup "raw") := rfl
    rw [rawField, hfield]
    cases hr : fields.lookup "raw" with
    | none => exact gives_ok (List.forall_mem_nil _)
    | some v =>
      obtain ⟨s, rfl⟩ := here.raw v (mem_of_lookup hr)
      exact gives_ok (List.forall_mem_singleton.mpr (fits_raw s))

theorem checkedAttrs_gives (h : Tree Readable token) :
    Gives AttrsReadable (checkedAttrs token) := by
  rw [checkedAttrs]
  refine h.attrs_gives.bind fun attrs ha => ?_
  split
  next ht => exact (ha.copy_gives ht).map fun _ _ => ha
  next => exact gives_ok ha

theorem codeBlock_gives (h : Tree Readable token) : Gives (Tree Plain) (codeBlock token) := by
  rw [codeBlock]
  refine (checkedAttrs_gives h).bind fun attrs ha => ?_
  refine h.plain.raw_gives.bind ?_
  rintro _ ⟨raw, rfl⟩
  obtain ⟨found, hfound, hinfo⟩ := ha.orElse
  rw [hfound]
  refine Gives.bind (Q := fun s => s = raw) (gives_ok rfl) fun _ _ => ?_
  refine (field_gives found "info" .null).bind fun info hi => ?_
  have htext : ∃ s, info.orElse (.str "") = .str s := by
    obtain hi | rfl := hi
    · obtain ⟨s, rfl⟩ := hinfo info hi
      rw [Value.orElse]
      split
      · exact ⟨s, rfl⟩
      · exact ⟨"", rfl⟩
    · exact ⟨"", rfl⟩
  obtain ⟨s, hs⟩ := htext
  rw [hs]
  refine gives_ok (tree_plain rfl (List.forall_mem_cons.mpr ⟨fits_attrs _, ?_⟩))
  exact List.forall_mem_singleton.mpr (fits_raw _)

theorem inlineMath_gives (h : Tree Readable token) : Gives (Tree Plain) (inlineMath token) := by
  rw [inlineMath]
  refine h.plain.raw_gives.bind ?_
  rintro _ ⟨raw, rfl⟩
  refine h.attrs_gives.bind fun attrs ha => ?_
  obtain ⟨found, hfound, -⟩ := ha.orElse
  rw [hfound]
  refine (field_gives found "span" .null).bind fun span _ => ?_
  have hformula (v : Value) : Tree Plain (.object
      [("type", .str "inline_math"), ("raw", .str raw), ("attrs", .object [("span", v)])]) :=
    tree_plain rfl (List.forall_mem_cons.mpr
      ⟨fits_raw raw, List.forall_mem_singleton.mpr (fits_attrs _)⟩)
  dsimp only
  split
  · exact gives_ok (hformula _)
  · exact gives_ok (hformula _)

end Leaves

section PlainText

theorem join_gives {parts : List Value} (h : ∀ v ∈ parts, ∃ s, v = .str s) :
    Gives (fun _ => True) (join parts) := by
  refine (gives_mapM (R := fun _ => True) fun v hv => ?_).map fun _ _ => trivial
  obtain ⟨s, rfl⟩ := h v hv
  exact gives_ok trivial

/-- A token with a type and raw text that are texts if it has any, and with a text of its own if it
is a reference without a label. -/
structure Spoken (definitions : Targets Definition) (fields : Fields) : Prop where
  kind : ∀ v, fields.lookup "type" = some v → ∃ name, v = .str name
  raw : ∀ v, ("raw", v) ∈ fields → ∃ s, v = .str s
  reference : fields.lookup "type" = some (.str "link_reference") →
    Gives (fun v => ∃ s, v = .str s) (referenceText definitions (.object fields))

theorem Plain.spoken (h : Plain fields) (definitions : Targets Definition) :
    Spoken definitions fields where
  kind v hv := by
    obtain ⟨name, hname, -⟩ := h.kind
    exact ⟨name, Option.some.inj (hv.symm.trans hname)⟩
  raw := h.raw
  reference hlink := by
    obtain ⟨name, hname, hfree⟩ := h.kind
    cases hname.symm.trans hlink
    cases hfree

/-- The type of a token with fields of this kind; a token without one has the empty type. -/
theorem Spoken.kind_gives {definitions : Targets Definition} (h : Spoken definitions fields) :
    Gives (fun kind => ∃ name, kind = .str name ∧
      (name = "link_reference" → fields.lookup "type" = some (.str "link_reference")))
      (Token.kind (.object fields)) := by
  rw [Token.kind, Value.field_object]
  cases ht : fields.lookup "type" with
  | none => exact gives_ok ⟨"", rfl, by simp⟩
  | some v =>
    obtain ⟨name, rfl⟩ := h.kind v ht
    exact gives_ok ⟨name, rfl, fun hname => by rw [hname]⟩

mutual

theorem plainParts_gives (definitions : Targets Definition) :
    (tokens : List Value) → (∀ t ∈ tokens, Tree (Spoken definitions) t) →
      Gives (fun parts => ∀ v ∈ parts, ∃ s, v = .str s) (plainParts definitions tokens)
  | [], _ => by
    rw [plainParts]
    exact gives_ok (List.forall_mem_nil _)
  | token :: rest, h => by
    obtain ⟨hhere, hmore⟩ := List.forall_mem_cons.mp h
    rw [plainParts]
    refine (plainPart_gives definitions token hhere).bind fun here hh => ?_
    refine (plainParts_gives definitions rest hmore).bind fun more hm => ?_
    exact gives_ok fun v hv => (List.mem_append.mp hv).elim (hh v) (hm v)
termination_by tokens => sizeOf tokens

theorem plainPart_gives (definitions : Targets Definition) (token : Value)
    (h : Tree (Spoken definitions) token) :
    Gives (fun parts => ∀ v ∈ parts, ∃ s, v = .str s) (plainPart definitions token) := by
  obtain ⟨children, hc, hall⟩ := h.children_gives
  obtain ⟨fields, rfl, hfields⟩ : ∃ fields, token = .object fields ∧ Spoken definitions fields := by
    cases h with
    | object here => exact ⟨_, rfl, here⟩
  have hparts (items : List Value) (hi : (Value.object fields).children = .ok items) :
      Gives (fun parts => ∀ v ∈ parts, ∃ s, v = .str s) (plainParts definitions items) := by
    cases hc.symm.trans hi
    have hsize := Value.sizeOf_children_lt hc
    exact plainParts_gives definitions children hall
  rw [plainPart]
  refine hfields.kind_gives.bind ?_
  rintro _ ⟨name, rfl, hlink⟩
  split
  · refine (raw_gives hfields.raw).bind fun raw hr => gives_ok ?_
    rintro v hv
    rw [List.mem_singleton.mp hv]
    exact hr
  split
  next hreference =>
    split
    next f hf => cases hc.symm.trans hf
    next items hi =>
      refine (hparts items hi).bind fun parts hp => ?_
      refine (join_gives hp).bind fun label _ => ?_
      split
      · refine (hfields.reference (hlink (by simpa [Value.isText] using hreference))).bind
          fun v hv => gives_ok ?_
        simpa using hv
      · exact gives_ok (by simp)
  split
  · exact gives_ok (by simp)
  split
  · exact gives_ok (by simp)
  split
  · exact gives_ok (by simp)
  split
  next f hf => cases hc.symm.trans hf
  next items hi =>
    refine (hparts items hi).bind fun parts hp => ?_
    refine (join_gives hp).bind fun text _ => gives_ok ?_
    simp
termination_by sizeOf token

end

theorem plainText_spoken_gives (definitions : Targets Definition)
    (h : ∀ t ∈ tokens, Tree (Spoken definitions) t) :
    Gives (fun _ => True) (plainText definitions (.list tokens)) :=
  (plainParts_gives definitions tokens h).bind fun _ hp => join_gives hp

theorem plainText_gives (definitions : Targets Definition)
    (h : ∀ t ∈ tokens, Tree Plain t) :
    Gives (fun _ => True) (plainText definitions (.list tokens)) :=
  plainText_spoken_gives definitions fun t ht => (h t ht).mono fun _ hp => hp.spoken definitions

end PlainText

section Names

theorem nameIn_mem {table : List (String × String)} {key : Option String} {name : String}
    (h : nameIn table key = some name) : ∃ kind, (kind, name) ∈ table := by
  obtain ⟨kind, -, hlookup⟩ := Option.bind_eq_some_iff.mp h
  exact ⟨kind, mem_of_lookup hlookup⟩

theorem blockName_free {key : Option String} {name : String}
    (h : nameIn blockNames key = some name) : isForeign name = false := by
  obtain ⟨kind, hm⟩ := nameIn_mem h
  have hall : ∀ entry ∈ blockNames, isForeign entry.2 = false := by decide
  exact hall _ hm

theorem inlineName_free {key : Option String} {name : String}
    (h : nameIn inlineNames key = some name) : isForeign name = false := by
  obtain ⟨kind, hm⟩ := nameIn_mem h
  have hall : ∀ entry ∈ inlineNames, isForeign entry.2 = false := by decide
  exact hall _ hm

end Names

section Normal

theorem headCells_gives (h : Tree Readable token) :
    Gives (fun cells => ∀ t ∈ cells, Tree Readable t) (headCells token) := by
  rw [headCells]
  refine h.childrenField_gives.bind ?_
  rintro _ ⟨items, rfl, hall⟩
  split
  next ht =>
    cases items with
    | nil => cases ht
    | cons first rest =>
      have hfirst := hall first List.mem_cons_self
      refine Gives.bind (Q := fun v => v = first) (gives_ok rfl) ?_
      rintro _ rfl
      refine (hfirst.anyField_gives "type" .null).bind fun kind _ => ?_
      split
      · exact hfirst.children_gives
      · exact h.children_gives
  next => exact h.children_gives

theorem cellAlign_gives (h : Tree Readable token) : Gives (fun _ => True) (cellAlign token) := by
  rw [cellAlign]
  refine h.attrs_gives.bind fun attrs ha => ?_
  obtain ⟨found, hfound, -⟩ := ha.orElse
  rw [hfound]
  exact (field_gives found "align" .null).mono fun _ _ => trivial

/-- The field for the children of a token, once they are in their form. -/
def ChildrenDone (out : Fields) : Prop :=
  out = [] ∨ ∃ items, out = [("children", .list items)] ∧ ∀ t ∈ items, Tree Plain t

theorem ChildrenDone.fits {out : Fields} (h : ChildrenDone out) : ∀ f ∈ out, FieldFits Plain f := by
  obtain rfl | ⟨items, rfl, hall⟩ := h
  · exact List.forall_mem_nil _
  · exact List.forall_mem_singleton.mpr (fits_children hall)

theorem ChildrenDone.plainText_gives {out : Fields} (h : ChildrenDone out)
    (definitions : Targets Definition) :
    Gives (fun _ => True)
      (plainText definitions ((out.lookup "children").getD (.list []))) := by
  obtain rfl | ⟨items, rfl, hall⟩ := h
  · exact Token.plainText_gives definitions (List.forall_mem_nil _)
  · exact Token.plainText_gives definitions hall

section Named

variable {name : String} {children : Except Failure Fields}

theorem blockToken_gives (hname : isReserved name = false) (h : Tree Readable token)
    (hchildren : Gives ChildrenDone children) :
    Gives (Tree Plain) (blockToken name token children) := by
  rw [blockToken]
  refine (attrsField_gives h).bind fun attrs ha => ?_
  extract_lets head
  split
  · refine h.plain.raw_gives.bind ?_
    rintro _ ⟨raw, rfl⟩
    refine gives_ok (tree_plain hname (List.forall_mem_append.mpr ⟨ha, ?_⟩))
    exact List.forall_mem_singleton.mpr (fits_raw raw)
  · split
    · exact gives_ok (tree_plain hname ha)
    · refine hchildren.bind fun out ho => gives_ok (tree_plain hname ?_)
      exact List.forall_mem_append.mpr ⟨ha, ho.fits⟩

theorem inlineToken_gives (hname : isReserved name = false) (h : Tree Readable token)
    (hchildren : Gives ChildrenDone children) :
    Gives (Tree Plain) (inlineToken name token children) := by
  rw [inlineToken]
  split
  · exact (rawField_gives h).bind fun raw hr => gives_ok (tree_plain hname hr)
  · refine (attrsField_gives h).bind fun attrs ha => hchildren.bind fun out ho => ?_
    split
    · refine (ho.plainText_gives []).bind fun alt _ => ?_
      extract_lets shown
      split
      · refine gives_ok (tree_plain hname (List.forall_mem_append.mpr ⟨ho.fits, ?_⟩))
        exact List.forall_mem_singleton.mpr (fits_attrs _)
      · exact gives_ok (tree_plain hname (List.forall_mem_cons.mpr ⟨fits_attrs _, ho.fits⟩))
    · exact gives_ok (tree_plain hname (List.forall_mem_append.mpr ⟨ha, ho.fits⟩))

end Named

mutual

theorem normalizeAll_gives :
    (tokens : List Value) → (∀ t ∈ tokens, Tree Readable t) →
      Gives (fun out => ∀ t ∈ out, Tree Plain t) (normalizeAll tokens)
  | [], _ => by
    rw [normalizeAll]
    exact gives_ok (List.forall_mem_nil _)
  | token :: rest, h => by
    obtain ⟨hhere, hmore⟩ := List.forall_mem_cons.mp h
    rw [normalizeAll]
    refine (normalize_gives token hhere).bind fun here hh => ?_
    refine (normalizeAll_gives rest hmore).bind fun more hm => ?_
    exact gives_ok (List.forall_mem_append.mpr ⟨hh, hm⟩)
termination_by tokens => sizeOf tokens

theorem normalize_gives (token : Value) (h : Tree Readable token) :
    Gives (fun out => ∀ t ∈ out, Tree Plain t) (normalize token) := by
  have hone {x : Except Failure Value} (hx : Gives (Tree Plain) x) :
      Gives (fun out : List Value => ∀ t ∈ out, Tree Plain t) (do return [← x]) :=
    hx.bind fun t ht => gives_ok (List.forall_mem_singleton.mpr ht)
  obtain ⟨below, hb, hbelow⟩ := h.presentChildren_gives
  obtain ⟨parts, hp, hparts⟩ := h.children_gives
  have hsize := Value.sizeOf_children_lt hp
  have hsize' := sizeOf_presentChildren_lt hb
  rw [normalize]
  refine h.plain.kind_gives.bind ?_
  rintro _ ⟨name, rfl, hfree⟩
  extract_lets children
  have hchildren : Gives ChildrenDone children := by
    subst children
    split
    next f hf => cases hb.symm.trans hf
    next items hi =>
      cases hb.symm.trans hi
      refine (normalizeAll_gives below hbelow).bind fun done hd => ?_
      refine (h.anyField_gives "children" .null).bind fun c _ => ?_
      split
      · exact gives_ok (.inr ⟨done, rfl, hd⟩)
      · exact gives_ok (.inl rfl)
  clear_value children
  rw [kindKey_str]
  refine Gives.bind (Q := fun k => k = some name) (gives_ok rfl) ?_
  rintro _ rfl
  split
  · exact gives_ok (List.forall_mem_nil _)
  · split
    next f hf => cases hp.symm.trans hf
    next parts' hp' =>
      cases hp.symm.trans hp'
      refine (tableParts_gives [] [] (List.forall_mem_nil _) parts hparts).bind fun table ht => ?_
      refine hone (gives_ok (tree_plain rfl (List.forall_mem_cons.mpr ⟨fits_attrs _, ?_⟩)))
      exact List.forall_mem_singleton.mpr (fits_children ht)
  · exact hone (codeBlock_gives h)
  · exact hone (inlineMath_gives h)
  · split
    next name' hblock =>
      have hfree := isReserved_of_isForeign (blockName_free hblock)
      exact hone (blockToken_gives hfree h hchildren)
    next name' _ hinline =>
      have hfree := isReserved_of_isForeign (inlineName_free hinline)
      exact hone (inlineToken_gives hfree h hchildren)
    next =>
      refine (rawField_gives h).bind fun raw hr => ?_
      refine hchildren.bind fun out ho => hone (gives_ok (tree_plain hfree ?_))
      exact List.forall_mem_append.mpr ⟨hr, ho.fits⟩
termination_by sizeOf token

theorem tableParts_gives (align rows : List Value) (hrows : ∀ t ∈ rows, Tree Plain t) :
    (parts : List Value) → (∀ t ∈ parts, Tree Readable t) →
      Gives (fun out => ∀ t ∈ out.2, Tree Plain t) (tableParts align rows parts)
  | [], _ => by
    rw [tableParts]
    exact gives_ok hrows
  | part :: rest, h => by
    obtain ⟨hhere, hmore⟩ := List.forall_mem_cons.mp h
    rw [tableParts]
    refine (hhere.anyField_gives "type" .null).bind fun kind _ => ?_
    split
    · obtain ⟨cells, hc, hcells⟩ := headCells_gives hhere
      have hsize := sizeOf_headCells_lt hc
      split
      next f hf => cases hc.symm.trans hf
      next cells' hc' =>
        cases hc.symm.trans hc'
        refine (gives_mapM fun t ht => cellAlign_gives (hcells t ht)).bind fun align' _ => ?_
        refine (tableRow_gives cells hcells).bind fun row hrow => ?_
        refine tableParts_gives align' _ (List.forall_mem_append.mpr ⟨hrows, ?_⟩) rest hmore
        exact List.forall_mem_singleton.mpr (tree_branch rfl hrow)
    · split
      · obtain ⟨body, hb, hbody⟩ := hhere.children_gives
        have hsize := Value.sizeOf_children_lt hb
        split
        next f hf => cases hb.symm.trans hf
        next body' hb' =>
          cases hb.symm.trans hb'
          refine (tableRows_gives body hbody).bind fun more hm => ?_
          exact tableParts_gives align _ (List.forall_mem_append.mpr ⟨hrows, hm⟩) rest hmore
      · exact tableParts_gives align rows hrows rest hmore
termination_by parts => sizeOf parts

theorem tableRows_gives :
    (rows : List Value) → (∀ t ∈ rows, Tree Readable t) →
      Gives (fun out => ∀ t ∈ out, Tree Plain t) (tableRows rows)
  | [], _ => by
    rw [tableRows]
    exact gives_ok (List.forall_mem_nil _)
  | row :: rest, h => by
    obtain ⟨hhere, hmore⟩ := List.forall_mem_cons.mp h
    obtain ⟨cells, hc, hcells⟩ := hhere.children_gives
    have hsize := Value.sizeOf_children_lt hc
    rw [tableRows]
    split
    next f hf => cases hc.symm.trans hf
    next cells' hc' =>
      cases hc.symm.trans hc'
      refine (tableRow_gives cells hcells).bind fun here hh => ?_
      refine (tableRows_gives rest hmore).bind fun more hm => ?_
      exact gives_ok (List.forall_mem_cons.mpr ⟨tree_branch rfl hh, hm⟩)
termination_by rows => sizeOf rows

theorem tableRow_gives :
    (cells : List Value) → (∀ t ∈ cells, Tree Readable t) →
      Gives (fun out => ∀ t ∈ out, Tree Plain t) (tableRow cells)
  | [], _ => by
    rw [tableRow]
    exact gives_ok (List.forall_mem_nil _)
  | cell :: rest, h => by
    obtain ⟨hhere, hmore⟩ := List.forall_mem_cons.mp h
    obtain ⟨children, hc, hchildren⟩ := hhere.children_gives
    have hsize := Value.sizeOf_children_lt hc
    rw [tableRow]
    split
    next f hf => cases hc.symm.trans hf
    next children' hc' =>
      cases hc.symm.trans hc'
      refine (normalizeAll_gives children hchildren).bind fun here hh => ?_
      refine (tableRow_gives rest hmore).bind fun more hm => ?_
      exact gives_ok (List.forall_mem_cons.mpr ⟨tree_branch rfl hh, hm⟩)
termination_by cells => sizeOf cells

end

end Normal

section Resolve

/-- A plain token, whatever stands below it. -/
def Flat (token : Value) : Prop := ∃ fields, token = .object fields ∧ Plain fields

theorem Tree.flat (h : Tree Plain token) : Flat token := by
  cases h with
  | @object fields here list below => exact ⟨fields, rfl, here⟩

theorem Flat.runText_gives (h : Flat token) : Gives (fun _ => True) (runText token) := by
  obtain ⟨fields, rfl, hplain⟩ := h
  rw [runText]
  refine (raw_gives hplain.raw).bind ?_
  rintro _ ⟨s, rfl⟩
  exact gives_ok trivial

theorem flat_text (s : String) : Flat (text s) := by
  have hfits : ∀ f ∈ [("raw", Value.str s)], FieldFits Plain f :=
    List.forall_mem_singleton.mpr (fits_raw s)
  exact ⟨_, rfl, plain_of_fits rfl hfits⟩

theorem joinOnto_gives (h : Flat token) (hall : ∀ t ∈ tokens, Flat t) :
    Gives (fun out => ∀ t ∈ out, Flat t) (joinOnto token tokens) := by
  have hkept : ∀ t ∈ token :: tokens, Flat t := List.forall_mem_cons.mpr ⟨h, hall⟩
  unfold joinOnto
  split
  · cases tokens with
    | nil => exact gives_ok hkept
    | cons next more =>
      obtain ⟨hnext, hmore⟩ := List.forall_mem_cons.mp hall
      dsimp only
      split
      · refine h.runText_gives.bind fun s _ => hnext.runText_gives.bind fun t _ => ?_
        exact gives_ok (List.forall_mem_cons.mpr ⟨flat_text _, hmore⟩)
      · exact gives_ok hkept
  · exact gives_ok hkept

theorem mergeText_gives (h : ∀ t ∈ tokens, Flat t) :
    Gives (fun out => ∀ t ∈ out, Flat t) (mergeText tokens) := by
  induction tokens with
  | nil => exact gives_ok (List.forall_mem_nil _)
  | cons token rest ih =>
    obtain ⟨hhere, hmore⟩ := List.forall_mem_cons.mp h
    have hstep : mergeText (token :: rest) = mergeText rest >>= joinOnto token := by
      obtain ⟨fields, rfl, -⟩ := hhere
      rfl
    rw [hstep]
    exact (ih hmore).bind fun merged hm => joinOnto_gives hhere hm

theorem splitRuns_gives (known : List String) (h : ∀ t ∈ tokens, Flat t) :
    Gives (fun _ => True) (splitRuns known tokens) := by
  rw [splitRuns]
  refine (mergeText_gives h).bind fun merged hm => ?_
  refine (gives_mapM (R := fun _ => True) fun t ht => ?_).bind fun parts _ => gives_ok trivial
  rw [splitRun]
  split
  · exact (hm t ht).runText_gives.map fun _ _ => trivial
  · exact gives_ok trivial

theorem Flat.withChildren (h : Flat token) (children : List Value) :
    Flat (withChildren children token) := by
  obtain ⟨fields, rfl, ⟨name, hname, hfree⟩, hraw⟩ := h
  refine ⟨_, rfl, ⟨name, ?_, hfree⟩, fun v hv => hraw v (Value.mem_of_mem_setField (by decide) hv)⟩
  rw [Value.lookup_setField_of_ne (by decide), hname]

mutual

theorem resolveEach_gives (known : List String) :
    (tokens : List Value) → (∀ t ∈ tokens, Tree Plain t) →
      Gives (fun out => ∀ t ∈ out, Flat t) (resolveEach known tokens)
  | [], _ => by
    rw [resolveEach]
    exact gives_ok (List.forall_mem_nil _)
  | token :: rest, h => by
    obtain ⟨hhere, hmore⟩ := List.forall_mem_cons.mp h
    have hafter (here : Value) (hh : Flat here) :
        Gives (fun out => ∀ t ∈ out, Flat t)
          (do .ok (here :: (← resolveEach known rest))) :=
      (resolveEach_gives known rest hmore).bind fun more hm =>
        gives_ok (List.forall_mem_cons.mpr ⟨hh, hm⟩)
    rw [resolveEach]
    split
    · exact hafter token hhere.flat
    · exact (resolve_gives known token hhere).bind hafter
termination_by tokens => sizeOf tokens

theorem resolve_gives (known : List String) (token : Value) (h : Tree Plain token) :
    Gives Flat (resolve known token) := by
  obtain ⟨children, hc, hall⟩ := h.presentChildren_gives
  have hsize := sizeOf_presentChildren_lt hc
  rw [resolve]
  refine h.typeField_gives.bind ?_
  rintro _ ⟨name, rfl⟩
  rw [kindKey_str]
  refine Gives.bind (Q := fun k => k = some name) (gives_ok rfl) ?_
  rintro _ rfl
  extract_lets below
  dsimp only
  split
  · exact gives_ok h.flat
  · subst below
    dsimp only
    split
    next f hf => cases hc.symm.trans hf
    next items hi =>
      cases hc.symm.trans hi
      refine (h.anyField_gives "children" .null).bind fun c _ => ?_
      split
      · refine (resolveEach_gives known children hall).bind fun done hd => ?_
        exact (splitRuns_gives known hd).bind fun items _ => gives_ok (h.flat.withChildren items)
      · exact gives_ok h.flat
termination_by sizeOf token

end

/-- Token trees as a reader builds them always come into their form. -/
theorem canonical_gives (known : List String) (h : ∀ t ∈ tokens, Tree Readable t) :
    Gives (fun out => ∀ t ∈ out, Flat t) (canonical known tokens) :=
  (normalizeAll_gives tokens h).bind fun _ hd =>
    gives_mapM fun t ht => resolve_gives known t (hd t ht)

end Resolve

end Token

end Typeset
