import Typeset.Proofs.Token.Normal

/-! Token trees of the kinds that a document is made of, tables among them, and what a single token
of such a tree comes to: nothing, a table of rows, or one token under its rendered name. -/

namespace Typeset.Token

open Failure

variable {P : Fields → Prop} {fields head below : Fields} {token out : Value}
  {outs done items : List Value} {name kind : String}

/-- The tokens that are listed below a token. -/
def listed (token : Value) : List Value :=
  match token with
  | .object fields =>
    match fields.lookup "children" with
    | some (.list items) => items
    | _ => []
  | _ => []

/-- The name of a token's kind. -/
def nameOf (token : Value) : Option String :=
  match token with
  | .object fields => (fields.lookup "type").bind Value.str?
  | _ => none

/-- The raw text of a token, which is empty if it has none. -/
def rawOf (token : Value) : String :=
  match token with
  | .object fields => ((fields.lookup "raw").bind Value.str?).getD ""
  | _ => ""

/-- The name under which a kind is rendered. -/
def renamed (kind : String) : String :=
  ((nameIn blockNames (some kind)).or (nameIn inlineNames (some kind))).getD kind

/-- The raw text of a token under its rendered name: code loses its last line end. -/
def settled (name raw : String) : String :=
  if name = "block_code" then String.ofList (dropLastNewline raw.toList) else raw

/-- Kinds of tokens with text of their own. -/
def leafKinds : List String :=
  ["text", "codespan", "inline_html", "inline_math", "block_code", "block_math", "block_html"]

/-- Kinds of tokens with neither text nor tokens below. -/
def emptyKinds : List String := ["thematic_break", "softbreak", "linebreak", "blank_line"]

/-- The kinds of a table and of the parts that hold its cells. -/
def tableKinds : List String := ["table", "table_head", "table_body", "table_row"]

/-- The kinds of the tokens of a document. -/
def documentKinds : List String :=
  blockNames.map Prod.fst ++ inlineNames.map Prod.fst ++ tableKinds ++ ["table_cell", "blank_line"]

/-- Tokens of some kinds, with blank lines between them. -/
def Mixed (kinds : List String) (tokens : List Value) : Prop :=
  ∀ t ∈ tokens, ∃ kind, nameOf t = some kind ∧ kind ∈ "blank_line" :: kinds

/-- The parts of a table: a head, and bodies. -/
def TableParts (parts : List Value) : Prop :=
  ∃ before head after, parts = before ++ head :: after ∧ Mixed [] before ∧
    nameOf head = some "table_head" ∧ Mixed ["table_body"] after

/-- The tokens of a table head: cells, or one row of cells. -/
def HeadParts (parts : List Value) : Prop :=
  Mixed ["table_cell"] parts ∨
    ∃ before row after, parts = before ++ row :: after ∧ Mixed [] before ∧
      nameOf row = some "table_row" ∧ Mixed [] after

/-- What a token of some kind has below it. -/
structure Shaped (kind : String) (items : List Value) : Prop where
  bare : kind ∈ leafKinds ++ emptyKinds → items = []
  table : kind = "table" → TableParts items
  head : kind = "table_head" → HeadParts items
  body : kind = "table_body" → Mixed ["table_row"] items
  row : kind = "table_row" → Mixed ["table_cell"] items

/-- A token of a document: readable, of a known kind, and with what its kind has below it. -/
structure Built (fields : Fields) : Prop extends Readable fields where
  known : ∀ kind, nameOf (.object fields) = some kind → kind ∈ documentKinds
  shaped : ∀ kind, nameOf (.object fields) = some kind → Shaped kind (listed (.object fields))

section Read

@[simp] theorem nameOf_branch (kind : String) (tokens : List Value) :
    nameOf (branch kind tokens) = some kind := rfl

theorem Tree.readable (h : Tree Built token) : Tree Readable token :=
  h.mono fun _ hb => hb.toReadable

theorem Tree.built (h : Tree Built token) : ∃ fields, token = .object fields ∧ Built fields := by
  cases h with
  | object here => exact ⟨_, rfl, here⟩

theorem Tree.known (h : Tree Built token) (hname : nameOf token = some kind) :
    kind ∈ documentKinds := by
  obtain ⟨fields, rfl, hbuilt⟩ := h.built
  exact hbuilt.known kind hname

theorem Tree.shaped (h : Tree Built token) (hname : nameOf token = some kind) :
    Shaped kind (Token.listed token) := by
  obtain ⟨fields, rfl, hbuilt⟩ := h.built
  exact hbuilt.shaped kind hname

theorem Tree.bare (h : Tree Built token) (hname : nameOf token = some kind)
    (hkind : kind ∈ leafKinds ++ emptyKinds) : Token.listed token = [] :=
  (h.shaped hname).bare hkind

/-- The children of a token are listed, if it has any. -/
theorem Tree.lookup_children (h : Tree P (.object fields)) :
    (fields.lookup "children" = none ∧ Token.listed (.object fields) = []) ∨
      fields.lookup "children" = some (.list (Token.listed (.object fields))) ∧
        ∀ t ∈ Token.listed (.object fields), Tree P t := by
  cases h with
  | object here list below =>
    rw [Token.listed]
    cases hc : fields.lookup "children" with
    | none => exact .inl ⟨rfl, rfl⟩
    | some v =>
      have hmem := mem_of_lookup hc
      obtain ⟨items, rfl⟩ := list v hmem
      exact .inr ⟨rfl, below items hmem⟩

theorem Tree.exists_fields (h : Tree P token) : ∃ fields, token = .object fields := by
  cases h
  exact ⟨_, rfl⟩

theorem Tree.listed (h : Tree P token) : ∀ t ∈ listed token, Tree P t := by
  obtain ⟨fields, rfl⟩ := h.exists_fields
  rcases h.lookup_children with ⟨-, hnil⟩ | ⟨-, hall⟩
  · rw [hnil]
    exact List.forall_mem_nil _
  · exact hall

theorem Tree.children_eq (h : Tree P token) : token.children = .ok (Token.listed token) := by
  obtain ⟨fields, rfl⟩ := h.exists_fields
  rw [Value.children, Value.childrenAs]
  rcases h.lookup_children with ⟨hnone, hnil⟩ | ⟨hsome, -⟩
  · rw [hnone, hnil]
  · rw [hsome]
    rfl

theorem nameOf_of_kind (hk : Token.kind token = .ok (.str name)) (hne : name ≠ "") :
    nameOf token = some name := by
  cases token with
  | object fields =>
    rw [Token.kind, Value.field_object] at hk
    have hname := Except.ok.inj hk
    rw [nameOf]
    cases ht : fields.lookup "type" with
    | none =>
      rw [ht] at hname
      cases hname
      exact absurd rfl hne
    | some v =>
      rw [ht] at hname
      cases hname
      rfl
  | _ => cases hk

theorem listed_of_children (h : token.children = .ok items) : listed token = items := by
  cases token with
  | object fields =>
    rw [Value.children, Value.childrenAs] at h
    rw [listed]
    cases hc : fields.lookup "children" with
    | none =>
      rw [hc] at h
      cases h
      rfl
    | some v =>
      rw [hc] at h
      cases v with
      | list below =>
        cases h
        rfl
      | str s =>
        simp only [Value.tokens] at h
        split at h <;> cases h
        rfl
      | object fs =>
        simp only [Value.tokens] at h
        split at h <;> cases h
        rfl
      | _ => cases h
  | _ => cases h

theorem type_of_name (hname : nameOf token = some name) :
    token.field "type" .null = .ok (.str name) := by
  cases token with
  | object fields =>
    obtain ⟨v, hv, hs⟩ := Option.bind_eq_some_iff.mp hname
    rw [Value.field_object, hv]
    cases v <;> cases hs
    rfl
  | _ => cases hname

theorem Tree.childrenField_eq (h : Tree P token) :
    token.field "children" (.list []) = .ok (.list (Token.listed token)) := by
  obtain ⟨fields, rfl⟩ := h.exists_fields
  rw [Value.field_object]
  rcases h.lookup_children with ⟨hnone, hnil⟩ | ⟨hsome, -⟩
  · rw [hnone, hnil]
    rfl
  · rw [hsome]
    rfl

theorem Tree.presentChildren_eq (h : Tree P token) :
    presentChildren token = .ok (Token.listed token) := by
  have hchildren := h.children_eq
  obtain ⟨fields, rfl⟩ := h.exists_fields
  rw [presentChildren, Value.field_object, hchildren]
  rcases h.lookup_children with ⟨hnone, hnil⟩ | ⟨hsome, -⟩
  · rw [hnone, hnil]
    rfl
  · rw [hsome]
    cases Token.listed (.object fields) <;> rfl

theorem Tree.kind_eq (h : Tree Plain token) :
    ∃ kind, nameOf token = some kind ∧ Token.kind token = .ok (.str kind) ∧
      token.field "type" .null = .ok (.str kind) := by
  cases h with
  | object here =>
    obtain ⟨kind, hkind, -⟩ := here.kind
    refine ⟨kind, ?_, ?_, ?_⟩
    · rw [nameOf, hkind]
      rfl
    · rw [Token.kind, Value.field_object, hkind]
      rfl
    · rw [Value.field_object, hkind]
      rfl

theorem field_raw {fields : Fields} (h : ∀ v, ("raw", v) ∈ fields → ∃ s, v = .str s) :
    (Value.object fields).field "raw" (.str "") = .ok (.str (rawOf (.object fields))) := by
  rw [Value.field_object, rawOf]
  cases hr : fields.lookup "raw" with
  | none => rfl
  | some v =>
    obtain ⟨s, rfl⟩ := h v (mem_of_lookup hr)
    rfl

theorem Tree.raw_eq (h : Tree Plain token) :
    token.field "raw" (.str "") = .ok (.str (rawOf token)) := by
  cases h with
  | object here => exact field_raw here.raw

end Read

section Build

variable {tokens : List Value}

theorem tree_built {rest : Fields} (hkind : kind ∈ documentKinds)
    (hshaped : Shaped kind (listed (.object (("type", .str kind) :: rest))))
    (hrest : ∀ f ∈ rest, FieldFits Built f ∧ f.1 ≠ "attrs") :
    Tree Built (.object (("type", .str kind) :: rest)) := by
  have hfree : ∀ kind ∈ documentKinds, isForeign kind = false := by decide
  have hfits : ∀ f ∈ rest, FieldFits Built f := fun f hf => (hrest f hf).1
  refine tree_of_fits ⟨⟨plain_of_fits ?_ hfits, ?_, ?_⟩, ?_, ?_⟩ hfits
  · exact isReserved_of_isForeign (hfree kind hkind)
  · rintro name ⟨⟩
    exact hfree kind hkind
  · intro v hv
    rcases List.mem_cons.mp hv with hv | hv
    · exact absurd (Prod.mk.inj hv).1 (by decide)
    · exact absurd rfl (hrest _ hv).2
  · rintro name ⟨⟩
    exact hkind
  · rintro name ⟨⟩
    exact hshaped

theorem built_branch (hkind : kind ∈ documentKinds) (hshaped : Shaped kind tokens)
    (h : ∀ t ∈ tokens, Tree Built t) : Tree Built (branch kind tokens) :=
  tree_built hkind hshaped (List.forall_mem_singleton.mpr ⟨fits_children h, by simp⟩)

theorem shaped_of_not_part (hpart : kind ∉ tableKinds)
    (hbare : kind ∈ leafKinds ++ emptyKinds → tokens = []) : Shaped kind tokens where
  bare := hbare
  table h := absurd (by rw [h]; decide) hpart
  head h := absurd (by rw [h]; decide) hpart
  body h := absurd (by rw [h]; decide) hpart
  row h := absurd (by rw [h]; decide) hpart

theorem built_leaf (hkind : kind ∈ leafKinds) (raw : String) : Tree Built (leaf kind raw) := by
  have hkinds : ∀ kind ∈ leafKinds, kind ∈ documentKinds ∧ kind ∉ tableKinds := by decide
  obtain ⟨hknown, hpart⟩ := hkinds kind hkind
  exact tree_built hknown (shaped_of_not_part hpart fun _ => rfl)
    (List.forall_mem_singleton.mpr ⟨fits_raw raw, by simp⟩)

theorem built_empty (hkind : kind ∈ emptyKinds) : Tree Built (branch kind []) := by
  have hkinds : ∀ kind ∈ emptyKinds, kind ∈ documentKinds ∧ kind ∉ tableKinds := by decide
  obtain ⟨hknown, hpart⟩ := hkinds kind hkind
  exact built_branch hknown (shaped_of_not_part hpart fun _ => rfl) (List.forall_mem_nil _)

theorem built_other (hkind : kind ∈ documentKinds ∧ kind ∉ leafKinds ++ emptyKinds ++ tableKinds)
    (h : ∀ t ∈ tokens, Tree Built t) : Tree Built (branch kind tokens) := by
  obtain ⟨hknown, hnone⟩ := hkind
  rw [List.mem_append, not_or] at hnone
  exact built_branch hknown (shaped_of_not_part hnone.2 fun hbare => absurd hbare hnone.1) h

theorem built_table (hparts : TableParts tokens) (h : ∀ t ∈ tokens, Tree Built t) :
    Tree Built (branch "table" tokens) :=
  built_branch (by decide) (by constructor <;> simp [leafKinds, emptyKinds, hparts]) h

theorem built_head (hparts : HeadParts tokens) (h : ∀ t ∈ tokens, Tree Built t) :
    Tree Built (branch "table_head" tokens) :=
  built_branch (by decide) (by constructor <;> simp [leafKinds, emptyKinds, hparts]) h

theorem built_body (hrows : Mixed ["table_row"] tokens) (h : ∀ t ∈ tokens, Tree Built t) :
    Tree Built (branch "table_body" tokens) :=
  built_branch (by decide) (by constructor <;> simp [leafKinds, emptyKinds, hrows]) h

theorem built_row (hcells : Mixed ["table_cell"] tokens) (h : ∀ t ∈ tokens, Tree Built t) :
    Tree Built (branch "table_row" tokens) :=
  built_branch (by decide) (by constructor <;> simp [leafKinds, emptyKinds, hcells]) h

end Build

section Step

/-- A token under its rendered name, with its own text, and with what the tokens below it come
to. -/
structure Shown (token : Value) (name : String) (out : Value) : Prop where
  called : nameOf out = some name
  raw : name ∈ leafKinds.map renamed → rawOf out = settled name (rawOf token)
  below : normalizeAll (listed token) = .ok (listed out)

/-- What a token of a document comes to. -/
inductive Step (token : Value) : List Value → Prop
  | blank (hname : nameOf token = some "blank_line") : Step token []
  | table {align rows : List Value} (hname : nameOf token = some "table")
    (hparts : tableParts [] [] (listed token) = .ok (align, rows)) :
    Step token [markedBranch "table" [("align", .list align)] rows]
  | shown {kind : String} {out : Value} (hname : nameOf token = some kind) (hkind : kind ≠ "table")
    (hshown : Shown token (renamed kind) out) : Step token [out]

/-- The field for what stands below a token. -/
inductive Below (token : Value) : Fields → Prop
  | none (h : listed token = []) : Below token []
  | some {done : List Value} (h : normalizeAll (listed token) = .ok done) :
    Below token [("children", .list done)]

/-- The field for the attributes, if there are any. -/
def OnlyAttrs (fields : Fields) : Prop := fields = [] ∨ ∃ attrs, fields = [("attrs", attrs)]

theorem attrsField_onlyAttrs (h : attrsField token = .ok head) : OnlyAttrs head := by
  obtain ⟨attrs, -, h⟩ := exists_of_bind h
  split at h
  · obtain ⟨copy, -, h⟩ := exists_of_bind h
    cases h
    exact .inr ⟨_, rfl⟩
  · cases h
    exact .inl rfl

theorem normalizeAll_bare (h : listed token = []) : normalizeAll (listed token) = .ok [] := by
  rw [h, normalizeAll]

theorem listed_of_below {front : Fields} (hfront : front.lookup "children" = none)
    (hbelow : Below token below) :
    normalizeAll (listed token) = .ok (listed (.object (front ++ below))) := by
  rw [listed.eq_1 (front ++ below), List.lookup_append, hfront, Option.none_or]
  cases hbelow with
  | none hnone => exact normalizeAll_bare hnone
  | some hdone => exact hdone

/-- A token with attributes and with what stands below it, in whatever order, and without text. -/
theorem shown_of_below {before after : Fields} (hleaf : name ∉ leafKinds.map renamed)
    (hbefore : OnlyAttrs before) (hbelow : Below token below) (hafter : OnlyAttrs after) :
    Shown token name (.object (("type", .str name) :: (before ++ below ++ after))) := by
  have hraw (out : Value) : name ∈ leafKinds.map renamed →
      rawOf out = settled name (rawOf token) := fun hn => absurd hn hleaf
  rcases hbefore with rfl | ⟨v, rfl⟩ <;> rcases hafter with rfl | ⟨w, rfl⟩ <;>
    cases hbelow with
    | none hnone => exact ⟨rfl, hraw _, normalizeAll_bare hnone⟩
    | some hdone => exact ⟨rfl, hraw _, hdone⟩

theorem codeBlock_shown (h : Tree Plain token) (hbare : listed token = [])
    (hout : codeBlock token = .ok out) : Shown token "block_code" out := by
  obtain ⟨attrs, -, hout⟩ := exists_of_bind hout
  obtain ⟨raw, hraw, hout⟩ := exists_of_bind hout
  obtain ⟨source, hsource, hout⟩ := exists_of_bind hout
  obtain ⟨info, -, hout⟩ := exists_of_bind hout
  obtain ⟨line, -, hout⟩ := exists_of_bind hout
  cases hout
  cases h.raw_eq.symm.trans hraw
  cases hsource
  exact ⟨rfl, fun _ => rfl, normalizeAll_bare hbare⟩

theorem inlineMath_shown (h : Tree Plain token) (hbare : listed token = [])
    (hout : inlineMath token = .ok out) : Shown token "inline_math" out := by
  obtain ⟨raw, hraw, hout⟩ := exists_of_bind hout
  cases h.raw_eq.symm.trans hraw
  obtain ⟨attrs, -, hout⟩ := exists_of_bind hout
  obtain ⟨span, -, hout⟩ := exists_of_bind hout
  have hspan (v : Value) : Shown token "inline_math" (.object
      [("type", .str "inline_math"), ("raw", .str (rawOf token)),
        ("attrs", .object [("span", v)])]) :=
    ⟨rfl, fun _ => rfl, normalizeAll_bare hbare⟩
  dsimp only at hout
  split at hout
  · obtain ⟨count, -, hout⟩ := exists_of_bind hout
    cases hout
    exact hspan _
  · cases hout
    exact hspan _

theorem blockToken_shown (h : Tree Plain token) (hname : name ∈ blockNames.map Prod.snd)
    (hcode : name ≠ "block_code")
    (hbare : name ∈ ["block_math", "html_block", "thematic_break"] → listed token = [])
    {children : Except Failure Fields}
    (hchildren : ∀ below, children = .ok below → Below token below)
    (hout : blockToken name token children = .ok out) : Shown token name out := by
  have hleaves : ∀ name ∈ blockNames.map Prod.snd, name ∈ leafKinds.map renamed →
      name = "block_code" ∨ name = "block_math" ∨ name = "html_block" := by decide
  obtain ⟨attrs, hattrs, hout⟩ := exists_of_bind hout
  have hattrs := attrsField_onlyAttrs hattrs
  split at hout
  next hmath =>
    obtain ⟨raw, hraw, hout⟩ := exists_of_bind hout
    cases h.raw_eq.symm.trans hraw
    cases hout
    have hnone : listed token = [] := hbare (by
      rcases by simpa using hmath with rfl | rfl <;> decide)
    rcases hattrs with rfl | ⟨v, rfl⟩
    · exact ⟨rfl, fun _ => (if_neg hcode).symm, normalizeAll_bare hnone⟩
    · exact ⟨rfl, fun _ => (if_neg hcode).symm, normalizeAll_bare hnone⟩
  next hother =>
    have hleaf : name ∉ leafKinds.map renamed := by
      intro hn
      rcases hleaves name hname hn with h | h | h
      · exact hcode h
      · exact hother (by simp [h])
      · exact hother (by simp [h])
    split at hout
    next hbreak =>
      cases hout
      have hnone : listed token = [] := hbare (by simp [hbreak])
      have hshown := shown_of_below hleaf hattrs (.none hnone) (.inl rfl)
      rwa [List.append_nil, List.append_nil] at hshown
    next =>
      obtain ⟨below, hbelow, hout⟩ := exists_of_bind hout
      cases hout
      have hshown := shown_of_below hleaf hattrs (hchildren below hbelow) (.inl rfl)
      rwa [List.append_nil] at hshown

theorem rawOf_rawField (name : String) (h : rawField token = .ok head) :
    rawOf (.object (("type", .str name) :: head)) = rawOf token ∧
      listed (.object (("type", .str name) :: head)) = [] := by
  obtain ⟨raw, hraw, h⟩ := exists_of_bind h
  cases token with
  | object fields =>
    cases hraw
    rw [rawOf, rawOf]
    cases hr : fields.lookup "raw" with
    | none =>
      rw [hr] at h
      cases h
      exact ⟨rfl, rfl⟩
    | some v =>
      rw [hr] at h
      cases h
      exact ⟨rfl, rfl⟩
  | _ => cases hraw

theorem inlineToken_shown (hname : name ∈ inlineNames.map Prod.snd) (hmath : name ≠ "inline_math")
    (hbare : name ∈ ["text", "softbreak", "linebreak", "codespan", "html_inline"] →
      listed token = [])
    {children : Except Failure Fields}
    (hchildren : ∀ below, children = .ok below → Below token below)
    (hout : inlineToken name token children = .ok out) : Shown token name out := by
  have hleaves : ∀ name ∈ inlineNames.map Prod.snd, name ∈ leafKinds.map renamed →
      name = "inline_math" ∨
        name ∈ ["text", "softbreak", "linebreak", "codespan", "html_inline"] := by decide
  rw [inlineToken] at hout
  split at hout
  next hplain =>
    obtain ⟨raw, hraw, hout⟩ := exists_of_bind hout
    cases hout
    obtain ⟨hsame, hnone⟩ := rawOf_rawField name hraw
    have hin := List.contains_iff_mem.mp hplain
    have hcode : name ≠ "block_code" := by
      rintro rfl
      simp at hin
    refine ⟨rfl, fun _ => ?_, ?_⟩
    · rw [hsame]
      exact (if_neg hcode).symm
    · rw [hnone]
      exact normalizeAll_bare (hbare hin)
  next hother =>
    have hleaf : name ∉ leafKinds.map renamed := by
      intro hn
      rcases hleaves name hname hn with h | h
      · exact hmath h
      · exact hother (List.contains_iff_mem.mpr h)
    obtain ⟨attrs, hattrs, hout⟩ := exists_of_bind hout
    obtain ⟨below, hbelow, hout⟩ := exists_of_bind hout
    have hbelow := hchildren below hbelow
    split at hout
    next =>
      obtain ⟨alt, -, hout⟩ := exists_of_bind hout
      extract_lets shown at hout
      split at hout
      · cases hout
        exact shown_of_below hleaf (.inl rfl) hbelow (.inr ⟨_, rfl⟩)
      · cases hout
        have hattrs : OnlyAttrs [shown] := .inr ⟨_, rfl⟩
        have hshown := shown_of_below hleaf hattrs hbelow (.inl rfl)
        rwa [List.append_nil] at hshown
    next =>
      cases hout
      have hshown := shown_of_below hleaf (attrsField_onlyAttrs hattrs) hbelow (.inl rfl)
      rwa [List.append_nil] at hshown

theorem mem_of_nameIn {table : List (String × String)} (h : nameIn table (some kind) = some name) :
    (kind, name) ∈ table := mem_of_lookup h

theorem renamed_block (h : nameIn blockNames (some kind) = some name) :
    renamed kind = name ∧ (name = "block_code" → kind = "block_code") ∧
      (name ∈ ["block_math", "html_block", "thematic_break"] →
        kind ∈ leafKinds ++ emptyKinds) := by
  have hnames : ∀ entry ∈ blockNames, (entry.2 = "block_code" → entry.1 = "block_code") ∧
      (entry.2 ∈ ["block_math", "html_block", "thematic_break"] →
        entry.1 ∈ leafKinds ++ emptyKinds) := by decide
  refine ⟨?_, hnames _ (mem_of_nameIn h)⟩
  rw [renamed, h]
  rfl

theorem renamed_inline (hb : nameIn blockNames (some kind) = none)
    (h : nameIn inlineNames (some kind) = some name) :
    renamed kind = name ∧ (name = "inline_math" → kind = "inline_math") ∧
      (name ∈ ["text", "softbreak", "linebreak", "codespan", "html_inline"] →
        kind ∈ leafKinds ++ emptyKinds) := by
  have hnames : ∀ entry ∈ inlineNames, (entry.2 = "inline_math" → entry.1 = "inline_math") ∧
      (entry.2 ∈ ["text", "softbreak", "linebreak", "codespan", "html_inline"] →
        entry.1 ∈ leafKinds ++ emptyKinds) := by decide
  refine ⟨?_, hnames _ (mem_of_nameIn h)⟩
  rw [renamed, hb, h]
  rfl

theorem renamed_other (hknown : kind ∈ documentKinds) (hb : nameIn blockNames (some kind) = none)
    (hi : nameIn inlineNames (some kind) = none) :
    renamed kind = kind ∧ kind ∉ leafKinds.map renamed := by
  have hleaves : ∀ kind ∈ documentKinds, nameIn blockNames (some kind) = none →
      nameIn inlineNames (some kind) = none → kind ∉ leafKinds.map renamed := by decide
  refine ⟨?_, hleaves kind hknown hb hi⟩
  rw [renamed, hb, hi]
  rfl

/-- One token of a document comes to nothing, to a table, or to a token under its rendered name. -/
theorem normalize_step (h : Tree Built token) (hn : normalize token = .ok outs) :
    Step token outs := by
  have hplain := h.readable.plain
  obtain ⟨kind, hname, hkind, -⟩ := hplain.kind_eq
  rw [normalize] at hn
  obtain ⟨value, hvalue, hn⟩ := exists_of_bind hn
  cases hkind.symm.trans hvalue
  extract_lets children at hn
  have hchildren : ∀ below, children = .ok below → Below token below := by
    intro below hbelow
    subst children
    split at hbelow
    · cases hbelow
    next items hitems =>
      cases h.presentChildren_eq.symm.trans hitems
      obtain ⟨done, hdone, hbelow⟩ := exists_of_bind hbelow
      obtain ⟨c, hc, hbelow⟩ := exists_of_bind hbelow
      split at hbelow
      · cases hbelow
        exact .some hdone
      next hfalsy =>
        cases hbelow
        rw [presentChildren, hc] at hitems
        change (if c.truthy = true then _ else _) = _ at hitems
        rw [if_neg hfalsy] at hitems
        exact .none (Except.ok.inj hitems).symm
  clear_value children
  obtain ⟨key, hkey, hn⟩ := exists_of_bind hn
  obtain rfl : key = some kind := (Except.ok.inj hkey).symm
  split at hn
  next hblank =>
    cases hn
    rw [Option.some.inj hblank] at hname
    exact .blank hname
  next htable =>
    rw [Option.some.inj htable] at hname
    split at hn
    · cases hn
    next parts hparts =>
      have hlisted := h.children_eq.symm.trans hparts
      obtain ⟨⟨align, rows⟩, hrows, hout⟩ := exists_of_bind hn
      rw [← Except.ok.inj hlisted] at hrows
      cases hout
      exact .table hname hrows
  next hcode =>
    rw [Option.some.inj hcode] at hname
    obtain ⟨out, hout, hn⟩ := exists_of_bind hn
    cases hn
    exact .shown hname (by decide) (codeBlock_shown hplain (h.bare hname (by decide)) hout)
  next hmath =>
    rw [Option.some.inj hmath] at hname
    obtain ⟨out, hout, hn⟩ := exists_of_bind hn
    cases hn
    exact .shown hname (by decide) (inlineMath_shown hplain (h.bare hname (by decide)) hout)
  next hblank htable hcode hmath =>
    have hkind : kind ≠ "table" := fun hk => htable (congrArg some hk)
    split at hn
    next name hblock =>
      obtain ⟨out, hout, hn⟩ := exists_of_bind hn
      cases hn
      obtain ⟨hrenamed, hcode', hbare⟩ := renamed_block hblock
      refine .shown hname hkind ?_
      rw [hrenamed]
      exact blockToken_shown hplain (List.mem_map_of_mem (mem_of_nameIn hblock))
        (fun hn => hcode (congrArg some (hcode' hn)))
        (fun hn => h.bare hname (hbare hn)) hchildren hout
    next name hnone hinline =>
      obtain ⟨out, hout, hn⟩ := exists_of_bind hn
      cases hn
      obtain ⟨hrenamed, hmath', hbare⟩ := renamed_inline hnone hinline
      refine .shown hname hkind ?_
      rw [hrenamed]
      exact inlineToken_shown (List.mem_map_of_mem (mem_of_nameIn hinline))
        (fun hn => hmath (congrArg some (hmath' hn)))
        (fun hn => h.bare hname (hbare hn)) hchildren hout
    next hnone hnone' =>
      obtain ⟨raw, hraw, hn⟩ := exists_of_bind hn
      obtain ⟨below, hbelow, hn⟩ := exists_of_bind hn
      cases hn
      obtain ⟨hrenamed, hleaf⟩ := renamed_other (h.known hname) hnone hnone'
      refine .shown hname hkind ?_
      rw [hrenamed]
      have hfront : (("type", .str kind) :: raw : Fields).lookup "children" = none :=
        (rawField_lookup hraw).1
      exact ⟨rfl, fun hn => absurd hn hleaf, listed_of_below hfront (hchildren below hbelow)⟩

end Step

section Table

/-- The cells of a table head: its tokens, or those of the row that it begins with. -/
def headMembers (head : Value) : List Value :=
  match listed head with
  | [] => []
  | first :: rest => if nameOf first = some "table_row" then listed first else first :: rest

/-- The cells of the heads among the parts of a table. -/
def tableHead (parts : List Value) : List Value :=
  (parts.filter fun t => nameOf t = some "table_head").flatMap headMembers

/-- The rows of the bodies among the parts of a table. -/
def bodyRows (parts : List Value) : List Value :=
  (parts.filter fun t => nameOf t = some "table_body").flatMap listed

/-- The alignment that a cell declares, or none. -/
def declaredAlign (cell : Value) : Value := (cellAlign cell).toOption.getD .null

/-- A cell with what the tokens below it come to. -/
def CellOf (cell out : Value) : Prop :=
  ∃ done, normalizeAll (listed cell) = .ok done ∧ out = branch "table_cell" done

/-- A row with what its cells come to. -/
def RowOf (row out : Value) : Prop :=
  ∃ cells, List.Forall₂ CellOf (listed row) cells ∧ out = branch "table_row" cells

/-- What the parts of a table come to: the alignments of the head, its cells as the first row, and
the rows of the bodies. -/
structure TableOf (parts align rows : List Value) : Prop where
  align : align = (tableHead parts).map declaredAlign
  rows : ∃ header body, rows = branch "table_row" header :: body ∧
    List.Forall₂ CellOf (tableHead parts) header ∧ List.Forall₂ RowOf (bodyRows parts) body

variable {cells rows parts align : List Value} {part cell row : Value}

theorem headCells_eq (h : Tree Plain part) : headCells part = .ok (headMembers part) := by
  rw [headCells, h.childrenField_eq, headMembers]
  have hchildren := h.children_eq
  cases hlisted : listed part with
  | nil =>
    rw [hlisted] at hchildren
    exact hchildren
  | cons first rest =>
    have hfirst : Tree Plain first := h.listed first (by rw [hlisted]; exact List.mem_cons_self)
    obtain ⟨kind, hname, -, htype⟩ := hfirst.kind_eq
    change (first.field "type" .null >>= _) =
      .ok (if nameOf first = some "table_row" then listed first else first :: rest)
    rw [htype, hname]
    change (if (kind == "table_row") = true then first.children else part.children) = _
    rw [hchildren, hfirst.children_eq, hlisted]
    by_cases hkind : kind = "table_row"
    · simp [hkind]
    · simp [hkind]

theorem tree_headMembers (h : Tree P part) : ∀ t ∈ headMembers part, Tree P t := by
  have hlisted := h.listed
  rw [headMembers]
  split
  next => exact List.forall_mem_nil _
  next first rest heq =>
    rw [heq] at hlisted
    split
    · exact (hlisted first List.mem_cons_self).listed
    · exact hlisted

theorem map_declaredAlign (h : cells.mapM cellAlign = .ok align) :
    align = cells.map declaredAlign := by
  have hall := forall₂_of_mapM h
  clear h
  induction hall with
  | nil => rfl
  | @cons cell a cells align hcell _ ih =>
    rw [List.map_cons, ih, declaredAlign, hcell]
    rfl

theorem cells_of_tableRow (h : ∀ t ∈ cells, Tree P t) (hn : tableRow cells = .ok outs) :
    List.Forall₂ CellOf cells outs := by
  induction cells generalizing outs with
  | nil =>
    rw [tableRow] at hn
    cases hn
    exact .nil
  | cons cell cells ih =>
    obtain ⟨hcell, hmore⟩ := List.forall_mem_cons.mp h
    rw [tableRow] at hn
    split at hn
    · cases hn
    next children hchildren =>
      rw [← Except.ok.inj (hcell.children_eq.symm.trans hchildren)] at hn
      obtain ⟨done, hdone, hn⟩ := exists_of_bind hn
      obtain ⟨more, hmore', hn⟩ := exists_of_bind hn
      cases hn
      exact .cons ⟨done, hdone, rfl⟩ (ih hmore hmore')

theorem rows_of_tableRows (h : ∀ t ∈ rows, Tree P t) (hn : tableRows rows = .ok outs) :
    List.Forall₂ RowOf rows outs := by
  induction rows generalizing outs with
  | nil =>
    rw [tableRows] at hn
    cases hn
    exact .nil
  | cons row rows ih =>
    obtain ⟨hrow, hmore⟩ := List.forall_mem_cons.mp h
    rw [tableRows] at hn
    split at hn
    · cases hn
    next cells hcells =>
      rw [← Except.ok.inj (hrow.children_eq.symm.trans hcells)] at hn
      obtain ⟨done, hdone, hn⟩ := exists_of_bind hn
      obtain ⟨more, hmore', hn⟩ := exists_of_bind hn
      cases hn
      exact .cons ⟨done, cells_of_tableRow hrow.listed hdone, rfl⟩ (ih hmore hmore')

/-- Blank lines among the parts of a table are passed over. -/
theorem tableParts_blank (h : Tree Plain part) (hname : nameOf part = some "blank_line") :
    tableParts align rows (part :: parts) = tableParts align rows parts := by
  obtain ⟨kind, hkind, -, htype⟩ := h.kind_eq
  cases hname.symm.trans hkind
  rw [tableParts, htype]
  rfl

theorem exists_of_tableParts_head {out : List Value × List Value} (h : Tree Plain part)
    (hname : nameOf part = some "table_head")
    (hn : tableParts align rows (part :: parts) = .ok out) :
    ∃ header, List.Forall₂ CellOf (headMembers part) header ∧
      tableParts ((headMembers part).map declaredAlign) (rows ++ [branch "table_row" header])
        parts = .ok out := by
  obtain ⟨kind, hkind, -, htype⟩ := h.kind_eq
  cases hname.symm.trans hkind
  rw [tableParts, htype] at hn
  obtain ⟨value, hvalue, hn⟩ := exists_of_bind hn
  obtain rfl := Except.ok.inj hvalue
  have hhead : (Value.str "table_head").isText "table_head" = true := rfl
  rw [if_pos hhead] at hn
  split at hn
  · cases hn
  next cells hcells =>
    obtain ⟨align', halign, hn⟩ := exists_of_bind hn
    obtain ⟨header, hheader, hn⟩ := exists_of_bind hn
    rw [← Except.ok.inj ((headCells_eq h).symm.trans hcells)] at halign hheader
    rw [map_declaredAlign halign] at hn
    exact ⟨header, cells_of_tableRow (tree_headMembers h) hheader, hn⟩

theorem exists_of_tableParts_body {out : List Value × List Value} (h : Tree Plain part)
    (hname : nameOf part = some "table_body")
    (hn : tableParts align rows (part :: parts) = .ok out) :
    ∃ body, List.Forall₂ RowOf (listed part) body ∧
      tableParts align (rows ++ body) parts = .ok out := by
  obtain ⟨kind, hkind, -, htype⟩ := h.kind_eq
  cases hname.symm.trans hkind
  rw [tableParts, htype] at hn
  obtain ⟨value, hvalue, hn⟩ := exists_of_bind hn
  obtain rfl := Except.ok.inj hvalue
  have hbody : (Value.str "table_body").isText "table_body" = true := rfl
  rw [if_neg (by decide), if_pos hbody] at hn
  split at hn
  · cases hn
  next body hbody =>
    obtain ⟨more, hmore, hn⟩ := exists_of_bind hn
    rw [← Except.ok.inj (h.children_eq.symm.trans hbody)] at hmore
    exact ⟨more, rows_of_tableRows h.listed hmore, hn⟩

theorem mixed_cons {kinds : List String} :
    Mixed kinds (part :: parts) ↔
      (∃ kind, nameOf part = some kind ∧ kind ∈ "blank_line" :: kinds) ∧ Mixed kinds parts :=
  List.forall_mem_cons

theorem tableHead_cons (hname : nameOf part = some kind) :
    tableHead (part :: parts) =
      (if kind = "table_head" then headMembers part else []) ++ tableHead parts := by
  rw [tableHead, List.filter_cons, hname]
  by_cases hkind : kind = "table_head"
  · simp [hkind, tableHead]
  · simp [hkind, tableHead]

theorem bodyRows_cons (hname : nameOf part = some kind) :
    bodyRows (part :: parts) =
      (if kind = "table_body" then listed part else []) ++ bodyRows parts := by
  rw [bodyRows, List.filter_cons, hname]
  by_cases hkind : kind = "table_body"
  · simp [hkind, bodyRows]
  · simp [hkind, bodyRows]

theorem members_blanks {before : List Value} (hblank : Mixed [] before) (parts : List Value) :
    tableHead (before ++ parts) = tableHead parts ∧
      bodyRows (before ++ parts) = bodyRows parts := by
  induction before with
  | nil => exact ⟨rfl, rfl⟩
  | cons part before ih =>
    obtain ⟨⟨kind, hname, hkind⟩, hblank⟩ := mixed_cons.mp hblank
    obtain rfl := List.mem_singleton.mp hkind
    rw [List.cons_append, tableHead_cons hname, bodyRows_cons hname]
    exact ih hblank

theorem tableHead_bodies (hbodies : Mixed ["table_body"] parts) : tableHead parts = [] := by
  induction parts with
  | nil => rfl
  | cons part parts ih =>
    obtain ⟨⟨kind, hname, hkind⟩, hbodies⟩ := mixed_cons.mp hbodies
    rw [tableHead_cons hname, ih hbodies, List.append_nil]
    apply if_neg
    rintro rfl
    simp at hkind

/-- The head of a table has its cells, and its bodies have its rows. -/
theorem TableParts.members (h : TableParts parts) :
    ∃ before head after, parts = before ++ head :: after ∧ Mixed [] before ∧
      nameOf head = some "table_head" ∧ Mixed ["table_body"] after ∧
      tableHead parts = headMembers head ∧ bodyRows parts = bodyRows after := by
  obtain ⟨before, head, after, rfl, hblank, hname, hbodies⟩ := h
  obtain ⟨hhead, hrows⟩ := members_blanks hblank (head :: after)
  refine ⟨before, head, after, rfl, hblank, hname, hbodies, ?_, ?_⟩
  · rw [hhead, tableHead_cons hname, tableHead_bodies hbodies, if_pos rfl, List.append_nil]
  · rw [hrows, bodyRows_cons hname, if_neg (by decide), List.nil_append]

/-- Bodies leave the alignments as they are and add their rows. -/
theorem rows_of_bodies {align' rows' : List Value} (h : ∀ t ∈ parts, Tree Plain t)
    (hbodies : Mixed ["table_body"] parts)
    (hn : tableParts align rows parts = .ok (align', rows')) :
    align' = align ∧ ∃ body, rows' = rows ++ body ∧ List.Forall₂ RowOf (bodyRows parts) body := by
  induction parts generalizing rows with
  | nil =>
    rw [tableParts] at hn
    cases hn
    exact ⟨rfl, [], (List.append_nil _).symm, .nil⟩
  | cons part parts ih =>
    obtain ⟨hpart, hmore⟩ := List.forall_mem_cons.mp h
    obtain ⟨⟨kind, hname, hkind⟩, hbodies⟩ := mixed_cons.mp hbodies
    rw [bodyRows_cons hname]
    rcases List.mem_pair.mp hkind with rfl | rfl
    · rw [tableParts_blank hpart hname] at hn
      exact ih hmore hbodies hn
    · obtain ⟨body, hbody, hn⟩ := exists_of_tableParts_body hpart hname hn
      obtain ⟨halign, more, hrows, hmore⟩ := ih hmore hbodies hn
      refine ⟨halign, body ++ more, ?_, List.rel_append hbody hmore⟩
      rw [hrows, List.append_assoc]

theorem tableParts_blanks {before : List Value} (h : ∀ t ∈ before, Tree Plain t)
    (hblank : Mixed [] before) :
    tableParts align rows (before ++ parts) = tableParts align rows parts := by
  induction before with
  | nil => rfl
  | cons part before ih =>
    obtain ⟨hpart, hmore⟩ := List.forall_mem_cons.mp h
    obtain ⟨⟨kind, hname, hkind⟩, hblank⟩ := mixed_cons.mp hblank
    obtain rfl := List.mem_singleton.mp hkind
    rw [List.cons_append, tableParts_blank hpart hname]
    exact ih hmore hblank

/-- A table comes to a row for its head, with an alignment for each cell, and the rows of its bodies
in their order. -/
theorem table_of_parts (h : ∀ t ∈ parts, Tree Plain t) (hparts : TableParts parts)
    (hn : tableParts [] [] parts = .ok (align, rows)) : TableOf parts align rows := by
  obtain ⟨before, head, after, rfl, hblank, hname, hbodies, hmembers, hrows⟩ := hparts.members
  obtain ⟨hbefore, hrest⟩ := List.forall_mem_append.mp h
  obtain ⟨hhead, hafter⟩ := List.forall_mem_cons.mp hrest
  rw [tableParts_blanks hbefore hblank] at hn
  obtain ⟨header, hheader, hn⟩ := exists_of_tableParts_head hhead hname hn
  obtain ⟨halign, body, hall, hbody⟩ := rows_of_bodies hafter hbodies hn
  refine ⟨?_, header, body, hall, ?_, ?_⟩
  · rw [hmembers, halign]
  · rw [hmembers]
    exact hheader
  · rw [hrows]
    exact hbody

end Table

end Typeset.Token
