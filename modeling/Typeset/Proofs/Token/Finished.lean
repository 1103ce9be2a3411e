import Typeset.Proofs.Conversion.FrontMatter
import Typeset.Proofs.Token.Wording
import Typeset.Render.Block

/-! Tokens as the renderers take them: with the attributes that their kinds ask for, and with what
may stand below their kinds. -/

namespace Typeset.Token

open Failure
open Value (IsText?)

variable {fields : Fields} {token : Value} {tokens : List Value}

/-- Attributes as the renderers ask for them. -/
structure Fit (attrs : Fields) : Prop extends Attributes attrs where
  level : ∀ v, ("level", v) ∈ attrs → ∃ n, v = .int n
  span : ∀ v, ("span", v) ∈ attrs → v = .null ∨ ∃ n, v = .int n
  alt : ∀ v, ("alt", v) ∈ attrs → IsText? v
  info : ∀ v, ("info", v) ∈ attrs → IsText? v
  align : ∀ v, ("align", v) ∈ attrs → v = .null ∨ ∃ items, v = .list items ∧ ∀ a ∈ items, IsText? a

/-- The kinds of inlines. -/
def inlineTypes : List String :=
  ["text", "strong", "emphasis", "codespan", "strikethrough", "mark", "superscript", "subscript",
    "link", "link_reference", "image", "image_reference", "footnote_ref", "inline_math",
    "softbreak", "linebreak", "html_inline"]

/-- The kinds of blocks that stand on their own. -/
def blockTypes : List String :=
  ["frontmatter", "definition", "footnote_definition", "heading", "paragraph", "block_quote",
    "list", "list_item", "block_code", "table", "thematic_break", "block_math", "html_block"]

/-- The kinds of tokens that hold inlines and show them. -/
def inlineHolders : List String :=
  ["heading", "paragraph", "table_cell", "strong", "emphasis", "strikethrough", "mark",
    "superscript", "subscript", "link", "link_reference"]

/-- The kinds of what stands below a kind that shows it. -/
def typesBelow (kind : String) : Option (List String) :=
  if kind ∈ inlineHolders then some inlineTypes
  else if kind ∈ ["block_quote", "list_item"] then some blockTypes
  else if kind = "list" then some ["list_item"]
  else if kind = "table" then some ["table_row"]
  else if kind = "table_row" then some ["table_cell"]
  else none

/-- Tokens of some kinds. -/
def OfTypes (kinds : List String) (tokens : List Value) : Prop :=
  ∀ t ∈ tokens, ∃ kind ∈ kinds, nameOf t = some kind

instance (kinds : List String) (tokens : List Value) : Decidable (OfTypes kinds tokens) :=
  inferInstanceAs (Decidable (∀ t ∈ tokens, ∃ kind ∈ kinds, nameOf t = some kind))

theorem ofTypes_cons {kinds : List String} :
    OfTypes kinds (token :: tokens) ↔
      (∃ kind ∈ kinds, nameOf token = some kind) ∧ OfTypes kinds tokens := List.forall_mem_cons

theorem ofTypes_singleton_cons {kind : String} :
    OfTypes [kind] (token :: tokens) ↔ nameOf token = some kind ∧ OfTypes [kind] tokens := by
  rw [ofTypes_cons]
  simp

theorem OfTypes.name_eq {kind : String} (h : OfTypes [kind] tokens) (ht : token ∈ tokens) :
    nameOf token = some kind := by
  obtain ⟨name, hname, htoken⟩ := h token ht
  rwa [List.mem_singleton.mp hname] at htoken

/-- A token as the renderers take it. -/
structure Finished (fields : Fields) : Prop extends Regular fields where
  fit : ∀ attrs, ("attrs", .object attrs) ∈ fields → Fit attrs
  placed : ∀ kind kinds, nameOf (.object fields) = some kind → typesBelow kind = some kinds →
    OfTypes kinds (listed (.object fields))

section Attributes

theorem fit_nil : Fit [] := by
  refine ⟨⟨?_, ?_, ?_⟩, ?_, ?_, ?_, ?_, ?_⟩ <;> simp

theorem finished_markedBranch {kind : String} {attrs : Fields} (hfit : Fit attrs)
    (hplaced : OfTypes ((typesBelow kind).getD []) tokens) :
    Finished [("type", .str kind), ("attrs", .object attrs), ("children", .list tokens)] where
  kind v hv := by
    cases hv
    exact ⟨kind, rfl⟩
  raw v hv := by simp at hv
  attrs v hv := by
    obtain rfl : v = .object attrs := by simpa using hv
    exact ⟨attrs, rfl, hfit.toAttributes⟩
  fit attrs' hattrs := by
    obtain rfl : attrs' = attrs := by simpa using hattrs
    exact hfit
  placed kind' kinds hname hbelow := by
    cases hname
    rwa [hbelow] at hplaced

theorem tree_markedBranch {kind : String} {attrs : Fields} (hfit : Fit attrs)
    (hplaced : OfTypes ((typesBelow kind).getD []) tokens)
    (htokens : ∀ t ∈ tokens, Tree Finished t) : Tree Finished (markedBranch kind attrs tokens) := by
  refine .object (finished_markedBranch hfit hplaced) (fun v hv => ?_) fun items hv => ?_
  · obtain rfl : v = .list tokens := by simpa using hv
    exact ⟨tokens, rfl⟩
  · obtain rfl : items = tokens := by simpa using hv
    exact htokens

theorem tree_leaf {kind : String} (raw : String) (hbelow : typesBelow kind = none) :
    Tree Finished (leaf kind raw) := by
  have hregular := regular_leaf kind raw
  cases hregular with
  | object here list below =>
    refine .object ⟨here, fun attrs hattrs => ?_, fun name kinds hname hsome => ?_⟩
      list fun items hitems => ?_
    · simp at hattrs
    · rw [← Option.some.inj hname, hbelow] at hsome
      cases hsome
    · simp at hitems

theorem Tree.regular (h : Tree Finished token) : Tree Regular token :=
  h.mono fun _ hf => hf.toRegular

theorem Tree.everywhere_tree {P : Fields → Prop} (h : Tree P token) :
    token.Everywhere (Tree P) := by
  induction h with
  | object here list below ih =>
    exact Value.everywhere_object (.object here list below) fun items hitems t ht =>
      ih items (mem_of_lookup hitems) t ht

theorem Tree.itemParts_eq (h : Tree Finished token) :
    Render.itemParts token = .ok (Token.listed token) := by
  obtain ⟨fields, rfl⟩ := h.exists_fields
  rw [Render.itemParts, Value.childrenAs]
  rcases h.lookup_children with ⟨hnone, hnil⟩ | ⟨hsome, -⟩
  · rw [hnone, hnil]
  · rw [hsome]
    rfl

theorem Tree.rowsOf_eq (h : Tree Finished token) :
    Render.rowsOf token = .ok (Token.listed token) := by
  obtain ⟨fields, rfl⟩ := h.exists_fields
  rw [Render.rowsOf, Value.childrenAs]
  rcases h.lookup_children with ⟨hnone, hnil⟩ | ⟨hsome, -⟩
  · rw [hnone, hnil]
  · rw [hsome]
    cases Token.listed (.object fields) <;> rfl

theorem Tree.ofTypes (h : Tree Finished token) {kind : String} {kinds : List String}
    (hname : nameOf token = some kind) (hbelow : typesBelow kind = some kinds) :
    OfTypes kinds (Token.listed token) := by
  cases h with
  | object here => exact here.placed kind kinds hname hbelow

/-- An attribute that a token has is as the renderers ask for it; else there is the default. -/
theorem Tree.attr_gives (h : Tree Finished token) (key : String) (default : Value) :
    Gives (fun v => (∃ attrs, Fit attrs ∧ (key, v) ∈ attrs) ∨ v = default)
      (token.attr key default) := by
  cases h with
  | @object fields here =>
    rw [Value.attr, Value.field_object]
    cases ha : fields.lookup "attrs" with
    | none => exact gives_ok (.inr rfl)
    | some v =>
      have hmem := mem_of_lookup ha
      obtain ⟨attrs, rfl, -⟩ := here.attrs v hmem
      refine (field_gives attrs key default).mono ?_
      rintro w (hw | rfl)
      · exact .inl ⟨attrs, here.fit attrs hmem, hw⟩
      · exact .inr rfl

theorem Tree.identifierOf_eq (h : Tree Regular token) :
    Render.identifierOf token = .ok (attrText "identifier" token) := by
  obtain ⟨attrs, hattrs, hgood, htext⟩ := h.exists_attrs
  have hid := hgood.identifier_eq
  rw [← htext] at hid
  simp only [Render.identifierOf, Value.attr, hattrs, bind, Except.bind, hid, Value.asText]

theorem Tree.url_gives (h : Tree Finished token) :
    Gives (fun v => ∃ s, v = .str s) (token.attr "url" (.str "")) := by
  refine (h.attr_gives "url" _).mono ?_
  rintro v (⟨attrs, hfit, hv⟩ | rfl)
  · exact hfit.url v hv
  · exact ⟨"", rfl⟩

theorem Tree.label_gives (h : Tree Finished token) :
    Gives IsText? (token.attr "label" .null) := by
  refine (h.attr_gives "label" _).mono ?_
  rintro v (⟨attrs, hfit, hv⟩ | rfl)
  · exact hfit.label v hv
  · exact .inl rfl

theorem Tree.alt_gives (h : Tree Finished token) : Gives IsText? (token.attr "alt" .null) := by
  refine (h.attr_gives "alt" _).mono ?_
  rintro v (⟨attrs, hfit, hv⟩ | rfl)
  · exact hfit.alt v hv
  · exact .inl rfl

theorem Tree.info_gives (h : Tree Finished token) : Gives IsText? (token.attr "info" .null) := by
  refine (h.attr_gives "info" _).mono ?_
  rintro v (⟨attrs, hfit, hv⟩ | rfl)
  · exact hfit.info v hv
  · exact .inl rfl

theorem Tree.span_gives (h : Tree Finished token) :
    Gives (fun v => v = .null ∨ ∃ n, v = .int n) (token.attr "span" .null) := by
  refine (h.attr_gives "span" _).mono ?_
  rintro v (⟨attrs, hfit, hv⟩ | rfl)
  · exact hfit.span v hv
  · exact .inl rfl

theorem Tree.level_gives (h : Tree Finished token) :
    Gives (fun v => ∃ n, v = .int n) (token.attr "level" (.int 1)) := by
  refine (h.attr_gives "level" _).mono ?_
  rintro v (⟨attrs, hfit, hv⟩ | rfl)
  · exact hfit.level v hv
  · exact ⟨1, rfl⟩

theorem orElse_text {v : Value} (h : IsText? v) (s : String) : ∃ t, v.orElse (.str s) = .str t := by
  obtain rfl | ⟨t, rfl⟩ := h
  · exact ⟨s, rfl⟩
  · rw [Value.orElse]
    split
    · exact ⟨t, rfl⟩
    · exact ⟨s, rfl⟩

end Attributes

section Align

open Render

/-- A column is aligned as declared, where that is one of the three ways, and else to the left. -/
def columnAlign (declared : List Value) (column : Nat) : String :=
  match declared[column]? with
  | some (.str "center") => "center"
  | some (.str "right") => "right"
  | _ => "left"

theorem alignment_eq {v : Value} (h : IsText? v) : alignment v = .ok (columnAlign [v] 0) := by
  obtain rfl | ⟨s, rfl⟩ := h
  · rfl
  · by_cases hc : s = "center"
    · subst hc
      rfl
    · by_cases hr : s = "right"
      · subst hr
        rfl
      · simp [alignment, columnAlign, Value.hashable, hc, hr]

theorem Tree.aligns_gives (h : Tree Finished token) :
    ∃ v, token.attr "align" .null = .ok v ∧ v.orElse (.list []) = .list (listedAlign token) ∧
      ∀ a ∈ listedAlign token, IsText? a := by
  obtain ⟨v, hv, hfit⟩ := h.attr_gives "align" .null
  have hv' : v = .null ∨ ∃ items, v = .list items ∧ ∀ a ∈ items, IsText? a := by
    rcases hfit with ⟨attrs, hfit, hmem⟩ | rfl
    · exact hfit.align v hmem
    · exact .inl rfl
  refine ⟨v, hv, ?_⟩
  rw [listedAlign, hv]
  obtain rfl | ⟨items, rfl, hitems⟩ := hv'
  · exact ⟨rfl, List.forall_mem_nil _⟩
  · refine ⟨?_, hitems⟩
    cases items <;> rfl

/-- Every column of a table is aligned. -/
theorem Tree.alignments_eq (h : Tree Finished token) {columns : Nat} (hpos : columns ≠ 0) :
    alignments token columns =
      .ok ((List.range columns).map (columnAlign (listedAlign token))) := by
  obtain ⟨v, hv, hdeclared, htexts⟩ := h.aligns_gives
  have hcount : (Value.list (listedAlign token)).count = .ok (listedAlign token).length := rfl
  have hcolumn (i : Nat) : (if i < (listedAlign token).length then
      (Value.list (listedAlign token)).at? i >>= alignment else .ok "left") =
        .ok (columnAlign (listedAlign token) i) := by
    split
    next hi =>
      have hat : (Value.list (listedAlign token)).at? i = .ok (listedAlign token)[i] := by
        simp [Value.at?, hi]
      rw [hat]
      refine (alignment_eq (htexts _ (List.getElem_mem hi))).trans ?_
      simp [columnAlign, hi]
    next hi => simp [columnAlign, hi]
  have hall : (List.range columns).mapM (fun i => if i < (listedAlign token).length then
      (Value.list (listedAlign token)).at? i >>= alignment else .ok "left") =
        .ok ((List.range columns).map (columnAlign (listedAlign token))) := by
    refine mapM_of_forall₂ (List.forall₂_map_right_iff.mpr ?_)
    exact List.forall₂_same.mpr fun i _ => hcolumn i
  rw [alignments, hv]
  dsimp only [bind, Except.bind]
  rw [hdeclared, if_neg hpos, hcount]
  exact hall

end Align

end Typeset.Token
