import Typeset.Proofs.Token.Canonical
import Typeset.Markdown.Document

/-! What is read of Markdown are token trees that can be brought into form. -/

namespace Typeset.Markdown

open Token

/-- Attributes in which only text tells about code. -/
def TellsInfo (attrs : Fields) : Prop := ∀ w, ("info", w) ∈ attrs → ∃ s, w = .str s

theorem tellsInfo_of_absent {attrs : Fields} (h : "info" ∉ attrs.map Prod.fst) :
    TellsInfo attrs :=
  fun _ hw => absurd (List.mem_map_of_mem (f := Prod.fst) hw) h

section Shapes

variable {kind : String} {attrs : Fields} {children : List Value}

theorem readable_of_fits {rest : Fields} (hk : isForeign kind = false)
    (hattrs : ∀ v, ("attrs", v) ∈ rest → ∃ attrs, v = .object attrs ∧ TellsInfo attrs)
    (h : ∀ f ∈ rest, FieldFits Readable f) :
    Tree Readable (.object (("type", .str kind) :: rest)) := by
  refine tree_of_fits ⟨plain_of_fits (isReserved_of_isForeign hk) h, fun name hn => ?_, ?_⟩ h
  · cases hn
    exact hk
  · exact fun v hv => hattrs v (by simpa using hv)

theorem readable_bare (hk : isForeign kind = false) :
    Tree Readable (.object [("type", .str kind)]) :=
  readable_of_fits hk (by simp) (List.forall_mem_nil _)

theorem readable_leaf (hk : isForeign kind = false) (raw : String) :
    Tree Readable (leaf kind raw) :=
  readable_of_fits hk (by simp) (List.forall_mem_singleton.mpr (fits_raw raw))

theorem readable_markedLeaf (hk : isForeign kind = false) (ha : TellsInfo attrs)
    (raw : String) :
    Tree Readable (.object [("type", .str kind), ("raw", .str raw), ("attrs", .object attrs)]) := by
  refine readable_of_fits hk (fun v hv => ⟨attrs, by simpa using hv, ha⟩) ?_
  exact List.forall_mem_cons.mpr ⟨fits_raw raw, List.forall_mem_singleton.mpr (fits_attrs _)⟩

theorem readable_branch (hk : isForeign kind = false) (h : ∀ t ∈ children, Tree Readable t) :
    Tree Readable (branch kind children) :=
  readable_of_fits hk (by simp) (List.forall_mem_singleton.mpr (fits_children h))

theorem readable_markedBranch (hk : isForeign kind = false) (ha : TellsInfo attrs)
    (h : ∀ t ∈ children, Tree Readable t) :
    Tree Readable (markedBranch kind attrs children) := by
  refine readable_of_fits hk (fun v hv => ⟨attrs, by simpa using hv, ha⟩) ?_
  exact List.forall_mem_cons.mpr ⟨fits_attrs _, List.forall_mem_singleton.mpr (fits_children h)⟩

end Shapes

theorem tellsInfo_linkAttrs (byLabel : Bool) (target : Target) :
    TellsInfo (linkAttrs byLabel target) := by
  refine tellsInfo_of_absent ?_
  rw [linkAttrs]
  split
  · simp
  · split
    · simp
    · simp

theorem Format.kind_free (format : Format) : isForeign format.kind = false := by
  cases format <;> rfl

mutual

theorem Inline.token_readable : (part : Inline) → Tree Readable part.token
  | .text raw => readable_leaf rfl _
  | .code raw => readable_leaf rfl _
  | .html raw => readable_leaf rfl _
  | .math raw (some n) => readable_markedLeaf rfl (tellsInfo_of_absent (by simp)) _
  | .math raw none => readable_leaf rfl _
  | .displayMath raw => readable_leaf rfl _
  | .formatted format children =>
    readable_branch format.kind_free (Inline.tokens_readable children)
  | .link image byLabel target children => by
    refine readable_markedBranch ?_ (tellsInfo_linkAttrs byLabel target)
      (Inline.tokens_readable children)
    cases image <;> rfl
  | .softBreak => readable_bare rfl
  | .hardBreak => readable_bare rfl

theorem Inline.tokens_readable : (parts : List Inline) → ∀ t ∈ Inline.tokens parts, Tree Readable t
  | [] => List.forall_mem_nil _
  | part :: rest =>
    List.forall_mem_cons.mpr ⟨Inline.token_readable part, Inline.tokens_readable rest⟩

end

section Table

variable (targets : List LinkTarget)

theorem inlineTokens_readable (text : List Char) :
    ∀ t ∈ inlineTokens targets text, Tree Readable t :=
  Inline.tokens_readable _

theorem cellToken_readable (head : Bool) (align : Option Align) (text : List Char) :
    Tree Readable (cellToken targets head align text) :=
  readable_markedBranch rfl (tellsInfo_of_absent (by simp)) (inlineTokens_readable targets text)

theorem rowTokens_readable (head : Bool) (aligns : List (Option Align))
    (cells : List (List Char)) :
    ∀ t ∈ List.zipWith (cellToken targets head) aligns cells, Tree Readable t := by
  intro t ht
  rw [← List.map_uncurry_zip_eq_zipWith] at ht
  obtain ⟨cell, -, rfl⟩ := List.mem_map.mp ht
  exact cellToken_readable targets head cell.1 cell.2

theorem Table.token_readable (table : Table) : Tree Readable (table.token targets) := by
  have hbody : ∀ t ∈ table.rows.map fun cells =>
      branch "table_row" (List.zipWith (cellToken targets false) table.aligns cells),
      Tree Readable t := by
    intro t ht
    obtain ⟨cells, -, rfl⟩ := List.mem_map.mp ht
    exact readable_branch rfl (rowTokens_readable targets false table.aligns cells)
  refine readable_branch rfl (List.forall_mem_append.mpr ⟨?_, ?_⟩)
  · exact List.forall_mem_singleton.mpr
      (readable_branch rfl (rowTokens_readable targets true table.aligns table.head))
  · split
    · exact List.forall_mem_nil _
    · exact List.forall_mem_singleton.mpr (readable_branch rfl hbody)

end Table

theorem tellsInfo_listAttrs (start : Option Nat) (depth : Nat) :
    TellsInfo (listAttrs start depth) := by
  refine tellsInfo_of_absent ?_
  unfold listAttrs
  split
  · split
    · simp
    · simp
  · simp

theorem codeToken_readable (info raw : List Char) :
    Tree Readable (.object ([("type", .str "block_code"), ("raw", ofChars raw)] ++
      if info.isEmpty then [] else [("attrs", .object [("info", ofChars info)])])) := by
  split
  · exact readable_leaf rfl _
  · refine readable_markedLeaf rfl (fun w hw => ⟨String.ofList info, ?_⟩) _
    simpa [ofChars] using hw

mutual

theorem Block.tokens_readable (targets : List LinkTarget) :
    (block : Block) → ∀ t ∈ block.tokens targets, Tree Readable t
  | .blank => List.forall_mem_singleton.mpr (readable_bare rfl)
  | .paragraph text =>
    List.forall_mem_singleton.mpr (readable_branch rfl (inlineTokens_readable targets text))
  | .heading level text =>
    List.forall_mem_singleton.mpr (readable_markedBranch rfl (tellsInfo_of_absent (by simp))
      (inlineTokens_readable targets text))
  | .rule => List.forall_mem_singleton.mpr (readable_bare rfl)
  | .code info raw => List.forall_mem_singleton.mpr (codeToken_readable info raw)
  | .html raw => List.forall_mem_singleton.mpr (readable_leaf rfl _)
  | .math raw => List.forall_mem_singleton.mpr (readable_leaf rfl _)
  | .table content => List.forall_mem_singleton.mpr (content.token_readable targets)
  | .definition link => List.forall_mem_nil _
  | .quote children =>
    List.forall_mem_singleton.mpr (readable_branch rfl (Block.tokensOf_readable targets children))
  | .list start depth items =>
    List.forall_mem_singleton.mpr (readable_markedBranch rfl (tellsInfo_listAttrs start depth)
      (Block.itemTokens_readable targets items))

theorem Block.tokensOf_readable (targets : List LinkTarget) :
    (blocks : List Block) → ∀ t ∈ Block.tokensOf targets blocks, Tree Readable t
  | [] => List.forall_mem_nil _
  | block :: rest =>
    List.forall_mem_append.mpr
      ⟨Block.tokens_readable targets block, Block.tokensOf_readable targets rest⟩

theorem Block.itemTokens_readable (targets : List LinkTarget) :
    (items : List (List Block)) → ∀ t ∈ Block.itemTokens targets items, Tree Readable t
  | [] => List.forall_mem_nil _
  | item :: rest =>
    List.forall_mem_cons.mpr
      ⟨readable_branch rfl (Block.tokensOf_readable targets item),
        Block.itemTokens_readable targets rest⟩

end

/-- Every document is read as token trees that can be brought into form. -/
theorem tokens_isReader : IsReader tokens := fun _ => Block.tokensOf_readable _ _

end Typeset.Markdown
