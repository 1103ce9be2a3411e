import Typeset.Proofs.Token.Shape

/-! What a document says is kept when its tokens are brought into their form: the texts of its
tokens in their order, the cells of its tables row by row, and an alignment for each cell of a
header. -/

namespace Typeset.Token

open Failure

variable {α β : Type} {f g : Value → List α} {token t part head : Value}
  {tokens outs cells rows parts align : List Value} {kind : String}

section Gather

theorem isChild_of_mem_listed (ht : t ∈ listed token) : token.IsChild t := by
  unfold listed at ht
  split at ht
  next fields =>
    split at ht
    next items hitems => exact ⟨fields, items, rfl, hitems, ht⟩
    next => cases ht
  next => cases ht

theorem mem_listed_of_isChild (h : token.IsChild t) : t ∈ listed token := by
  obtain ⟨fields, items, rfl, hitems, ht⟩ := h
  rw [listed, hitems]
  exact ht

theorem sizeOf_lt_of_mem_listed (ht : t ∈ listed token) : sizeOf t < sizeOf token := by
  obtain ⟨fields, items, rfl, hitems, hmem⟩ := isChild_of_mem_listed ht
  have hsize := Value.sizeOf_lookup_lt hitems
  have hitem := List.sizeOf_lt_of_mem hmem
  simp at hsize ⊢
  omega

/-- What the tokens of a tree give, each before the tokens below it. -/
def gather (f : Value → List α) (token : Value) : List α :=
  f token ++ (listed token).attach.flatMap fun t => gather f t.1
termination_by sizeOf token
decreasing_by exact sizeOf_lt_of_mem_listed t.2

theorem gather_eq (f : Value → List α) (token : Value) :
    gather f token = f token ++ (listed token).flatMap (gather f) := by
  rw [gather]
  simp

@[simp] theorem gather_branch (f : Value → List α) (kind : String) (tokens : List Value) :
    gather f (branch kind tokens) = f (branch kind tokens) ++ tokens.flatMap (gather f) :=
  gather_eq f _

@[simp] theorem gather_leaf (f : Value → List α) (kind raw : String) :
    gather f (leaf kind raw) = f (leaf kind raw) := by
  rw [gather_eq]
  exact List.append_nil _

theorem gather_map (tag : α → β) (f : Value → List α) (token : Value) :
    gather (fun t => (f t).map tag) token = (gather f token).map tag := by
  rw [gather_eq, gather_eq, List.map_append, List.map_flatMap]
  congr 1
  exact List.flatMap_congr fun t ht => gather_map tag f t
termination_by sizeOf token
decreasing_by exact sizeOf_lt_of_mem_listed ht

/-- What is gathered was given by one of the tokens. -/
theorem exists_of_mem_gather {a : α} (token : Value) (h : a ∈ gather f token) : ∃ t, a ∈ f t := by
  rw [gather_eq] at h
  rcases List.mem_append.mp h with h | h
  · exact ⟨token, h⟩
  · obtain ⟨t, ht, h⟩ := List.mem_flatMap.mp h
    exact exists_of_mem_gather t h
termination_by sizeOf token
decreasing_by exact sizeOf_lt_of_mem_listed ht

end Gather

section Frame

/-- Kinds of tokens that only hold a table together, and of blank lines. -/
def frameKinds : List String :=
  ["table_head", "table_body", "table_row", "table_cell", "blank_line"]

/-- A part of a table, or a blank line. -/
def Frame (token : Value) : Prop := ∃ kind, nameOf token = some kind ∧ kind ∈ frameKinds

theorem Mixed.frame {kinds : List String} (h : Mixed kinds tokens)
    (hkinds : ∀ kind ∈ kinds, kind ∈ frameKinds) : ∀ t ∈ tokens, Frame t := by
  intro t ht
  obtain ⟨kind, hname, hkind⟩ := h t ht
  refine ⟨kind, hname, ?_⟩
  rcases List.mem_cons.mp hkind with rfl | hkind
  · decide
  · exact hkinds kind hkind

/-- A table head begins with its row and has nothing but blank lines besides, or its tokens are its
cells. -/
theorem headMembers_cases (h : Tree Built head) (hname : nameOf head = some "table_head") :
    (headMembers head = listed head ∧ ∀ t ∈ listed head, Frame t) ∨
      ∃ row after, listed head = row :: after ∧ nameOf row = some "table_row" ∧
        Mixed [] after ∧ headMembers head = listed row := by
  rw [headMembers]
  rcases (h.shaped hname).head rfl with hcells | ⟨before, row, after, heq, hbefore, hrow, hafter⟩
  · left
    refine ⟨?_, hcells.frame (by decide)⟩
    cases hlisted : listed head with
    | nil => rfl
    | cons first rest =>
      obtain ⟨kind, hkind, hmem⟩ := hcells first (by rw [hlisted]; exact List.mem_cons_self)
      have hne : nameOf first ≠ some "table_row" := by
        rw [hkind]
        rintro hrow
        rw [Option.some.inj hrow] at hmem
        simp at hmem
      exact if_neg hne
  · cases before with
    | nil =>
      right
      refine ⟨row, after, heq, hrow, hafter, ?_⟩
      rw [heq]
      exact if_pos hrow
    | cons first before =>
      left
      have hfirst : nameOf first = some "blank_line" := by
        obtain ⟨kind, hkind, hmem⟩ := hbefore first List.mem_cons_self
        rw [hkind, List.mem_singleton.mp hmem]
      refine ⟨?_, ?_⟩
      · rw [heq]
        refine if_neg ?_
        rw [hfirst]
        decide
      · rw [heq]
        refine List.forall_mem_append.mpr ⟨hbefore.frame (by simp), ?_⟩
        exact List.forall_mem_cons.mpr
          ⟨⟨_, hrow, by decide⟩, hafter.frame (by simp)⟩

theorem frame_of_mem_headMembers (h : Tree Built head) (hname : nameOf head = some "table_head") :
    ∀ c ∈ headMembers head, Frame c ∧ Tree Built c := by
  intro c hc
  refine ⟨?_, tree_headMembers h c hc⟩
  rcases headMembers_cases h hname with ⟨hsame, hframe⟩ | ⟨row, after, heq, hrow, -, hsame⟩
  · rw [hsame] at hc
    exact hframe c hc
  · have htree : Tree Built row := h.listed row (by rw [heq]; exact List.mem_cons_self)
    rw [hsame] at hc
    exact ((htree.shaped hrow).row rfl).frame (by decide) c hc

theorem frame_of_mem_tableHead (h : ∀ t ∈ parts, Tree Built t) :
    ∀ c ∈ tableHead parts, Frame c ∧ Tree Built c := by
  intro c hc
  obtain ⟨head, hhead, hc⟩ := List.mem_flatMap.mp hc
  obtain ⟨hmem, hname⟩ := List.mem_filter.mp hhead
  exact frame_of_mem_headMembers (h head hmem) (of_decide_eq_true hname) c hc

theorem frame_of_mem_bodyRows (h : ∀ t ∈ parts, Tree Built t) :
    ∀ r ∈ bodyRows parts, Frame r ∧ Tree Built r ∧ ∀ c ∈ listed r, Frame c := by
  intro r hr
  obtain ⟨body, hbody, hr⟩ := List.mem_flatMap.mp hr
  obtain ⟨hmem, hname⟩ := List.mem_filter.mp hbody
  have htree := h body hmem
  have hrows := (htree.shaped (of_decide_eq_true hname)).body rfl
  have hrow := htree.listed r hr
  refine ⟨hrows.frame (by decide) r hr, hrow, ?_⟩
  obtain ⟨kind, hkind, hmem⟩ := hrows r hr
  rcases List.mem_pair.mp hmem with rfl | rfl
  · rw [hrow.bare hkind (by decide)]
    exact List.forall_mem_nil _
  · exact ((hrow.shaped hkind).row rfl).frame (by decide)

theorem everywhere_listed {P : Value → Prop} (h : token.Everywhere P) :
    ∀ t ∈ listed token, t.Everywhere P :=
  fun _ ht => h.child (isChild_of_mem_listed ht)

theorem everywhere_tableHead {P : Value → Prop} (h : ∀ t ∈ parts, t.Everywhere P) :
    ∀ c ∈ tableHead parts, c.Everywhere P := by
  intro c hc
  obtain ⟨head, hhead, hc⟩ := List.mem_flatMap.mp hc
  have hbelow := everywhere_listed (h head (List.mem_of_mem_filter hhead))
  rw [headMembers] at hc
  split at hc
  next => cases hc
  next first rest heq =>
    rw [heq] at hbelow
    split at hc
    · exact everywhere_listed (hbelow first List.mem_cons_self) c hc
    · exact hbelow c hc

theorem everywhere_bodyRows {P : Value → Prop} (h : ∀ t ∈ parts, t.Everywhere P) :
    ∀ r ∈ bodyRows parts, r.Everywhere P := by
  intro r hr
  obtain ⟨body, hbody, hr⟩ := List.mem_flatMap.mp hr
  exact everywhere_listed (h body (List.mem_of_mem_filter hbody)) r hr

end Frame

section Kept

/-- What a token gives, with what is below it, is given by what it comes to. -/
def Kept (f g : Value → List α) (token : Value) : Prop :=
  ∀ outs, normalize token = .ok outs → outs.flatMap (gather g) = gather f token

/-- Each token gives as much as what it comes to gives, apart from what is below it; and what only
holds a table together gives nothing. -/
structure Matched (f g : Value → List α) : Prop where
  frame : ∀ t, Frame t → f t = []
  row : ∀ cells, g (branch "table_row" cells) = []
  cell : ∀ done, g (branch "table_cell" done) = []
  here : ∀ token outs, Tree Built token → normalize token = .ok outs →
    outs.flatMap g = f token

theorem kept_all (h : ∀ t ∈ tokens, Kept f g t) (hn : normalizeAll tokens = .ok outs) :
    outs.flatMap (gather g) = tokens.flatMap (gather f) := by
  induction tokens generalizing outs with
  | nil =>
    rw [normalizeAll] at hn
    cases hn
    rfl
  | cons token tokens ih =>
    obtain ⟨hhere, hmore⟩ := List.forall_mem_cons.mp h
    rw [normalizeAll] at hn
    obtain ⟨here, hh, hn⟩ := exists_of_bind hn
    obtain ⟨more, hm, hn⟩ := exists_of_bind hn
    cases hn
    rw [List.flatMap_append, List.flatMap_cons, hhere here hh, ih hmore hm]

theorem gather_frame (hm : Matched f g) (ht : Frame t) :
    gather f t = (listed t).flatMap (gather f) := by
  rw [gather_eq, hm.frame t ht, List.nil_append]

theorem flatMap_blank (hm : Matched f g) (h : ∀ t ∈ tokens, Tree Built t)
    (hblank : Mixed [] tokens) : tokens.flatMap (gather f) = [] := by
  rw [List.flatMap_eq_nil_iff]
  intro t ht
  obtain ⟨kind, hname, hkind⟩ := hblank t ht
  rw [List.mem_singleton.mp hkind] at hname
  rw [gather_frame hm ⟨_, hname, by decide⟩, (h t ht).bare hname (by decide)]
  rfl

theorem gather_head (hm : Matched f g) (h : Tree Built head)
    (hname : nameOf head = some "table_head") :
    gather f head = (headMembers head).flatMap (gather f) := by
  rw [gather_frame hm ⟨_, hname, by decide⟩]
  rcases headMembers_cases h hname with ⟨hsame, -⟩ | ⟨row, after, heq, hrow, hafter, hsame⟩
  · rw [hsame]
  · have hbelow := h.listed
    rw [heq] at hbelow
    rw [heq, hsame, List.flatMap_cons, gather_frame hm ⟨_, hrow, by decide⟩,
      flatMap_blank hm (List.forall_mem_cons.mp hbelow).2 hafter, List.append_nil]

theorem flatMap_bodies (hm : Matched f g) (h : ∀ t ∈ parts, Tree Built t)
    (hbodies : Mixed ["table_body"] parts) :
    parts.flatMap (gather f) = (bodyRows parts).flatMap (gather f) := by
  induction parts with
  | nil => rfl
  | cons part parts ih =>
    obtain ⟨hpart, hmore⟩ := List.forall_mem_cons.mp h
    obtain ⟨⟨kind, hname, hkind⟩, hbodies⟩ := mixed_cons.mp hbodies
    rw [List.flatMap_cons, ih hmore hbodies, bodyRows_cons hname, List.flatMap_append]
    rcases List.mem_pair.mp hkind with rfl | rfl
    · rw [gather_frame hm ⟨_, hname, by decide⟩, hpart.bare hname (by decide)]
      rfl
    · rw [gather_frame hm ⟨_, hname, by decide⟩, if_pos rfl]

/-- The parts of a table give what the cells of its head give and then what its rows give. -/
theorem flatMap_parts (hm : Matched f g) (h : ∀ t ∈ parts, Tree Built t)
    (hparts : TableParts parts) :
    parts.flatMap (gather f) =
      (tableHead parts).flatMap (gather f) ++ (bodyRows parts).flatMap (gather f) := by
  obtain ⟨before, head, after, rfl, hblank, hname, hbodies, hmembers, hrows⟩ := hparts.members
  obtain ⟨hbefore, hrest⟩ := List.forall_mem_append.mp h
  obtain ⟨hhead, hafter⟩ := List.forall_mem_cons.mp hrest
  rw [hmembers, hrows, List.flatMap_append, List.flatMap_cons, flatMap_blank hm hbefore hblank,
    gather_head hm hhead hname, flatMap_bodies hm hafter hbodies, List.nil_append]

theorem flatMap_cells (hm : Matched f g) (h : List.Forall₂ CellOf cells outs)
    (hcells : ∀ c ∈ cells, Frame c ∧ ∀ t ∈ listed c, Kept f g t) :
    outs.flatMap (gather g) = cells.flatMap (gather f) := by
  induction h with
  | nil => rfl
  | @cons cell out cells outs hcell _ ih =>
    obtain ⟨⟨hframe, hkept⟩, hmore⟩ := List.forall_mem_cons.mp hcells
    obtain ⟨done, hdone, rfl⟩ := hcell
    rw [List.flatMap_cons, List.flatMap_cons, ih hmore, gather_frame hm hframe,
      ← kept_all hkept hdone, gather_eq, hm.cell]
    rfl

theorem flatMap_rows (hm : Matched f g) (h : List.Forall₂ RowOf rows outs)
    (hrows : ∀ r ∈ rows, Frame r ∧ ∀ c ∈ listed r, Frame c ∧ ∀ t ∈ listed c, Kept f g t) :
    outs.flatMap (gather g) = rows.flatMap (gather f) := by
  induction h with
  | nil => rfl
  | @cons row out rows outs hrow _ ih =>
    obtain ⟨⟨hframe, hcells⟩, hmore⟩ := List.forall_mem_cons.mp hrows
    obtain ⟨cells, hcells', rfl⟩ := hrow
    rw [List.flatMap_cons, List.flatMap_cons, ih hmore, gather_frame hm hframe,
      ← flatMap_cells hm hcells' hcells, gather_eq, hm.row]
    rfl

/-- What the parts of a table give is given by the rows that they come to. -/
theorem flatMap_table (hm : Matched f g) (h : ∀ t ∈ parts, Tree Built t)
    (hparts : TableParts parts) (hbelow : ∀ t ∈ parts, t.Everywhere (Kept f g))
    (hn : tableParts [] [] parts = .ok (align, rows)) :
    rows.flatMap (gather g) = parts.flatMap (gather f) := by
  obtain ⟨-, header, body, rfl, hheader, hbody⟩ :=
    table_of_parts (fun t ht => (h t ht).readable.plain) hparts hn
  have hkept {t : Value} (ht : t.Everywhere (Kept f g)) : ∀ u ∈ listed t, Kept f g u :=
    fun u hu => (everywhere_listed ht u hu).self
  have hcells : ∀ c ∈ tableHead parts, Frame c ∧ ∀ t ∈ listed c, Kept f g t :=
    fun c hc => ⟨(frame_of_mem_tableHead h c hc).1, hkept (everywhere_tableHead hbelow c hc)⟩
  have hrows : ∀ r ∈ bodyRows parts, Frame r ∧
      ∀ c ∈ listed r, Frame c ∧ ∀ t ∈ listed c, Kept f g t := by
    intro r hr
    obtain ⟨hframe, -, hcells⟩ := frame_of_mem_bodyRows h r hr
    have hwithin := everywhere_listed (everywhere_bodyRows hbelow r hr)
    exact ⟨hframe, fun c hc => ⟨hcells c hc, hkept (hwithin c hc)⟩⟩
  rw [flatMap_parts hm h hparts, ← flatMap_cells hm hheader hcells,
    ← flatMap_rows hm hbody hrows, List.flatMap_cons, gather_eq, hm.row]
  rfl

/-- What a token gives is kept if what the tokens within its children give is kept. -/
theorem Matched.kept (hm : Matched f g) (h : Tree Built token)
    (hbelow : ∀ t ∈ listed token, t.Everywhere (Kept f g)) : Kept f g token := by
  intro outs hn
  have hhere := hm.here token outs h hn
  rw [gather_eq]
  cases normalize_step h hn with
  | blank hname =>
    rw [h.bare hname (by decide), ← hhere]
    rfl
  | table hname hparts =>
    rw [List.flatMap_singleton] at hhere ⊢
    rw [gather_eq, hhere, ← flatMap_table hm h.listed ((h.shaped hname).table rfl) hbelow hparts]
    rfl
  | shown hname hkind hshown =>
    rw [List.flatMap_singleton] at hhere ⊢
    rw [gather_eq, hhere, kept_all (fun t ht => (hbelow t ht).self) hshown.below]

/-- What the tokens of a document give is kept everywhere. -/
theorem Matched.everywhere (hm : Matched f g) (h : Tree Built token) :
    token.Everywhere (Kept f g) := by
  induction h with
  | @object fields here list below ih =>
    have htree : Tree Built (.object fields) := .object here list below
    have hbelow : ∀ t ∈ listed (.object fields), t.Everywhere (Kept f g) := by
      intro t ht
      obtain ⟨fields', items, hfields, hitems, hmem⟩ := isChild_of_mem_listed ht
      cases hfields
      exact ih items (mem_of_lookup hitems) t hmem
    exact .intro (hm.kept htree hbelow) fun t ht => hbelow t (mem_listed_of_isChild ht)

end Kept

section Content

/-- A text of a document: the kind of its token, and the text. -/
structure Leaf where
  kind : String
  raw : String
  deriving DecidableEq, Repr

/-- A text under its rendered name; code loses its last line end. -/
def Leaf.shown (leaf : Leaf) : Leaf := ⟨renamed leaf.kind, settled (renamed leaf.kind) leaf.raw⟩

/-- The text of a token, if its kind is one of those with text of their own. -/
def leafIn (kinds : List String) (token : Value) : List Leaf :=
  match nameOf token with
  | some kind => if kind ∈ kinds then [⟨kind, rawOf token⟩] else []
  | none => []

/-- The texts of a document, in its order. -/
def sourceLeaves : Value → List Leaf := gather (leafIn leafKinds)

/-- The texts of a document under rendered names, in its order. -/
def shownLeaves : Value → List Leaf := gather (leafIn (leafKinds.map renamed))

/-- A table: an alignment for each cell of its header, and its rows of cells with their texts. -/
structure Grid where
  align : List Value
  rows : List (List (List Leaf))

/-- A table with its texts under rendered names. -/
def Grid.shown (grid : Grid) : Grid :=
  ⟨grid.align, grid.rows.map (·.map (·.map Leaf.shown))⟩

/-- The texts of each cell of a row. -/
def cellLeaves (leaves : Value → List Leaf) (cells : List Value) : List (List Leaf) :=
  cells.map fun cell => (listed cell).flatMap leaves

/-- A table of a document: its header, and the rows of its bodies. -/
def sourceGrid (token : Value) : List Grid :=
  let parts := listed token
  if nameOf token = some "table" then
    [⟨(tableHead parts).map declaredAlign, cellLeaves sourceLeaves (tableHead parts) ::
      (bodyRows parts).map fun row => cellLeaves sourceLeaves (listed row)⟩]
  else []

/-- The alignments that a table lists. -/
def listedAlign (token : Value) : List Value :=
  match token.attr "align" .null with
  | .ok (.list align) => align
  | _ => []

/-- A table in the form of the renderers. -/
def shownGrid (token : Value) : List Grid :=
  if nameOf token = some "table" then
    [⟨listedAlign token, (listed token).map fun row => cellLeaves shownLeaves (listed row)⟩]
  else []

@[simp] theorem leafIn_leaf (kinds : List String) (kind raw : String) :
    leafIn kinds (leaf kind raw) = if kind ∈ kinds then [⟨kind, raw⟩] else [] := rfl

@[simp] theorem leafIn_branch (kinds : List String) (kind : String) (tokens : List Value) :
    leafIn kinds (branch kind tokens) = if kind ∈ kinds then [⟨kind, ""⟩] else [] := rfl

theorem leafIn_of_name {kinds : List String} (hname : nameOf t = some kind) :
    leafIn kinds t = if kind ∈ kinds then [⟨kind, rawOf t⟩] else [] := by
  rw [leafIn, hname]

/-- Each text of a document has a token of its own in the form of the renderers. -/
theorem matched_leaves :
    Matched (fun t => (leafIn leafKinds t).map Leaf.shown) (leafIn (leafKinds.map renamed)) where
  frame t ht := by
    obtain ⟨kind, hname, hkind⟩ := ht
    have hnone : ∀ kind ∈ frameKinds, kind ∉ leafKinds := by decide
    rw [leafIn_of_name hname, if_neg (hnone kind hkind)]
    rfl
  row cells := by
    rw [leafIn_branch]
    exact if_neg (by decide)
  cell done := by
    rw [leafIn_branch]
    exact if_neg (by decide)
  here token outs h hn := by
    cases normalize_step h hn with
    | blank hname =>
      rw [leafIn_of_name hname, if_neg (by decide)]
      rfl
    | @table align rows hname hparts =>
      have hout : nameOf (markedBranch "table" [("align", .list align)] rows) = some "table" := rfl
      rw [List.flatMap_singleton, leafIn_of_name hname, leafIn_of_name hout, if_neg (by decide),
        if_neg (by decide)]
      rfl
    | @shown kind out hname hkind hshown =>
      have hkinds : ∀ kind ∈ documentKinds,
          (kind ∈ leafKinds ↔ renamed kind ∈ leafKinds.map renamed) := by decide
      have hiff := hkinds kind (h.known hname)
      rw [List.flatMap_singleton, leafIn_of_name hname, leafIn_of_name hshown.called]
      by_cases hleaf : kind ∈ leafKinds
      · rw [if_pos hleaf, if_pos (hiff.mp hleaf), hshown.raw (hiff.mp hleaf)]
        rfl
      · rw [if_neg hleaf, if_neg fun hin => hleaf (hiff.mpr hin)]
        rfl

/-- The texts of tokens are kept in their order. -/
theorem leaves_kept (h : ∀ t ∈ tokens, Tree Built t) (hn : normalizeAll tokens = .ok outs) :
    outs.flatMap shownLeaves = (tokens.flatMap sourceLeaves).map Leaf.shown := by
  have hkept := kept_all (fun t ht => (matched_leaves.everywhere (h t ht)).self) hn
  rw [shownLeaves, hkept, sourceLeaves, List.map_flatMap]
  exact List.flatMap_congr fun t _ => gather_map Leaf.shown _ t

theorem cellLeaves_kept (h : ∀ c ∈ cells, Tree Built c) (hcells : List.Forall₂ CellOf cells outs) :
    cellLeaves shownLeaves outs = (cellLeaves sourceLeaves cells).map (·.map Leaf.shown) := by
  induction hcells with
  | nil => rfl
  | @cons cell out cells outs hcell _ ih =>
    obtain ⟨hhere, hmore⟩ := List.forall_mem_cons.mp h
    obtain ⟨done, hdone, rfl⟩ := hcell
    have hcell : (listed (branch "table_cell" done)).flatMap shownLeaves =
        ((listed cell).flatMap sourceLeaves).map Leaf.shown := leaves_kept hhere.listed hdone
    have hrest := ih hmore
    rw [cellLeaves, cellLeaves] at hrest
    rw [cellLeaves, cellLeaves, List.map_cons, List.map_cons, List.map_cons, hcell, hrest]

theorem rowLeaves_kept (h : ∀ r ∈ rows, Tree Built r) (hrows : List.Forall₂ RowOf rows outs) :
    outs.map (fun row => cellLeaves shownLeaves (listed row)) =
      (rows.map fun row => cellLeaves sourceLeaves (listed row)).map
        (·.map (·.map Leaf.shown)) := by
  induction hrows with
  | nil => rfl
  | @cons row out rows outs hrow _ ih =>
    obtain ⟨hhere, hmore⟩ := List.forall_mem_cons.mp h
    obtain ⟨cells, hcells, rfl⟩ := hrow
    have hrow : cellLeaves shownLeaves (listed (branch "table_row" cells)) =
        (cellLeaves sourceLeaves (listed row)).map (·.map Leaf.shown) :=
      cellLeaves_kept hhere.listed hcells
    rw [List.map_cons, List.map_cons, List.map_cons, ih hmore, hrow]

theorem sourceGrid_of_ne (hname : nameOf t = some kind) (hkind : kind ≠ "table") :
    sourceGrid t = [] := by
  rw [sourceGrid, hname]
  exact if_neg fun h => hkind (Option.some.inj h)

theorem shownGrid_of_ne (hname : nameOf t = some kind) (hkind : kind ≠ "table") :
    shownGrid t = [] := by
  rw [shownGrid, hname]
  exact if_neg fun h => hkind (Option.some.inj h)

theorem shownGrid_table (align header body : List Value) :
    shownGrid (markedBranch "table" [("align", .list align)] (branch "table_row" header :: body)) =
      [⟨align, cellLeaves shownLeaves header ::
        body.map fun row => cellLeaves shownLeaves (listed row)⟩] := if_pos rfl

/-- Each table of a document is a table in the form of the renderers, with its cells and rows. -/
theorem matched_grids : Matched (fun t => (sourceGrid t).map Grid.shown) shownGrid where
  frame t ht := by
    obtain ⟨kind, hname, hkind⟩ := ht
    have hkinds : ∀ kind ∈ frameKinds, kind ≠ "table" := by decide
    rw [sourceGrid_of_ne hname (hkinds kind hkind)]
    rfl
  row cells := shownGrid_of_ne (nameOf_branch _ cells) (by decide)
  cell done := shownGrid_of_ne (nameOf_branch _ done) (by decide)
  here token outs h hn := by
    cases normalize_step h hn with
    | blank hname =>
      rw [sourceGrid_of_ne hname (by decide)]
      rfl
    | @table align rows hname hparts =>
      obtain ⟨rfl, header, body, rfl, hheader, hbody⟩ :=
        table_of_parts (fun t ht => (h.listed t ht).readable.plain) ((h.shaped hname).table rfl)
          hparts
      have hcells := cellLeaves_kept (fun c hc => (frame_of_mem_tableHead h.listed c hc).2) hheader
      have hrows := rowLeaves_kept (fun r hr => (frame_of_mem_bodyRows h.listed r hr).2.1) hbody
      rw [List.flatMap_singleton, sourceGrid, if_pos hname, shownGrid_table, hcells, hrows]
      rfl
    | @shown kind out hname hkind hshown =>
      have hkinds : ∀ kind ∈ documentKinds, kind ≠ "table" → renamed kind ≠ "table" := by decide
      have hother := hkinds kind (h.known hname) hkind
      rw [List.flatMap_singleton, sourceGrid_of_ne hname hkind,
        shownGrid_of_ne hshown.called hother]
      rfl

/-- The tables among tokens are kept in their order. -/
theorem grids_kept (h : ∀ t ∈ tokens, Tree Built t) (hn : normalizeAll tokens = .ok outs) :
    outs.flatMap (gather shownGrid) = (tokens.flatMap (gather sourceGrid)).map Grid.shown := by
  have hkept := kept_all (fun t ht => (matched_grids.everywhere (h t ht)).self) hn
  rw [hkept, List.map_flatMap]
  exact List.flatMap_congr fun t _ => gather_map Grid.shown _ t

/-- A table with a header that has a cell for each alignment. -/
def Grid.Headed (grid : Grid) : Prop :=
  ∃ header body, grid.rows = header :: body ∧ grid.align.length = header.length

theorem headed_of_mem_sourceGrid {grid : Grid} (h : grid ∈ sourceGrid t) : grid.shown.Headed := by
  rw [sourceGrid] at h
  split at h
  · rw [List.mem_singleton.mp h]
    refine ⟨_, _, rfl, ?_⟩
    simp [Grid.shown, cellLeaves]
  · cases h

/-- The tokens of a document can be brought into their form, and nothing that they say is lost: the
texts follow one another as before, code without its last line end; and each table keeps its header
and its rows, cell by cell, with one alignment for each cell of the header. -/
theorem normalizeAll_keeps (h : ∀ t ∈ tokens, Tree Built t) :
    ∃ outs, normalizeAll tokens = .ok outs ∧
      outs.flatMap shownLeaves = (tokens.flatMap sourceLeaves).map Leaf.shown ∧
      outs.flatMap (gather shownGrid) = (tokens.flatMap (gather sourceGrid)).map Grid.shown ∧
      ∀ grid ∈ outs.flatMap (gather shownGrid), grid.Headed := by
  obtain ⟨outs, hn, -⟩ := normalizeAll_gives tokens fun t ht => (h t ht).readable
  have hgrids := grids_kept h hn
  refine ⟨outs, hn, leaves_kept h hn, hgrids, ?_⟩
  intro grid hgrid
  rw [hgrids] at hgrid
  obtain ⟨source, hsource, rfl⟩ := List.mem_map.mp hgrid
  obtain ⟨token, -, hmem⟩ := List.mem_flatMap.mp hsource
  obtain ⟨t, ht⟩ := exists_of_mem_gather token hmem
  exact headed_of_mem_sourceGrid ht

/-- An image inside a paragraph, code that ends in two line ends, and a table whose head has its
cells in a row, with blank lines in all places. -/
def interwoven : List Value :=
  [branch "paragraph"
      [leaf "text" "a", branch "image" [leaf "text" "b"], leaf "inline_html" "<br>"],
    leaf "block_code" "c\n\n",
    branch "table" [branch "blank_line" [],
      branch "table_head"
        [branch "blank_line" [], branch "table_row" [branch "table_cell" [leaf "text" "h"]]],
      branch "table_body"
        [branch "table_row" [branch "blank_line" [], branch "table_cell" [leaf "codespan" "x"]],
          branch "blank_line" []]],
    branch "blank_line" []]

theorem built_interwoven : ∀ t ∈ interwoven, Tree Built t := by
  have htext (raw : String) : Tree Built (leaf "text" raw) := built_leaf (by decide) raw
  have hhtml : Tree Built (leaf "inline_html" "<br>") := built_leaf (by decide) _
  have hspan : Tree Built (leaf "codespan" "x") := built_leaf (by decide) _
  have hcode : Tree Built (leaf "block_code" "c\n\n") := built_leaf (by decide) _
  have hblank : Tree Built (branch "blank_line" []) := built_empty (by decide)
  have hcell (t : Value) (ht : Tree Built t) : Tree Built (branch "table_cell" [t]) :=
    built_other (by decide) (List.forall_mem_singleton.mpr ht)
  simp only [interwoven, List.forall_mem_cons]
  refine ⟨built_other (by decide) ?_, hcode, built_table ⟨[_], _, [_], rfl, ?_, rfl, ?_⟩ ?_,
    hblank, List.forall_mem_nil _⟩
  · have himage : Tree Built (branch "image" [leaf "text" "b"]) :=
      built_other (by decide) (by simp [htext])
    simp [htext, himage, hhtml]
  · simp [Mixed]
  · simp [Mixed]
  · simp only [List.forall_mem_cons]
    refine ⟨hblank, built_head (.inr ⟨[_], _, [], rfl, ?_, rfl, ?_⟩) ?_, built_body ?_ ?_,
      List.forall_mem_nil _⟩
    · simp [Mixed]
    · simp [Mixed]
    · have hcells := List.forall_mem_singleton.mpr (hcell _ (htext "h"))
      have hrow := built_row (by simp [Mixed]) hcells
      simp [hblank, hrow]
    · simp [Mixed]
    · have hrow := built_row (by simp [Mixed]) (List.forall_mem_cons.mpr
        ⟨hblank, List.forall_mem_singleton.mpr (hcell _ hspan)⟩)
      simp [hblank, hrow]

theorem normalizeAll_keeps_interwoven :
    ∃ outs, normalizeAll interwoven = .ok outs ∧
      outs.flatMap shownLeaves = [⟨"text", "a"⟩, ⟨"text", "b"⟩, ⟨"html_inline", "<br>"⟩,
        ⟨"block_code", "c\n"⟩, ⟨"text", "h"⟩, ⟨"codespan", "x"⟩] ∧
      ∀ grid ∈ outs.flatMap (gather shownGrid), grid.Headed := by
  obtain ⟨outs, hn, hleaves, -, hheaded⟩ := normalizeAll_keeps built_interwoven
  have hsource : interwoven.flatMap sourceLeaves = [⟨"text", "a"⟩, ⟨"text", "b"⟩,
      ⟨"inline_html", "<br>"⟩, ⟨"block_code", "c\n\n"⟩, ⟨"text", "h"⟩, ⟨"codespan", "x"⟩] := by
    simp [interwoven, sourceLeaves, leafKinds]
  refine ⟨outs, hn, ?_, hheaded⟩
  rw [hleaves, hsource]
  decide

end Content

end Typeset.Token
