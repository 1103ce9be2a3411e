import Typeset.Proofs.Token.Canonical
import Typeset.Proofs.Token.Within

/-! What tokens in the form of the renderers are called, whatever tree they come from: they have one
of the rendered names, or the kind that they had before and no attributes. -/

namespace Typeset.Token

open Failure

variable {token out : Value} {outs parts rows children done : List Value} {name : String}
  {fields head : Fields} {K : Value → Prop}

/-- A token with one of the rendered names, or with a kind of the tree that it comes from. -/
structure Headed (K : Value → Prop) (fields : Fields) : Prop where
  kind : (∃ name, fields.lookup "type" = some (.str name) ∧ isForeign name = false) ∨
    ∃ kind, fields.lookup "type" = some kind ∧ K kind ∧ fields.lookup "attrs" = none

/-- What stands below a token in its form comes from what stood below it before. -/
inductive Formed (token : Value) : List Value → Prop
  | plain {children done : List Value} (hc : presentChildren token = .ok children)
    (hd : normalizeAll children = .ok done) : Formed token done
  | table {parts align rows : List Value} (hp : token.children = .ok parts)
    (ht : tableParts [] [] parts = .ok (align, rows)) : Formed token rows

/-- The fields for the children of a token, once they are in their form. -/
def ChildrenFormed (token : Value) (fields : Fields) : Prop :=
  ∀ v, fields.lookup "children" = some v → ∃ done, v = .list done ∧ Formed token done

section Fields

theorem attrsField_lookup (h : attrsField token = .ok head) :
    head.lookup "children" = none := by
  obtain ⟨attrs, -, h⟩ := exists_of_bind h
  split at h
  · obtain ⟨copy, -, h⟩ := exists_of_bind h
    cases h
    rfl
  · cases h
    rfl

theorem rawField_lookup (h : rawField token = .ok head) :
    head.lookup "children" = none ∧ head.lookup "attrs" = none := by
  obtain ⟨raw, -, h⟩ := exists_of_bind h
  split at h
  · cases h
    exact ⟨rfl, rfl⟩
  · cases h
    exact ⟨rfl, rfl⟩

theorem childrenFormed_of_none (h : fields.lookup "children" = none) :
    ChildrenFormed token fields := by
  intro v hv
  rw [h] at hv
  cases hv

theorem ChildrenFormed.append (h : ChildrenFormed token fields)
    (hhead : head.lookup "children" = none) : ChildrenFormed token (head ++ fields) := by
  intro v hv
  rw [List.lookup_append, hhead, Option.none_or] at hv
  exact h v hv

theorem ChildrenFormed.append_of_none (h : ChildrenFormed token fields)
    (hhead : head.lookup "children" = none) : ChildrenFormed token (fields ++ head) := by
  intro v hv
  rw [List.lookup_append, hhead, Option.or_none] at hv
  exact h v hv

end Fields

section Named

variable {below : Except Failure Fields}

/-- A token under a rendered name. -/
def Called (token : Value) (name : String) (out : Value) : Prop :=
  ∃ fields, out = .object (("type", .str name) :: fields) ∧ ChildrenFormed token fields

theorem codeBlock_called (h : codeBlock token = .ok out) : Called token "block_code" out := by
  obtain ⟨attrs, -, h⟩ := exists_of_bind h
  obtain ⟨raw, -, h⟩ := exists_of_bind h
  obtain ⟨text, -, h⟩ := exists_of_bind h
  obtain ⟨info, -, h⟩ := exists_of_bind h
  obtain ⟨line, -, h⟩ := exists_of_bind h
  cases h
  exact ⟨_, rfl, childrenFormed_of_none rfl⟩

theorem inlineMath_called (h : inlineMath token = .ok out) : Called token "inline_math" out := by
  obtain ⟨raw, -, h⟩ := exists_of_bind h
  obtain ⟨attrs, -, h⟩ := exists_of_bind h
  obtain ⟨span, -, h⟩ := exists_of_bind h
  have hspan (v : Value) : Called token "inline_math" (.object
      [("type", .str "inline_math"), ("raw", raw), ("attrs", .object [("span", v)])]) :=
    ⟨_, rfl, childrenFormed_of_none rfl⟩
  dsimp only at h
  split at h
  · obtain ⟨count, -, h⟩ := exists_of_bind h
    cases h
    exact hspan _
  · cases h
    exact hspan _

theorem blockToken_called (h : blockToken name token below = .ok out)
    (hbelow : ∀ fields, below = .ok fields → ChildrenFormed token fields) :
    Called token name out := by
  obtain ⟨attrs, hattrs, h⟩ := exists_of_bind h
  have hnone := attrsField_lookup hattrs
  split at h
  · obtain ⟨raw, -, h⟩ := exists_of_bind h
    cases h
    exact ⟨_, rfl, (childrenFormed_of_none rfl).append hnone⟩
  · split at h
    · cases h
      exact ⟨_, rfl, childrenFormed_of_none hnone⟩
    · obtain ⟨fields, hfields, h⟩ := exists_of_bind h
      cases h
      exact ⟨_, rfl, (hbelow fields hfields).append hnone⟩

theorem inlineToken_called (h : inlineToken name token below = .ok out)
    (hbelow : ∀ fields, below = .ok fields → ChildrenFormed token fields) :
    Called token name out := by
  rw [inlineToken] at h
  split at h
  · obtain ⟨raw, hraw, h⟩ := exists_of_bind h
    cases h
    exact ⟨_, rfl, childrenFormed_of_none (rawField_lookup hraw).1⟩
  · obtain ⟨attrs, hattrs, h⟩ := exists_of_bind h
    obtain ⟨fields, hfields, h⟩ := exists_of_bind h
    split at h
    · obtain ⟨alt, -, h⟩ := exists_of_bind h
      extract_lets shown at h
      split at h
      · cases h
        exact ⟨_, rfl, (hbelow fields hfields).append_of_none rfl⟩
      · cases h
        exact ⟨_, rfl, hbelow fields hfields⟩
    · cases h
      exact ⟨_, rfl, (hbelow fields hfields).append (attrsField_lookup hattrs)⟩

end Named

theorem headed_called (hname : isForeign name = false) (h : Called token name out) :
    ∃ fields, [out] = [.object fields] ∧ Headed K fields ∧ ChildrenFormed token fields := by
  obtain ⟨fields, rfl, hformed⟩ := h
  exact ⟨_, rfl, ⟨.inl ⟨name, rfl, hname⟩⟩, hformed⟩

/-- What one token comes to: nothing, or one token under a rendered name or its own kind. -/
theorem normalize_cases (h : normalize token = .ok outs) :
    outs = [] ∨ ∃ fields, outs = [.object fields] ∧
      Headed (fun kind => Token.kind token = .ok kind) fields ∧ ChildrenFormed token fields := by
  rw [normalize] at h
  obtain ⟨kind, hkind, h⟩ := exists_of_bind h
  extract_lets children at h
  have hchildren : ∀ fields, children = .ok fields →
      ChildrenFormed token fields ∧ fields.lookup "attrs" = none := by
    intro fields hfields
    subst children
    split at hfields
    · cases hfields
    next items hitems =>
      obtain ⟨done, hdone, hfields⟩ := exists_of_bind hfields
      obtain ⟨c, -, hfields⟩ := exists_of_bind hfields
      split at hfields
      · cases hfields
        refine ⟨fun v hv => ?_, rfl⟩
        cases hv
        exact ⟨done, rfl, .plain hitems hdone⟩
      · cases hfields
        exact ⟨childrenFormed_of_none rfl, rfl⟩
  clear_value children
  obtain ⟨key, hkey, h⟩ := exists_of_bind h
  split at h
  · cases h
    exact .inl rfl
  · split at h
    · cases h
    next parts hparts =>
      obtain ⟨⟨align, rows⟩, htable, h⟩ := exists_of_bind h
      cases h
      refine .inr ⟨_, rfl, ⟨.inl ⟨"table", rfl, rfl⟩⟩, fun v hv => ?_⟩
      cases hv
      exact ⟨rows, rfl, .table hparts htable⟩
  · obtain ⟨out, hout, h⟩ := exists_of_bind h
    cases h
    exact .inr (headed_called rfl (codeBlock_called hout))
  · obtain ⟨out, hout, h⟩ := exists_of_bind h
    cases h
    exact .inr (headed_called rfl (inlineMath_called hout))
  · split at h
    next name hblock =>
      obtain ⟨out, hout, h⟩ := exists_of_bind h
      cases h
      have hcalled := blockToken_called hout fun fields hf => (hchildren fields hf).1
      exact .inr (headed_called (blockName_free hblock) hcalled)
    next name _ hinline =>
      obtain ⟨out, hout, h⟩ := exists_of_bind h
      cases h
      have hcalled := inlineToken_called hout fun fields hf => (hchildren fields hf).1
      exact .inr (headed_called (inlineName_free hinline) hcalled)
    next =>
      obtain ⟨raw, hraw, h⟩ := exists_of_bind h
      obtain ⟨fields, hfields, h⟩ := exists_of_bind h
      cases h
      obtain ⟨hraw, hnone⟩ := rawField_lookup hraw
      obtain ⟨hformed, hattrs⟩ := hchildren fields hfields
      refine .inr ⟨_, rfl, ⟨.inr ⟨kind, rfl, hkind, ?_⟩⟩, hformed.append hraw⟩
      change (raw ++ fields).lookup "attrs" = none
      rw [List.lookup_append, hnone, hattrs]
      rfl

/-- A token in its form is headed by a rendered name, or by a kind of the tree before. -/
def Named (K : Value → Prop) (token : Value) : Prop :=
  ∃ fields, token = .object fields ∧ Headed K fields

/-- The kind of a token, if it can have one, is of a class. -/
def KindIn (K : Value → Prop) (token : Value) : Prop :=
  ∀ kind, Token.kind token = .ok kind → K kind

theorem Headed.mono {L : Value → Prop} (h : Headed K fields) (hkl : ∀ kind, K kind → L kind) :
    Headed L fields := by
  obtain hname | ⟨kind, hkind, hk, hattrs⟩ := h.kind
  · exact ⟨.inl hname⟩
  · exact ⟨.inr ⟨kind, hkind, hkl kind hk, hattrs⟩⟩

theorem named_branch (hname : isForeign name = false) (children : List Value) :
    Named K (branch name children) := ⟨_, rfl, ⟨.inl ⟨name, rfl, hname⟩⟩⟩

theorem children_of_presentChildren {t : Value} (h : presentChildren token = .ok children)
    (ht : t ∈ children) : token.children = .ok children := by
  obtain ⟨c, -, h⟩ := exists_of_bind h
  split at h
  · exact h
  · cases h
    cases ht

theorem everywhere_of_children {P : Value → Prop} (h : token.Everywhere P)
    (hc : token.children = .ok children) : ∀ t ∈ children, t.Everywhere P :=
  fun _ ht => h.child (Value.isChild_of_children hc ht)

theorem everywhere_of_presentChildren {P : Value → Prop} (h : token.Everywhere P)
    (hc : presentChildren token = .ok children) : ∀ t ∈ children, t.Everywhere P :=
  fun _ ht => everywhere_of_children h (children_of_presentChildren hc ht) _ ht

/-- The first part of a value, if it is an object, is an item of a list. -/
theorem exists_list_of_at? {v : Value} {i : Nat} (h : v.at? i = .ok (.object fields)) :
    ∃ items, v = .list items ∧ .object fields ∈ items := by
  cases v with
  | list items =>
    rw [Value.at?] at h
    split at h
    next found hfound =>
      cases h
      exact ⟨items, rfl, List.mem_of_getElem? hfound⟩
    next => cases h
  | str s =>
    rw [Value.at?] at h
    split at h <;> cases h
  | _ => cases h

theorem everywhere_of_headCells {P : Value → Prop} (h : token.Everywhere P)
    (hc : headCells token = .ok children) : ∀ t ∈ children, t.Everywhere P := by
  obtain ⟨cells, hcells, hbelow⟩ := exists_of_bind hc
  split at hbelow
  · obtain ⟨first, hfirst, hrow⟩ := exists_of_bind hbelow
    obtain ⟨kind, hkind, hread⟩ := exists_of_bind hrow
    split at hread
    · obtain ⟨fields, rfl⟩ : ∃ fields, first = .object fields := by
        cases first with
        | object fields => exact ⟨fields, rfl⟩
        | _ => cases hkind
      obtain ⟨items, rfl, hmem⟩ := exists_list_of_at? hfirst
      refine everywhere_of_children (h.child ?_) hread
      cases token with
      | object fields' =>
        rw [Value.field_object] at hcells
        cases hlookup : fields'.lookup "children" with
        | none =>
          rw [hlookup] at hcells
          cases hcells
          cases hmem
        | some v =>
          rw [hlookup] at hcells
          cases hcells
          exact ⟨fields', items, rfl, hlookup, hmem⟩
      | _ => cases hcells
    · exact everywhere_of_children h hread
  · exact everywhere_of_children h hbelow

mutual

theorem normalizeAll_everywhere :
    (tokens : List Value) → {outs : List Value} → normalizeAll tokens = .ok outs →
      (∀ t ∈ tokens, t.Everywhere (KindIn K)) → ∀ t ∈ outs, t.Everywhere (Named K)
  | [], outs, h, _ => by
    rw [normalizeAll] at h
    cases h
    exact List.forall_mem_nil _
  | token :: rest, outs, h, hk => by
    obtain ⟨hhere, hmore⟩ := List.forall_mem_cons.mp hk
    rw [normalizeAll] at h
    obtain ⟨here, hh, h⟩ := exists_of_bind h
    obtain ⟨more, hm, h⟩ := exists_of_bind h
    cases h
    exact List.forall_mem_append.mpr
      ⟨normalize_everywhere token hh hhere, normalizeAll_everywhere rest hm hmore⟩
termination_by tokens => sizeOf tokens

/-- All tokens in their form are headed by rendered names, or by kinds of the tree before. -/
theorem normalize_everywhere (token : Value) {outs : List Value} (h : normalize token = .ok outs)
    (hk : token.Everywhere (KindIn K)) : ∀ t ∈ outs, t.Everywhere (Named K) := by
  obtain rfl | ⟨fields, rfl, hheaded, hformed⟩ := normalize_cases h
  · exact List.forall_mem_nil _
  refine List.forall_mem_singleton.mpr (.intro ⟨fields, rfl, hheaded.mono hk.self⟩ ?_)
  rintro t ⟨fields', items, hfields, hitems, ht⟩
  cases hfields
  obtain ⟨done, hdone, hfrom⟩ := hformed _ hitems
  cases hdone
  cases hfrom with
  | plain hc hd =>
    have hsize := sizeOf_presentChildren_lt hc
    exact normalizeAll_everywhere _ hd (everywhere_of_presentChildren hk hc) t ht
  | table hp htable =>
    have hsize := Value.sizeOf_children_lt hp
    exact tableParts_everywhere _ htable (List.forall_mem_nil _) (everywhere_of_children hk hp) t ht
termination_by sizeOf token

theorem tableParts_everywhere {align rows align' rows' : List Value} :
    (parts : List Value) → tableParts align rows parts = .ok (align', rows') →
      (∀ t ∈ rows, t.Everywhere (Named K)) → (∀ t ∈ parts, t.Everywhere (KindIn K)) →
        ∀ t ∈ rows', t.Everywhere (Named K)
  | [], h, hrows, _ => by
    rw [tableParts] at h
    cases h
    exact hrows
  | part :: rest, h, hrows, hk => by
    obtain ⟨hhere, hmore⟩ := List.forall_mem_cons.mp hk
    rw [tableParts] at h
    obtain ⟨kind, -, h⟩ := exists_of_bind h
    split at h
    · split at h
      · cases h
      next cells hcells =>
        have hsize := sizeOf_headCells_lt hcells
        obtain ⟨align'', -, h⟩ := exists_of_bind h
        obtain ⟨row, hrow, h⟩ := exists_of_bind h
        have hcell := tableRow_everywhere cells hrow (everywhere_of_headCells hhere hcells)
        refine tableParts_everywhere rest h (List.forall_mem_append.mpr ⟨hrows, ?_⟩) hmore
        exact List.forall_mem_singleton.mpr
          (Value.everywhere_branch (named_branch rfl row) hcell)
    · split at h
      · split at h
        · cases h
        next body hbody =>
          have hsize := Value.sizeOf_children_lt hbody
          obtain ⟨more, hm, h⟩ := exists_of_bind h
          have hbelow := tableRows_everywhere body hm (everywhere_of_children hhere hbody)
          exact tableParts_everywhere rest h (List.forall_mem_append.mpr ⟨hrows, hbelow⟩) hmore
      · exact tableParts_everywhere rest h hrows hmore
termination_by parts => sizeOf parts

theorem tableRows_everywhere :
    (rows : List Value) → {outs : List Value} → tableRows rows = .ok outs →
      (∀ t ∈ rows, t.Everywhere (KindIn K)) → ∀ t ∈ outs, t.Everywhere (Named K)
  | [], outs, h, _ => by
    rw [tableRows] at h
    cases h
    exact List.forall_mem_nil _
  | row :: rest, outs, h, hk => by
    obtain ⟨hhere, hmore⟩ := List.forall_mem_cons.mp hk
    rw [tableRows] at h
    split at h
    · cases h
    next cells hcells =>
      have hsize := Value.sizeOf_children_lt hcells
      obtain ⟨here, hh, h⟩ := exists_of_bind h
      obtain ⟨more, hm, h⟩ := exists_of_bind h
      cases h
      have hcell := tableRow_everywhere cells hh (everywhere_of_children hhere hcells)
      exact List.forall_mem_cons.mpr ⟨Value.everywhere_branch (named_branch rfl here) hcell,
        tableRows_everywhere rest hm hmore⟩
termination_by rows => sizeOf rows

theorem tableRow_everywhere :
    (cells : List Value) → {outs : List Value} → tableRow cells = .ok outs →
      (∀ t ∈ cells, t.Everywhere (KindIn K)) → ∀ t ∈ outs, t.Everywhere (Named K)
  | [], outs, h, _ => by
    rw [tableRow] at h
    cases h
    exact List.forall_mem_nil _
  | cell :: rest, outs, h, hk => by
    obtain ⟨hhere, hmore⟩ := List.forall_mem_cons.mp hk
    rw [tableRow] at h
    split at h
    · cases h
    next children hchildren =>
      have hsize := Value.sizeOf_children_lt hchildren
      obtain ⟨here, hh, h⟩ := exists_of_bind h
      obtain ⟨more, hm, h⟩ := exists_of_bind h
      cases h
      have hbelow := normalizeAll_everywhere children hh (everywhere_of_children hhere hchildren)
      exact List.forall_mem_cons.mpr ⟨Value.everywhere_branch (named_branch rfl here) hbelow,
        tableRow_everywhere rest hm hmore⟩
termination_by cells => sizeOf cells

end

/-- Each token in its form is headed by a rendered name, or by the kind of one of the tokens that it
comes from. -/
theorem normalizeAll_named {tokens outs : List Value} (h : normalizeAll tokens = .ok outs) :
    ∀ out ∈ outs, Named (fun kind => ∃ t ∈ tokens, Token.kind t = .ok kind) out := by
  induction tokens generalizing outs with
  | nil =>
    rw [normalizeAll] at h
    cases h
    exact List.forall_mem_nil _
  | cons token rest ih =>
    rw [normalizeAll] at h
    obtain ⟨here, hh, h⟩ := exists_of_bind h
    obtain ⟨more, hm, h⟩ := exists_of_bind h
    cases h
    refine List.forall_mem_append.mpr ⟨?_, fun out hout => ?_⟩
    · obtain rfl | ⟨fields, rfl, hheaded, -⟩ := normalize_cases hh
      · exact List.forall_mem_nil _
      · exact List.forall_mem_singleton.mpr
          ⟨fields, rfl, hheaded.mono fun kind hkind => ⟨token, List.mem_cons_self, hkind⟩⟩
    · obtain ⟨fields, rfl, hheaded⟩ := ih hm out hout
      exact ⟨fields, rfl, hheaded.mono fun kind ⟨t, ht, hkind⟩ =>
        ⟨t, List.mem_cons_of_mem token ht, hkind⟩⟩

end Typeset.Token
