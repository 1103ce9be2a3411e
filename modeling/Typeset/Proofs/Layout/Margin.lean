import Typeset.Proofs.Markup.Rows
import Typeset.Proofs.Render.Form
import Typeset.Proofs.Render.Induction
import Typeset.Proofs.Render.Postcondition

/-! Where the rows of a rendered block begin: not before the margin of its level. An item has its
marker there, and all its other rows one level further in. -/

namespace Typeset.Layout

open Render Rendering Markup

variable {env : Environment} {active : List String} {token : Value} {parts : List String}
  {marker text : String} {level : Nat}

/-- Every row of a text begins with the margin of a level. -/
def Inside (level : Nat) (text : String) : Prop := ∀ row ∈ textRows text, margin level <+: row

/-- A row that begins an item: its marker alone, or with a blank behind it. -/
def OpensItem (marker : String) (row : List Char) : Prop :=
  row = marker.toList ∨ marker.toList ++ [' '] <+: row

instance (marker : String) (row : List Char) : Decidable (OpensItem marker row) :=
  inferInstanceAs (Decidable (_ ∨ _))

/-- The rows of an item: the first behind the margin, the others one level further in. -/
def ItemRows (marker : String) (level : Nat) (text : String) : Prop :=
  ∃ first rest, textRows text = (margin level ++ first) :: rest ∧ OpensItem marker first ∧
    ∀ row ∈ rest, margin (level + 1) <+: row

theorem margin_succ (level : Nat) : margin (level + 1) = margin level ++ unit := by
  rw [margin, List.replicate_succ', List.flatten_concat, margin]

theorem margin_isPrefix_succ (level : Nat) : margin level <+: margin (level + 1) := by
  rw [margin_succ]
  exact List.prefix_append _ _

theorem inside_indent (text : String) (level : Nat) : Inside level (indent text level) := by
  intro row hrow
  rw [textRows_indent, Int.toNat_natCast] at hrow
  obtain ⟨rest, -, rfl⟩ := List.mem_map.mp hrow
  exact List.prefix_append _ _

theorem Inside.outer (h : Inside (level + 1) text) : Inside level text :=
  fun row hrow => (margin_isPrefix_succ level).trans (h row hrow)

theorem inside_lines (hne : parts ≠ []) (h : ∀ part ∈ parts, Inside level part) :
    Inside level (lines parts) := by
  intro row hrow
  rw [textRows_lines hne] at hrow
  obtain ⟨part, hpart, hrow⟩ := List.mem_flatMap.mp hrow
  exact h part hpart row hrow

theorem ItemRows.inside (h : ItemRows marker level text) : Inside level text := by
  obtain ⟨first, rest, hrows, -, hrest⟩ := h
  intro row hrow
  rw [hrows] at hrow
  rcases List.mem_cons.mp hrow with rfl | hrow
  · exact List.prefix_append _ _
  · exact (margin_isPrefix_succ level).trans (hrest row hrow)

theorem textRows_itemLead {first : List Char} {more : List (List Char)}
    (h : textRows (marker ++ " " ++ text) = first :: more) :
    (itemLead marker text level).flatMap textRows =
      (margin level ++ first) :: more.map (margin (level + 1) ++ ·) := by
  have hrow : ∀ row ∈ first :: more, '\n' ∉ row := by
    rw [← h]
    exact newline_notMem_splitOn _
  obtain ⟨hfirst, hmore⟩ := List.forall_mem_cons.mp hrow
  have hlead : textRows (indent (String.ofList first) level) = [margin level ++ first] := by
    rw [textRows_indent, Int.toNat_natCast, textRows, String.toList_ofList,
      List.splitOn_eq_singleton hfirst]
    rfl
  have hindent : ((level : Int) + 1).toNat = level + 1 := by omega
  rw [textRows] at h
  unfold itemLead
  rw [h]
  cases more with
  | nil =>
    dsimp only
    rw [List.flatMap_singleton, hlead]
    rfl
  | cons next others =>
    dsimp only
    rw [List.flatMap_cons, hlead, List.flatMap_singleton, textRows_indent, hindent, textRows,
      String.toList_ofList, List.splitOn_intercalate '\n' hmore (by simp)]
    rfl

theorem itemLead_ne_nil (marker text : String) (level : Nat) : itemLead marker text level ≠ [] := by
  obtain ⟨first, more, hrows⟩ :=
    List.exists_cons_of_ne_nil (List.splitOn_ne_nil '\n' (marker ++ " " ++ text).toList)
  intro hnone
  have hlist := @textRows_itemLead marker text level first more hrows
  rw [hnone] at hlist
  cases hlist

/-- An item that follows its marker with a text. -/
theorem itemRows_lead (hmarker : '\n' ∉ marker.toList) (text : String)
    (h : ∀ part ∈ parts, Inside (level + 1) part) :
    ItemRows marker level (lines (itemLead marker text level ++ parts)) := by
  have hspaced : '\n' ∉ (marker ++ " ").toList := by simpa using hmarker
  obtain ⟨first, more, hrows⟩ := List.exists_cons_of_ne_nil (List.splitOn_ne_nil '\n' text.toList)
  have hlead : textRows (marker ++ " " ++ text) = ((marker ++ " ").toList ++ first) :: more := by
    rw [textRows_append_of_row hspaced, textRows, hrows]
    rfl
  have hne : itemLead marker text level ++ parts ≠ [] :=
    List.append_ne_nil_of_left_ne_nil (itemLead_ne_nil marker text level) parts
  refine ⟨(marker ++ " ").toList ++ first,
    more.map (margin (level + 1) ++ ·) ++ parts.flatMap textRows, ?_, .inr ?_, ?_⟩
  · rw [textRows_lines hne, List.flatMap_append, textRows_itemLead hlead]
    rfl
  · rw [String.toList_append]
    exact List.prefix_append _ _
  · intro row hrow
    rcases List.mem_append.mp hrow with hrow | hrow
    · obtain ⟨rest, -, rfl⟩ := List.mem_map.mp hrow
      exact List.prefix_append _ _
    · obtain ⟨part, hpart, hrow⟩ := List.mem_flatMap.mp hrow
      exact h part hpart row hrow

/-- An item that leaves its marker alone. -/
theorem itemRows_bare (hmarker : '\n' ∉ marker.toList)
    (h : ∀ part ∈ parts, Inside (level + 1) part) :
    ItemRows marker level (lines (indent marker level :: parts)) := by
  have hrow : textRows marker = [marker.toList] := List.splitOn_eq_singleton hmarker
  refine ⟨marker.toList, parts.flatMap textRows, ?_, .inl rfl, fun row hrow => ?_⟩
  · rw [textRows_lines (by simp), List.flatMap_cons, textRows_indent, Int.toNat_natCast, hrow]
    rfl
  · obtain ⟨part, hpart, hrow⟩ := List.mem_flatMap.mp hrow
    exact h part hpart row hrow

theorem itemRows_marker (hmarker : '\n' ∉ marker.toList) :
    ItemRows marker level (indent marker level) := by
  have hbare : ItemRows marker level (lines [indent marker level]) :=
    itemRows_bare hmarker (List.forall_mem_nil _)
  rwa [lines, String.intercalate_singleton] at hbare

theorem listMarker_eq (h : listMarker token = .ok marker) : marker = "+" ∨ marker = "-" := by
  obtain ⟨ordered, -, h⟩ := Failure.exists_of_bind h
  cases h
  split
  · exact .inl rfl
  · exact .inr rfl

theorem listMarker_yields (token : Value) :
    Yields (fun marker => '\n' ∉ marker.toList) (liftM (listMarker token) : Rendering String) := by
  refine yields_lift fun marker h => ?_
  rcases listMarker_eq h with rfl | rfl <;> decide

/-- Texts inside a margin, if they are not empty. -/
def InsideIfAny (level : Nat) (shown : Option String) : Prop :=
  ∀ text ∈ shown, text ≠ "" → Inside level text

theorem insideIfAny_none : InsideIfAny level none := by
  rintro _ ⟨⟩

theorem insideIfAny_of_inside (h : Inside level text) : InsideIfAny level (some text) := by
  rintro _ ⟨⟩ -
  exact h

/-- The levels at which the renderers lay out what they show. -/
def laidOut (env : Environment) : Property where
  inlines _ _ := True
  inlinesBelow _ _ := True
  inline _ _ := True
  footnoteReference _ _ := True
  paragraph _ _ := True
  cells _ _ := True
  rows _ _ := True
  row _ _ := True
  blocks active tokens indent := ∀ level : Nat, indent = level →
    Yields (fun parts => ∀ part ∈ parts, Inside level part) (blocks env active tokens indent)
  block active token indent := ∀ level : Nat, indent = level →
    Yields (InsideIfAny level) (block env active token indent)
  blockOf active form token indent := ∀ level : Nat, indent = level →
    Yields (InsideIfAny level) (blockOf env active form token indent)
  items active marker tokens indent := ∀ level : Nat, indent = level → '\n' ∉ marker.toList →
    Yields (fun parts => ∀ part ∈ parts, ItemRows marker level part)
      (items env active marker tokens indent)
  item active marker token indent := ∀ level : Nat, indent = level → '\n' ∉ marker.toList →
    Yields (ItemRows marker level) (item env active marker token indent)
  table active token indent := ∀ level : Nat, indent = level →
    Yields (InsideIfAny level) (table env active token indent)

theorem yields_indent {α : Type} {r : Rendering α} (f : α → String) :
    Yields (InsideIfAny level) (r >>= fun a => pure (some (indent (f a) level))) :=
  yields_bind fun _ => yields_pure (insideIfAny_of_inside (inside_indent _ _))

theorem inside_zero (text : String) : Inside 0 text := fun _ _ => List.nil_prefix

theorem indentValue_inside {v w : Value} (h : indentValue v (.int level) = .ok w)
    (hw : w.needText = .ok text) : Inside level text := by
  cases level with
  | zero => exact inside_zero text
  | succ n =>
    have hlevel : (Value.int (n + 1 : Nat)).truthy = true := by
      simp [Value.truthy]
      omega
    rw [indentValue, if_pos hlevel] at h
    obtain ⟨s, -, h⟩ := Failure.exists_of_bind h
    obtain rfl := Except.ok.inj h
    obtain rfl := Except.ok.inj hw
    exact inside_indent s (n + 1)

theorem codeBlock_inside (h : codeBlock token level = .ok text) : Inside level text := by
  obtain ⟨code, -, h⟩ := Failure.exists_of_bind h
  obtain ⟨info, -, h⟩ := Failure.exists_of_bind h
  obtain ⟨name, -, h⟩ := Failure.exists_of_bind h
  obtain ⟨fence, -, h⟩ := Failure.exists_of_bind h
  obtain ⟨shown, hshown, h⟩ := Failure.exists_of_bind h
  obtain ⟨body, hbody, h⟩ := Failure.exists_of_bind h
  obtain rfl := Except.ok.inj h
  refine inside_lines (by simp) ?_
  simp only [List.forall_mem_cons]
  exact ⟨inside_indent _ _, indentValue_inside hshown hbody, inside_indent _ _,
    List.forall_mem_nil _⟩

theorem quoteBlock_inside (body : String) (level : Nat) : Inside level (quoteBlock body level) := by
  have hdeeper : Inside level (indent body (level + 1)) := (inside_indent body (level + 1)).outer
  unfold quoteBlock
  dsimp only
  split
  · refine inside_lines (by simp) ?_
    simp only [List.forall_mem_cons]
    exact ⟨inside_indent _ _, inside_indent _ _, List.forall_mem_nil _⟩
  · refine inside_lines (by simp) ?_
    simp only [List.forall_mem_cons]
    exact ⟨inside_indent _ _, hdeeper, inside_indent _ _, List.forall_mem_nil _⟩

theorem laidOut_inductive (env : Environment) : (laidOut env).Inductive env where
  inlinesNil := trivial
  inlinesCons _ _ := trivial
  inlinesBelow _ := trivial
  inline _ _ := trivial
  footnoteReference _ := trivial
  paragraph _ := trivial
  cellsNil := trivial
  cellsCons _ _ := trivial
  rowsNil := trivial
  rowsCons _ _ := trivial
  row _ := trivial
  blocksNil level _ := by
    rw [blocks]
    exact yields_pure (by simp)
  blocksCons hb hr level hl := by
    rw [blocks]
    refine (hb level hl).bind fun here hhere => (hr level hl).bind fun more hmore => ?_
    cases here with
    | none => exact yields_pure hmore
    | some text =>
      refine yields_pure ?_
      split
      · exact hmore
      next hne => exact List.forall_mem_cons.mpr ⟨hhere text rfl hne, hmore⟩
  block hb level hl := by
    rw [block]
    refine yields_bind fun kind => yields_bind fun key => ?_
    split
    · exact yields_pure insideIfAny_none
    · cases key.bind blockKind? with
      | none => exact yields_bind fun _ => yields_pure insideIfAny_none
      | some form =>
        exact (hb form level hl).rescue fun _ => yields_bind fun _ => yields_pure insideIfAny_none
  heading _ level hl := by
    subst hl
    rw [blockOf]
    refine yields_bind fun value => yields_bind fun degree => yields_bind fun text => ?_
    cases degree with
    | none => exact yields_fail _
    | some degree => exact yields_pure (insideIfAny_of_inside (inside_indent _ _))
  paragraphBlock _ level hl := by
    subst hl
    rw [blockOf]
    exact yields_indent fun text => text
  list hi level hl := by
    rw [blockOf]
    refine (listMarker_yields _).bind fun marker hm => ?_
    split
    · exact yields_fail _
    next children hc =>
      refine (hi marker children hc level hl hm).bind fun parts hparts => yields_pure ?_
      rintro _ ⟨⟩ hne
      refine inside_lines ?_ fun part hpart => (hparts part hpart).inside
      rintro rfl
      exact hne rfl
  listItem hi level hl := by
    rw [blockOf]
    refine (hi level hl (by decide)).bind fun text htext => ?_
    exact yields_pure (insideIfAny_of_inside htext.inside)
  code level hl := by
    subst hl
    rw [blockOf]
    refine Yields.bind (yields_lift fun _ => codeBlock_inside) fun text htext => ?_
    exact yields_pure (insideIfAny_of_inside htext)
  quote _ level hl := by
    subst hl
    rw [blockOf]
    split
    · exact yields_fail _
    · exact yields_bind fun _ => yields_pure (insideIfAny_of_inside (quoteBlock_inside _ _))
  rule level hl := by
    subst hl
    rw [blockOf]
    exact yields_pure (insideIfAny_of_inside (inside_indent _ _))
  tableBlock ht level hl := by
    rw [blockOf]
    exact ht level hl
  formula level hl := by
    subst hl
    rw [blockOf]
    exact yields_bind fun _ => yields_indent fun text => text
  html level hl := by
    subst hl
    rw [blockOf]
    refine yields_lift fun shown h => ?_
    obtain ⟨value, -, h⟩ := Failure.exists_of_bind h
    obtain ⟨raw, -, h⟩ := Failure.exists_of_bind h
    obtain rfl := Except.ok.inj h
    split
    · exact insideIfAny_none
    · exact insideIfAny_of_inside (inside_indent _ _)
  itemsNil level _ _ := by
    rw [items]
    exact yields_pure (by simp)
  itemsCons hi hr level hl hm := by
    rw [items]
    refine (hi level hl hm).bind fun here hhere => (hr level hl hm).bind fun more hmore => ?_
    exact yields_pure (List.forall_mem_cons.mpr ⟨hhere, hmore⟩)
  item hi level hl hm := by
    subst hl
    rw [item]
    split
    · exact yields_fail _
    · exact yields_pure (itemRows_marker hm)
    next first more hp =>
      obtain ⟨-, hmore, hall⟩ := hi first more hp
      refine yields_bind fun kind => ?_
      split
      · refine yields_bind fun text => (hmore (level + 1) rfl).bind fun parts hparts => ?_
        exact yields_pure (itemRows_lead hm text hparts)
      · refine (hall (level + 1) rfl).bind fun parts hparts => ?_
        exact yields_pure (itemRows_bare hm hparts)
  table _ level hl := by
    subst hl
    rw [table]
    split
    · exact yields_fail _
    · exact yields_bind fun _ => yields_pure insideIfAny_none
    · refine yields_bind fun declared => yields_bind fun columns => ?_
      split
      · exact yields_bind fun _ => yields_pure insideIfAny_none
      · refine yields_bind fun align => yields_bind fun head => yields_bind fun body => ?_
        exact yields_pure (insideIfAny_of_inside (inside_indent _ _))

/-- Every item of a list has the rows of an item. -/
theorem items_yield (env : Environment) (active : List String) (tokens : List Value)
    (level : Nat) (hmarker : '\n' ∉ marker.toList) :
    Yields (fun parts => ∀ part ∈ parts, ItemRows marker level part)
      (items env active marker tokens level) := by
  have hinductive := laidOut_inductive env
  have hblocks := hinductive.holds.blocks
  -- The induction over the renderers speaks of blocks only, so the items are gone through here.
  suffices h : (laidOut env).items active marker tokens level from h level rfl hmarker
  induction tokens with
  | nil => exact hinductive.itemsNil
  | cons token rest ih =>
    refine hinductive.itemsCons (hinductive.item fun first more _ => ?_) ih
    exact ⟨trivial, hblocks active more _, hblocks active (first :: more) _⟩

end Typeset.Layout
