import Typeset.Proofs.Bracket.Layout
import Typeset.Proofs.Layout.Margin
import Typeset.Proofs.Render.Issues
import Typeset.Proofs.Token.Within

/-! A block some levels further in is the same block pushed in as a whole: its level shows in the
margins of its rows and nowhere else. Only a list without items has no row to push in. -/

namespace Typeset.Layout

open Render Rendering Markup

variable {env : Environment} {active : List String} {token : Value} {form : BlockKind}

/-- The code of a code block is text, if there is any. -/
def CodeIsText (token : Value) : Prop :=
  Token.kind token = .ok (.str "block_code") →
    ∀ raw, token.field "raw" (.str "") = .ok raw → ∃ code, raw = .str code

/-- Whether a token is a list without items. -/
def isItemless (token : Value) : Bool :=
  match Token.kind token, token.children with
  | .ok (.str "list"), .ok [] => true
  | _, _ => false

/-- What a block shows some levels further in; a list without items shows nothing at any level. -/
def deepened (token : Value) (levels : Nat) (text : String) : String :=
  if isItemless token then "" else indent text levels

theorem isItemless_iff :
    isItemless token = true ↔ Token.kind token = .ok (.str "list") ∧ token.children = .ok [] := by
  unfold isItemless
  split
  next hk hc => simp [hk, hc]
  next hnot =>
    refine ⟨nofun, fun h => ?_⟩
    exact (hnot h.1 h.2).elim

theorem deepened_of_itemless (h : isItemless token = true) (levels : Nat) (text : String) :
    deepened token levels text = "" := if_pos h

theorem deepened_of_not_itemless (h : ¬isItemless token = true) (levels : Nat) (text : String) :
    deepened token levels text = indent text levels := if_neg h

theorem deepened_deepened (m n : Nat) (text : String) :
    deepened token n (deepened token m text) = deepened token (m + n) text := by
  by_cases h : isItemless token = true
  · rw [deepened_of_itemless h, deepened_of_itemless h]
  · rw [deepened_of_not_itemless h, deepened_of_not_itemless h, deepened_of_not_itemless h,
      indent_indent]

/-- A text that is pushed in shows at least its margin. -/
theorem indent_ne_empty (text : String) {levels : Nat} (h : 0 < levels) :
    indent text levels ≠ "" := by
  obtain ⟨n, rfl⟩ := Nat.exists_eq_add_of_lt h
  intro hempty
  have hlist := congrArg String.toList hempty
  rw [toList_indent, Int.toNat_natCast, Nat.zero_add, margin_succ] at hlist
  simp [unit] at hlist

theorem deepened_eq_empty_iff (text : String) {levels : Nat} (h : 0 < levels) :
    deepened token levels text = "" ↔ isItemless token = true := by
  by_cases hl : isItemless token = true
  · simp [deepened_of_itemless hl, hl]
  · simp [deepened_of_not_itemless hl, hl, indent_ne_empty text h]

theorem map_rescue {α β : Type} (g : α → β) (r : Rendering α) (handler : Failure → Rendering α) :
    g <$> r.rescue handler = (g <$> r).rescue fun cause => g <$> handler cause := by
  obtain ⟨outcome, issues, remote⟩ := r
  cases outcome with
  | ok a => rfl
  | error f =>
    cases hh : (handler f).outcome <;>
      simp [Functor.map, rescue, andThen, after, withOutcome, hh, Bool.or_assoc]

theorem map_outcome {α β : Type} (g : α → β) (r : Rendering α) :
    (g <$> r).outcome = r.outcome.map g := by
  obtain ⟨outcome, issues, remote⟩ := r
  cases outcome <;> rfl

theorem map_issues {α β : Type} (g : α → β) (r : Rendering α) : (g <$> r).issues = r.issues := by
  obtain ⟨outcome, issues, remote⟩ := r
  cases outcome <;> simp [Functor.map, andThen, after, withOutcome, Rendering.ofExcept]

theorem map_remoteImage {α β : Type} (g : α → β) (r : Rendering α) :
    (g <$> r).remoteImage = r.remoteImage := by
  obtain ⟨outcome, issues, remote⟩ := r
  cases outcome <;> simp [Functor.map, andThen, after, withOutcome, Rendering.ofExcept]

theorem indent_first (text : String) (levels : Nat) :
    indent (indent text (0 + 1)) levels = indent text (levels + 1) := by
  rw [Int.zero_add, ← Int.natCast_one, indent_indent, Nat.add_comm, Int.natCast_add]

theorem itemLead_deeper (marker text : String) (levels : Nat) :
    itemLead marker text levels = (itemLead marker text 0).map (indent · levels) := by
  unfold itemLead
  split
  · rfl
  · simp only [List.map_cons, List.map_nil, indent_zero]
  · simp only [List.map_cons, List.map_nil, indent_zero, indent_first]

theorem quoteBlock_deeper (body : String) (levels : Nat) :
    quoteBlock body levels = indent (quoteBlock body 0) levels := by
  unfold quoteBlock
  dsimp only
  split
  · rw [indent_lines (by simp)]
    simp only [List.map_cons, List.map_nil, indent_zero]
  · rw [indent_lines (by simp)]
    simp only [List.map_cons, List.map_nil, indent_zero, indent_first]

/-- Code that is text, between its fences, is laid out as one text. -/
theorem codeBlock_of_text {code name : String} {info : Value}
    (hraw : token.field "raw" (.str "") = .ok (.str code))
    (hinfo : token.attr "info" .null = .ok info) (hname : (info.orElse (.str "")).asText = .ok name)
    (level : Int) :
    codeBlock token level =
      .ok (indent (lines [fence code ++ Text.strip name, code, fence code]) level) := by
  unfold codeBlock
  rw [hraw, hinfo, indent_lines (by simp)]
  simp [hname, Bracket.fenceValue_text, indentValue_str, bind, Except.bind, pure, Except.pure,
    Value.needText]

theorem codeBlock_deeper
    (h : ∀ raw, token.field "raw" (.str "") = .ok raw → ∃ code, raw = .str code) (levels : Nat) :
    codeBlock token levels = (codeBlock token 0).map (indent · levels) := by
  cases hraw : token.field "raw" (.str "") with
  | error f => simp [codeBlock, hraw, bind, Except.bind, Except.map]
  | ok raw =>
    obtain ⟨code, rfl⟩ := h raw hraw
    cases hinfo : token.attr "info" .null with
    | error f => simp [codeBlock, hraw, hinfo, bind, Except.bind, Except.map]
    | ok info =>
      cases hname : (info.orElse (.str "")).asText with
      | error f => simp [codeBlock, hraw, hinfo, hname, bind, Except.bind, Except.map]
      | ok name =>
        rw [codeBlock_of_text hraw hinfo hname, codeBlock_of_text hraw hinfo hname, indent_zero]
        rfl

theorem htmlBlock_deeper (token : Value) (levels : Nat) :
    htmlBlock token levels = (htmlBlock token 0).map (Option.map (indent · levels)) := by
  unfold htmlBlock
  cases token.field "raw" (.str "") with
  | error f => rfl
  | ok raw =>
    simp only [bind, Except.bind]
    cases raw.asText with
    | error f => rfl
    | ok text =>
      simp only [Except.map, pure, Except.pure, indent_zero]
      split
      · rfl
      · rfl

theorem ofForm_code (h : OfForm .code token) : Token.kind token = .ok (.str "block_code") := by
  obtain ⟨name, hk, hname⟩ := h
  rw [hk, (eq_of_blockKind? hname).1 rfl]

theorem ofForm_list (h : OfForm .list token) : Token.kind token = .ok (.str "list") := by
  obtain ⟨name, hk, hname⟩ := h
  rw [hk, (eq_of_blockKind? hname).2.2 rfl]

theorem ofForm_not_itemless (h : OfForm form token) (hne : form ≠ .list) :
    ¬isItemless token = true := by
  obtain ⟨name, hk, hname⟩ := h
  intro hlist
  obtain rfl : "list" = name := by simpa [(isItemless_iff.mp hlist).1] using hk
  exact hne (Option.some.inj hname).symm

/-- A block of any kind but a list is pushed in without exception. -/
theorem map_deepened {r : Rendering (Option String)} (h : OfForm form token)
    (hne : form ≠ .list) (levels : Nat) :
    Option.map (deepened token levels) <$> r = Option.map (indent · levels) <$> r := by
  have hdeepened : deepened token levels = (indent · levels) :=
    funext fun text => deepened_of_not_itemless (ofForm_not_itemless h hne) levels text
  rw [hdeepened]

/-- A block some levels further in is the block at the outermost level, pushed in. -/
def BlockDeeper (env : Environment) (active : List String) (token : Value) : Prop :=
  token.Everywhere CodeIsText → ∀ levels : Nat,
    block env active token levels =
      Option.map (deepened token levels) <$> block env active token 0

/-- Blocks beside one another are compared from the first level on, where those below an item begin:
from there on only a list without items is dropped, whatever the level. At the outermost level a
paragraph without text would be dropped as well. -/
def BlocksDeeper (env : Environment) (active : List String) (tokens : List Value) : Prop :=
  (∀ token ∈ tokens, token.Everywhere CodeIsText) → ∀ levels : Nat,
    blocks env active tokens (levels + 1) =
      List.map (indent · levels) <$> blocks env active tokens 1

/-- An item some levels further in is the item at the outermost level, pushed in. -/
def ItemDeeper (env : Environment) (active : List String) (marker : String) (token : Value) :
    Prop :=
  token.Everywhere CodeIsText → ∀ levels : Nat,
    item env active marker token levels = (indent · levels) <$> item env active marker token 0

/-- Items some levels further in are those at the outermost level, each pushed in. -/
def ItemsDeeper (env : Environment) (active : List String) (marker : String)
    (tokens : List Value) : Prop :=
  (∀ token ∈ tokens, token.Everywhere CodeIsText) → ∀ levels : Nat,
    items env active marker tokens levels =
      List.map (indent · levels) <$> items env active marker tokens 0

theorem blocks_deeper {rest : List Value} (hb : BlockDeeper env active token)
    (hr : BlocksDeeper env active rest) : BlocksDeeper env active (token :: rest) := by
  intro ht levels
  obtain ⟨ht, hrest⟩ := List.forall_mem_cons.mp ht
  have hhere := hb ht
  rw [blocks, blocks, hr hrest levels, ← Int.natCast_succ, hhere (levels + 1),
    ← Int.natCast_one, hhere 1]
  simp only [map_bind, bind_map_left]
  refine bind_congr fun here => bind_congr fun more => ?_
  cases here with
  | none => rfl
  | some text =>
    by_cases hlist : isItemless token = true
    · simp [deepened_of_itemless hlist]
    · have hfirst : deepened token 1 text ≠ "" :=
        mt (deepened_eq_empty_iff text Nat.one_pos).mp hlist
      have hfurther : deepened token (levels + 1) text ≠ "" :=
        mt (deepened_eq_empty_iff text levels.succ_pos).mp hlist
      simp only [Option.map_some, if_neg hfirst, if_neg hfurther, map_pure, List.map_cons]
      rw [Nat.add_comm, ← deepened_deepened, deepened_of_not_itemless hlist]

theorem block_deeper
    (hb : ∀ form, OfForm form token → ∀ levels : Nat,
      blockOf env active form token levels =
        Option.map (deepened token levels) <$> blockOf env active form token 0) (levels : Nat) :
    block env active token levels =
      Option.map (deepened token levels) <$> block env active token 0 := by
  rw [block, block]
  cases hk : Token.kind token with
  | error f => rfl
  | ok kind =>
    simp only [lift_bind_of_ok rfl]
    cases hkey : Token.kindKey kind with
    | error f => rfl
    | ok key =>
      simp only [lift_bind_of_ok rfl]
      split
      · rfl
      · split
        · rfl
        next form hform =>
          obtain ⟨name, rfl, hname⟩ := Token.exists_text_of_kindKey hkey hform
          rw [hb form ⟨name, hk, hname⟩ levels, map_rescue]
          rfl

theorem heading_deeper (hform : OfForm .heading token) (levels : Nat) :
    blockOf env active .heading token levels =
      Option.map (deepened token levels) <$> blockOf env active .heading token 0 := by
  rw [blockOf, blockOf, map_deepened hform (by decide)]
  simp only [map_bind]
  refine bind_congr fun level => bind_congr fun degree => bind_congr fun text => ?_
  cases degree with
  | none => rfl
  | some degree => simp only [map_pure, Option.map_some, indent_zero]

theorem list_deeper
    (hi : ∀ marker children, token.children = .ok children → ItemsDeeper env active marker children)
    (ht : token.Everywhere CodeIsText) (hform : OfForm .list token) (levels : Nat) :
    blockOf env active .list token levels =
      Option.map (deepened token levels) <$> blockOf env active .list token 0 := by
  rw [blockOf, blockOf, map_bind]
  refine bind_congr fun marker => ?_
  split
  · rfl
  next children hc =>
    have hitems := hi marker children hc
      (fun t h => ht.child (Value.isChild_of_children hc h)) levels
    cases children with
    | nil =>
      have hlist : isItemless token = true := isItemless_iff.mpr ⟨ofForm_list hform, hc⟩
      rw [items, items, pure_bind, map_pure, Option.map_some, deepened_of_itemless hlist]
      rfl
    | cons first more =>
      have hlist : ¬isItemless token = true := by simp [isItemless_iff, hc]
      rw [hitems, bind_map_left, items]
      simp only [bind_assoc, pure_bind, map_bind, map_pure, Option.map_some,
        deepened_of_not_itemless hlist]
      refine bind_congr fun here => bind_congr fun others => ?_
      rw [indent_lines (by simp)]

theorem code_deeper (ht : token.Everywhere CodeIsText) (hform : OfForm .code token)
    (levels : Nat) :
    blockOf env active .code token levels =
      Option.map (deepened token levels) <$> blockOf env active .code token 0 := by
  rw [blockOf, blockOf, map_deepened hform (by decide),
    codeBlock_deeper (ht.self (ofForm_code hform))]
  cases codeBlock token 0 <;> rfl

theorem html_deeper (hform : OfForm .html token) (levels : Nat) :
    blockOf env active .html token levels =
      Option.map (deepened token levels) <$> blockOf env active .html token 0 := by
  rw [blockOf, blockOf, map_deepened hform (by decide), htmlBlock_deeper]
  cases htmlBlock token 0 <;> rfl

theorem item_deeper {marker : String}
    (hi : ∀ first more, itemParts token = .ok (first :: more) →
      BlocksDeeper env active more ∧ BlocksDeeper env active (first :: more)) :
    ItemDeeper env active marker token := by
  intro ht levels
  rw [item, item]
  split
  · rfl
  · rw [map_pure, indent_zero]
  next first more hp =>
    have hbelow : ∀ t ∈ first :: more, t.Everywhere CodeIsText :=
      fun t h => ht.child (isChild_of_itemParts hp h)
    obtain ⟨hmore, hall⟩ := hi first more hp
    rw [map_bind, Int.zero_add]
    refine bind_congr fun kind => ?_
    split
    · rw [hmore (List.forall_mem_cons.mp hbelow).2 levels]
      simp only [map_bind, bind_map_left, map_pure]
      refine bind_congr fun text => bind_congr fun parts => ?_
      have hne : itemLead marker text 0 ++ parts ≠ [] :=
        List.append_ne_nil_of_left_ne_nil (itemLead_ne_nil marker text 0) parts
      rw [indent_lines hne, List.map_append, itemLead_deeper]
    · rw [hall hbelow levels]
      simp only [map_bind, bind_map_left, map_pure]
      refine bind_congr fun parts => ?_
      rw [indent_lines (by simp), List.map_cons, indent_zero]

theorem table_deeper (levels : Nat) :
    table env active token levels =
      Option.map (indent · levels) <$> table env active token 0 := by
  rw [table, table]
  split
  · rfl
  · rfl
  · simp only [map_bind]
    refine bind_congr fun declared => bind_congr fun columns => ?_
    split
    · rfl
    · simp only [map_bind, map_pure, indent_zero, Option.map_some]

/-- Blocks of every kind are pushed in as a whole. -/
def pushedIn (env : Environment) : Property where
  inlines _ _ := True
  inlinesBelow _ _ := True
  inline _ _ := True
  footnoteReference _ _ := True
  paragraph _ _ := True
  cells _ _ := True
  rows _ _ := True
  row _ _ := True
  blocks active tokens _ := BlocksDeeper env active tokens
  block active token _ := BlockDeeper env active token
  blockOf active form token _ := token.Everywhere CodeIsText → OfForm form token → ∀ levels : Nat,
    blockOf env active form token levels =
      Option.map (deepened token levels) <$> blockOf env active form token 0
  items active marker tokens _ := ItemsDeeper env active marker tokens
  item active marker token _ := ItemDeeper env active marker token
  table active token _ := ∀ levels : Nat,
    table env active token levels = Option.map (indent · levels) <$> table env active token 0

theorem pushedIn_inductive (env : Environment) : (pushedIn env).Inductive env where
  inlinesNil := trivial
  inlinesCons _ _ := trivial
  inlinesBelow _ := trivial
  inline _ _ := trivial
  footnoteReference _ := trivial
  paragraph _ := trivial
  cellsNil := trivial
  cellsCons _ _ := trivial
  rowsNil := trivial
  rowsCons _ _ := trivial
  row _ := trivial
  blocksNil _ levels := by
    rw [blocks, blocks]
    rfl
  blocksCons hb hr := blocks_deeper hb hr
  block hb ht := block_deeper fun form hform => hb form ht hform
  heading _ _ hform := heading_deeper hform
  paragraphBlock _ _ hform levels := by
    rw [blockOf, blockOf, map_deepened hform (by decide)]
    simp only [map_bind, map_pure, Option.map_some, indent_zero]
  list hi := list_deeper hi
  listItem hi ht hform levels := by
    rw [blockOf, blockOf, hi ht levels, map_deepened hform (by decide)]
    simp only [map_bind, bind_map_left, map_pure, Option.map_some]
  code := code_deeper
  quote _ _ hform levels := by
    rw [blockOf, blockOf, map_deepened hform (by decide)]
    split
    · rfl
    · simp only [map_bind, map_pure, Option.map_some, ← quoteBlock_deeper]
  rule _ hform levels := by
    rw [blockOf, blockOf, map_deepened hform (by decide), map_pure, Option.map_some, indent_zero]
  tableBlock htable _ hform levels := by
    rw [blockOf, blockOf, map_deepened hform (by decide), htable levels]
  formula _ hform levels := by
    rw [blockOf, blockOf, map_deepened hform (by decide)]
    simp only [map_bind, map_pure, Option.map_some, indent_zero]
  html _ hform := html_deeper hform
  itemsNil _ levels := by
    rw [items, items]
    rfl
  itemsCons hi hr ht levels := by
    obtain ⟨ht, hrest⟩ := List.forall_mem_cons.mp ht
    rw [items, items, hi ht levels, hr hrest levels]
    simp only [map_bind, bind_map_left, map_pure, List.map_cons]
  item hi := item_deeper fun first more hp => (hi first more hp).2
  table _ := table_deeper

/-- A block further in is that block at the outermost level, pushed in. -/
theorem block_pushedIn (ht : token.Everywhere CodeIsText) (levels : Nat) :
    block env active token levels =
      Option.map (deepened token levels) <$> block env active token 0 :=
  (pushedIn_inductive env).holds.block active token 0 ht levels

theorem block_add_levels (ht : token.Everywhere CodeIsText) (m n : Nat) :
    block env active token ((m + n : Nat) : Int) =
      Option.map (deepened token n) <$> block env active token m := by
  rw [block_pushedIn ht (m + n), block_pushedIn ht m, ← comp_map]
  congr 1
  funext shown
  cases shown with
  | none => rfl
  | some text => simp only [Function.comp_apply, Option.map_some, deepened_deepened]

/-- A list without items shows nothing at all, if it does not fail. -/
theorem eq_empty_of_itemless {text : String} {level : Nat} (ht : token.Everywhere CodeIsText)
    (hlist : isItemless token = true)
    (h : (block env active token level).outcome = .ok (some text)) : text = "" := by
  rw [block_pushedIn ht level, map_outcome] at h
  cases ho : (block env active token 0).outcome with
  | error f => simp [ho, Except.map] at h
  | ok shown =>
    cases shown with
    | none => simp [ho, Except.map] at h
    | some s => simpa [ho, Except.map, deepened_of_itemless hlist, eq_comm] using h

/-- A block some levels further in fails where it did, shows nothing where it did, and otherwise
shows the same text pushed in, unless it is a list without items, which is empty at both levels.
What is reported and whether an image is remote do not depend on the level. -/
theorem block_further_in (env : Environment) (active : List String) {token : Value}
    (h : token.Everywhere CodeIsText) (n k : Nat) :
    (∀ cause, (block env active token ((n + k : Nat) : Int)).outcome = .error cause ↔
      (block env active token n).outcome = .error cause) ∧
    ((block env active token ((n + k : Nat) : Int)).outcome = .ok none ↔
      (block env active token n).outcome = .ok none) ∧
    (∀ text, (block env active token n).outcome = .ok (some text) →
      (block env active token ((n + k : Nat) : Int)).outcome =
        .ok (some (if isItemless token then "" else indent text k)) ∧
      (isItemless token → text = "")) ∧
    (block env active token ((n + k : Nat) : Int)).issues = (block env active token n).issues ∧
    (block env active token ((n + k : Nat) : Int)).remoteImage =
      (block env active token n).remoteImage := by
  rw [block_add_levels h n k, map_outcome, map_issues, map_remoteImage]
  refine ⟨fun cause => ?_, ?_, fun text htext => ⟨?_, fun hlist => ?_⟩, rfl, rfl⟩
  · cases (block env active token n).outcome <;> simp [Except.map]
  · cases (block env active token n).outcome <;> simp [Except.map]
  · rw [htext]
    rfl
  · exact eq_empty_of_itemless h hlist htext

/-- A list of one item, with code below it. -/
def codeItem : Value :=
  Token.branch "list" [Token.branch "list_item" [Token.leaf "block_code" "b\nc"]]

theorem codeIsText_codeItem : codeItem.Everywhere CodeIsText := by
  have hnot {kind : String} {v : Value} (hk : Token.kind v = .ok (.str kind))
      (hne : kind ≠ "block_code") : CodeIsText v := by
    intro hcode
    simp [hk, hne] at hcode
  have hcode : CodeIsText (Token.leaf "block_code" "b\nc") := by
    rintro - raw ⟨⟩
    exact ⟨"b\nc", rfl⟩
  refine Value.everywhere_branch (hnot rfl (by decide)) ?_
  simp only [List.forall_mem_singleton]
  refine Value.everywhere_branch (hnot rfl (by decide)) ?_
  simp only [List.forall_mem_singleton]
  exact Value.everywhere_leaf hcode

theorem block_codeItem :
    (block { convertMath := .ok } [] codeItem (1 : Nat)).outcome =
      .ok (some "  -\n    ```\n    b\n    c\n    ```") := by
  have hcode : (block { convertMath := .ok } [] (Token.leaf "block_code" "b\nc")
      ((1 : Nat) + 1)).outcome = .ok (some "    ```\n    b\n    c\n    ```") := by
    rw [block_eq_some_iff rfl rfl, blockOf]
    rfl
  have hitem : (item { convertMath := .ok } [] "-"
      (Token.branch "list_item" [Token.leaf "block_code" "b\nc"]) (1 : Nat)).outcome =
        .ok "  -\n    ```\n    b\n    c\n    ```" := by
    have hlead : Leadless [Token.leaf "block_code" "b\nc"] := by
      rintro _ ⟨⟩
      exact ⟨.str "block_code", rfl, rfl⟩
    rw [item_of_leadless rfl hlead,
      Rendering.bind_of_ok (blocks_cons_of_shown hcode (by decide) blocks_nil)]
    rfl
  exact block_of_items rfl rfl rfl (items_cons hitem items_nil)

theorem block_further_in_codeItem :
    codeItem.Everywhere CodeIsText ∧
      (block { convertMath := .ok } [] codeItem ((1 + 2 : Nat) : Int)).outcome =
        .ok (some "      -\n        ```\n        b\n        c\n        ```") := by
  have h := block_further_in { convertMath := .ok } [] codeIsText_codeItem 1 2
  exact ⟨codeIsText_codeItem, (h.2.2.1 _ block_codeItem).1⟩

end Typeset.Layout
