import Typeset.Proofs.Fault.Compared
import Typeset.Proofs.Render.Form
import Typeset.Proofs.Render.Plain
import Typeset.Proofs.Render.Siblings

/-! How far a failure reaches. A block that fails is reported and shows nothing; a paragraph at the
head of an item is no block of its own, and its failure is that of the whole list. -/

namespace Typeset.Fault

section Boundary

open Render

variable {env : Environment} {active : List String} {token first : Value} {indent : Int}
  {name marker : String} {more before after children : List Value} {cause : Failure}

/-- A block of a known kind whose own rendering fails. -/
def FailsAs (env : Environment) (active : List String) (token : Value) (indent : Int)
    (name : String) (cause : Failure) : Prop :=
  Token.kind token = .ok (.str name) ∧ ∃ form, blockKind? name = some form ∧
    (blockOf env active form token indent).outcome = .error cause

/-- A block that fails. -/
def Fails (env : Environment) (active : List String) (token : Value) (indent : Int) : Prop :=
  ∃ name cause, FailsAs env active token indent name cause

theorem FailsAs.outcome (h : FailsAs env active token indent name cause) :
    (block env active token indent).outcome = .ok none := by
  obtain ⟨hk, form, hform, hbroken⟩ := h
  rw [block_of_form hk hform, Rendering.rescue, hbroken]
  rfl

/-- The failure is reported once, after all that was reported up to it. -/
theorem FailsAs.issues (h : FailsAs env active token indent name cause) :
    ∃ form, blockKind? name = some form ∧ (block env active token indent).issues =
      (blockOf env active form token indent).issues ++ [brokenBlock (.str name) cause] := by
  obtain ⟨hk, form, hform, hbroken⟩ := h
  refine ⟨form, hform, ?_⟩
  rw [block_of_form hk hform, Rendering.rescue, hbroken]
  rfl

theorem Fails.outcome (h : Fails env active token indent) :
    (block env active token indent).outcome = .ok none := by
  obtain ⟨name, cause, h⟩ := h
  exact h.outcome

theorem paragraph_fails_of_block (h : Fails env active token indent)
    (hk : Token.kind token = .ok (.str "paragraph")) :
    ∃ cause, (paragraph env active token).outcome = .error cause := by
  obtain ⟨name, cause, hname, form, hform, hbroken⟩ := h
  obtain rfl : name = "paragraph" := by simpa [hk] using hname.symm
  cases hform
  refine ⟨cause, ?_⟩
  rw [blockOf_paragraph] at hbroken
  cases ho : (paragraph env active token).outcome with
  | error f =>
    rw [Rendering.bind_of_error ho] at hbroken
    cases hbroken
    rfl
  | ok text =>
    rw [Rendering.bind_of_ok ho] at hbroken
    cases hbroken

theorem item_fails_of_lead (hparts : itemParts token = .ok (first :: more)) (hlead : IsLead first)
    (h : (paragraph env active first).outcome = .error cause) :
    (item env active marker token indent).outcome = .error cause := by
  rw [item_of_lead hparts hlead, Rendering.bind_of_error h]
  rfl

theorem items_fail_of_item (hbefore : ∀ t ∈ before, ∃ text,
      (item env active marker t indent).outcome = .ok text)
    (h : (item env active marker token indent).outcome = .error cause) :
    (items env active marker (before ++ token :: after) indent).outcome = .error cause := by
  induction before with
  | nil =>
    rw [List.nil_append, items, Rendering.bind_of_error h]
    rfl
  | cons t rest ih =>
    obtain ⟨text, htext⟩ := hbefore t List.mem_cons_self
    have hrest := ih fun u hu => hbefore u (List.mem_cons_of_mem t hu)
    rw [List.cons_append, items, Rendering.bind_of_ok htext, Rendering.bind_of_error hrest]
    rfl

/-- A list fails with the first of its items that fails. -/
theorem list_fails_of_item (hk : Token.kind token = .ok (.str "list"))
    (hm : listMarker token = .ok marker)
    (hc : token.children = .ok (before ++ first :: after))
    (hbefore : ∀ t ∈ before, ∃ text, (item env active marker t indent).outcome = .ok text)
    (h : (item env active marker first indent).outcome = .error cause) :
    FailsAs env active token indent "list" cause := by
  refine ⟨hk, .list, rfl, ?_⟩
  rw [blockOf_list hm hc, Rendering.bind_of_error (items_fail_of_item hbefore h)]
  rfl

end Boundary

/-! Blocks that fail, and the same document without them. What is left is shown as if they had never
been there, unless a list is lost with a paragraph at the head of one of its items. -/

section LeftOut

open Render

variable {env : Environment} {active : List String}

/-- What is rendered at a level of indentation: a block, blocks in a row, or items of a list. -/
inductive Place
  | block (token : Value) (indent : Int)
  | blocks (tokens : List Value) (indent : Int)
  | item (ordered : Bool) (token : Value) (indent : Int)
  | items (ordered : Bool) (tokens : List Value) (indent : Int)

/-- The mark before the items of a list. -/
def mark (ordered : Bool) : String := if ordered then "+" else "-"

/-- The texts that are shown in a place. -/
def Place.shown (env : Environment) (active : List String) : Place → Rendering (List String)
  | .block token indent => do
    let shown ← Render.block env active token indent
    pure shown.toList
  | .blocks tokens indent => Render.blocks env active tokens indent
  | .item ordered token indent => do
    let text ← Render.item env active (mark ordered) token indent
    pure [text]
  | .items ordered tokens indent => Render.items env active (mark ordered) tokens indent

/-- The second place is the first one without some blocks that fail, each of which is listed. A
block may also give way to one that shows nothing. The flag tells whether a paragraph at the head of
an item is among them; such an item has to be rendered without it. -/
inductive LeftOut (env : Environment) (active : List String) :
    Place → Place → Bool → List (Value × Int) → Prop
  | same {token : Value} {indent : Int} : Token.Typed token →
      LeftOut env active (.block token indent) (.block token indent) false []
  | silenced {token quiet : Value} {name : String} {indent : Int} :
      Fails env active token indent → Token.kind quiet = .ok (.str name) → isSilent name = true →
      LeftOut env active (.block token indent) (.block quiet indent) false [(token, indent)]
  | list {x y : Value} {xs ys : List Value} {ordered heads : Bool} {indent : Int}
      {left : List (Value × Int)} :
      Token.kind x = .ok (.str "list") → Token.kind y = .ok (.str "list") →
      listMarker x = .ok (mark ordered) → listMarker y = .ok (mark ordered) →
      x.children = .ok xs → y.children = .ok ys →
      LeftOut env active (.items ordered xs indent) (.items ordered ys indent) heads left →
      LeftOut env active (.block x indent) (.block y indent) heads left
  | quote {x y : Value} {xs ys : List Value} {heads : Bool} {indent : Int}
      {left : List (Value × Int)} :
      Token.kind x = .ok (.str "block_quote") → Token.kind y = .ok (.str "block_quote") →
      x.children = .ok xs → y.children = .ok ys →
      LeftOut env active (.blocks xs 0) (.blocks ys 0) heads left →
      LeftOut env active (.block x indent) (.block y indent) heads left
  | strayItem {x y : Value} {heads : Bool} {indent : Int} {left : List (Value × Int)} :
      Token.kind x = .ok (.str "list_item") → Token.kind y = .ok (.str "list_item") →
      LeftOut env active (.item false x indent) (.item false y indent) heads left →
      LeftOut env active (.block x indent) (.block y indent) heads left
  | noBlocks {indent : Int} : LeftOut env active (.blocks [] indent) (.blocks [] indent) false []
  | kept {x y : Value} {xs ys : List Value} {heads more : Bool} {indent : Int}
      {left others : List (Value × Int)} :
      LeftOut env active (.block x indent) (.block y indent) heads left →
      LeftOut env active (.blocks xs indent) (.blocks ys indent) more others →
      LeftOut env active (.blocks (x :: xs) indent) (.blocks (y :: ys) indent) (heads || more)
        (left ++ others)
  | dropped {token : Value} {xs ys : List Value} {heads : Bool} {indent : Int}
      {left : List (Value × Int)} :
      Fails env active token indent →
      LeftOut env active (.blocks xs indent) (.blocks ys indent) heads left →
      LeftOut env active (.blocks (token :: xs) indent) (.blocks ys indent) heads
        ((token, indent) :: left)
  | lead {x y first : Value} {xs ys : List Value} {text : String} {ordered heads : Bool}
      {indent : Int} {left : List (Value × Int)} :
      itemParts x = .ok (first :: xs) → itemParts y = .ok (first :: ys) → IsLead first →
      (paragraph env active first).outcome = .ok text →
      LeftOut env active (.blocks xs (indent + 1)) (.blocks ys (indent + 1)) heads left →
      LeftOut env active (.item ordered x indent) (.item ordered y indent) heads left
  | leadless {x y : Value} {xs ys : List Value} {ordered heads : Bool} {indent : Int}
      {left : List (Value × Int)} :
      itemParts x = .ok xs → itemParts y = .ok ys → Leadless xs → Leadless ys →
      LeftOut env active (.blocks xs (indent + 1)) (.blocks ys (indent + 1)) heads left →
      LeftOut env active (.item ordered x indent) (.item ordered y indent) heads left
  | beheaded {x y first : Value} {xs ys : List Value} {text : String} {ordered heads : Bool}
      {indent : Int} {left : List (Value × Int)} :
      itemParts x = .ok (first :: xs) → itemParts y = .ok ys → IsLead first →
      Fails env active first indent →
      LeftOut env active (.blocks xs (indent + 1)) (.blocks ys (indent + 1)) heads left →
      (item env active (mark ordered) y indent).outcome = .ok text →
      LeftOut env active (.item ordered x indent) (.item ordered y indent) true
        ((first, indent) :: left)
  | noItems {ordered : Bool} {indent : Int} :
      LeftOut env active (.items ordered [] indent) (.items ordered [] indent) false []
  | moreItems {x y : Value} {xs ys : List Value} {ordered heads more : Bool} {indent : Int}
      {left others : List (Value × Int)} :
      LeftOut env active (.item ordered x indent) (.item ordered y indent) heads left →
      LeftOut env active (.items ordered xs indent) (.items ordered ys indent) more others →
      LeftOut env active (.items ordered (x :: xs) indent) (.items ordered (y :: ys) indent)
        (heads || more) (left ++ others)

/-- What some blocks report, one after the other. -/
def reportsOf (env : Environment) (active : List String) (left : List (Value × Int)) :
    List Issue :=
  left.flatMap fun b => (block env active b.1 b.2).issues

section Places

variable {token x y first : Value} {xs ys : List Value} {ordered : Bool} {indent : Int}
  {name : String} {parts : List String}

theorem shown_block_eq_ok_iff : ((Place.block token indent).shown env active).outcome = .ok parts ↔
    ∃ shown, (block env active token indent).outcome = .ok shown ∧ shown.toList = parts := by
  rw [Place.shown]
  constructor
  · intro h
    obtain ⟨shown, hshown, h⟩ := Rendering.exists_of_bind h
    cases h
    exact ⟨shown, hshown, rfl⟩
  · rintro ⟨shown, hshown, rfl⟩
    rw [Rendering.bind_of_ok hshown]
    rfl

theorem issues_shown_block :
    ((Place.block token indent).shown env active).issues =
      (block env active token indent).issues := by
  rw [Place.shown]
  exact Rendering.issues_bind_of_quiet fun _ _ => rfl

theorem shown_block_of_typed (h : Token.Typed token) :
    ∃ parts, ((Place.block token indent).shown env active).outcome = .ok parts := by
  obtain ⟨shown, hshown⟩ := @block_outcome_ok env active indent token h
  exact ⟨shown.toList, shown_block_eq_ok_iff.mpr ⟨shown, hshown, rfl⟩⟩

theorem shown_block_eq {form : BlockKind} (hk : Token.kind token = .ok (.str name))
    (hform : blockKind? name = some form) :
    (Place.block token indent).shown env active =
      ((blockOf env active form token indent).rescue (blockFailed name)) >>=
        fun shown => pure shown.toList := by
  rw [Place.shown, block_of_form hk hform]

theorem shown_blocks_cons :
    (Place.blocks (token :: xs) indent).shown env active =
      (Place.block token indent).shown env active >>= fun here =>
        (Place.blocks xs indent).shown env active >>= fun more =>
          pure (here.filter (· ≠ "") ++ more) := by
  rw [Place.shown, Place.shown, Place.shown, blocks, bind_assoc]
  congr 1
  funext here
  rw [pure_bind]
  congr 1
  funext more
  cases here with
  | none => rfl
  | some text =>
    by_cases h : text = ""
    · simp [h]
    · simp [h]

theorem shown_items_cons :
    (Place.items ordered (token :: xs) indent).shown env active =
      (Place.item ordered token indent).shown env active >>= fun here =>
        (Place.items ordered xs indent).shown env active >>= fun more => pure (here ++ more) := by
  rw [Place.shown, Place.shown, Place.shown, items, bind_assoc]
  simp

theorem shown_item_of_lead (h : itemParts token = .ok (first :: xs)) (hlead : IsLead first) :
    (Place.item ordered token indent).shown env active =
      (paragraph env active first >>= fun text => pure (itemLead (mark ordered) text indent)) >>=
        fun head => (Place.blocks xs (indent + 1)).shown env active >>= fun parts =>
          pure [lines (head ++ parts)] := by
  rw [Place.shown, Place.shown, item_of_lead h hlead]
  simp only [bind_assoc, pure_bind]

theorem shown_item_of_leadless (h : itemParts token = .ok xs) (hlead : Leadless xs) :
    (Place.item ordered token indent).shown env active =
      pure [Markup.indent (mark ordered) indent] >>= fun head =>
        (Place.blocks xs (indent + 1)).shown env active >>= fun parts =>
          pure [lines (head ++ parts)] := by
  rw [Place.shown, Place.shown, item_of_leadless h hlead]
  simp only [bind_assoc, pure_bind, List.singleton_append]

theorem inkOf_lines (head parts : List String) :
    inkOf [lines (head ++ parts)] = inkOf head + inkOf parts := by
  rw [inkOf_singleton, ink_lines, inkOf_append]

theorem ink_item {marker text : String}
    (h : (item env active marker token indent).outcome = .ok text) : ink marker ≤ ink text := by
  rw [item] at h
  split at h
  · cases h
  · cases h
    exact Nat.le_of_eq (ink_indent marker indent).symm
  · obtain ⟨kind, _, h⟩ := Rendering.exists_of_bind h
    split at h
    · obtain ⟨head, _, h⟩ := Rendering.exists_of_bind h
      obtain ⟨parts, _, h⟩ := Rendering.exists_of_bind h
      cases h
      rw [ink_lines, inkOf_append, inkOf_itemLead, Nat.add_assoc]
      exact Nat.le_add_right _ _
    · obtain ⟨parts, _, h⟩ := Rendering.exists_of_bind h
      cases h
      rw [ink_lines, inkOf_cons, ink_indent]
      exact Nat.le_add_right _ _

theorem ink_mark (ordered : Bool) : 0 < ink (mark ordered) := by
  cases ordered <;> decide

end Places

/-- Each way of leaving blocks out keeps to the comparison. -/
theorem LeftOut.compared {p q : Place} {heads : Bool} {left : List (Value × Int)}
    (h : LeftOut env active p q heads left) :
    Compared heads (reportsOf env active left) (p.shown env active) (q.shown env active) := by
  -- On the way the blocks are left out: neighbours compare by `both`, frames by `framed`, and what
  -- only the first place has gone through by `passed`.
  induction h with
  | same htyped =>
    obtain ⟨parts, hparts⟩ := @shown_block_of_typed env active _ _ htyped
    exact .refl hparts
  | silenced hfails hquiet hsilent =>
    rw [Place.shown, Place.shown, block_of_silent hquiet hsilent]
    exact .passed hfails.outcome (.refl rfl)
  | list hx hy hmx hmy hcx hcy _ ih =>
    rw [shown_block_eq hx rfl, shown_block_eq hy rfl, blockOf_list hmx hcx, blockOf_list hmy hcy]
    exact ih.framed 0 (fun parts => by rw [ink_lines, Nat.zero_add]) "list"
  | quote hx hy hcx hcy _ ih =>
    rw [shown_block_eq hx rfl, shown_block_eq hy rfl, blockOf_quote hcx, blockOf_quote hcy]
    refine ih.framed 8 (fun parts => ?_) "block_quote"
    rw [ink_quoteBlock, ink_intercalate rfl]
  | strayItem hx hy _ ih =>
    rw [shown_block_eq hx rfl, shown_block_eq hy rfl, blockOf_listItem, blockOf_listItem]
    have hframed := ih.framed 0 (fun parts => by rw [ink_lines, Nat.zero_add]) "list_item"
    simpa [Place.shown, lines, mark] using hframed
  | noBlocks => exact .refl blocks_nil
  | kept _ _ ih ih' =>
    rw [shown_blocks_cons, shown_blocks_cons, reportsOf, List.flatMap_append]
    refine ih.both (fun a b => ?_) ih'
    rw [inkOf_append, inkOf_filter]
  | @dropped token xs ys heads indent left hfails _ ih =>
    rw [Place.shown, blocks]
    show Compared heads ((block env active token indent).issues ++ reportsOf env active left) _ _
    refine .passed hfails.outcome ?_
    simpa only [Place.shown, bind_pure] using ih
  | @lead x y first xs ys text ordered heads indent left hx hy hlead htext _ ih =>
    rw [shown_item_of_lead hx hlead, shown_item_of_lead hy hlead]
    have hhead : (paragraph env active first >>= fun text =>
        pure (itemLead (mark ordered) text indent)).outcome =
          .ok (itemLead (mark ordered) text indent) := by
      rw [Rendering.bind_of_ok htext]
      rfl
    exact (Compared.refl hhead).both inkOf_lines ih
  | leadless hx hy hnx hny _ ih =>
    rw [shown_item_of_leadless hx hnx, shown_item_of_leadless hy hny]
    exact (Compared.refl rfl).both inkOf_lines ih
  | @beheaded x y first xs ys text ordered heads indent left hx hy hlead hfails _ hrest ih =>
    -- The paragraph is rendered without a boundary of its own, so that the item fails with it.
    obtain ⟨cause, hcause⟩ := paragraph_fails_of_block hfails hlead.kind
    have hlost : ((Place.item ordered x indent).shown env active).outcome = .error cause := by
      rw [Place.shown, Rendering.bind_of_error (item_fails_of_lead hx hlead hcause)]
      rfl
    have hshown : ((Place.item ordered y indent).shown env active).outcome = .ok [text] := by
      rw [Place.shown, Rendering.bind_of_ok hrest]
      rfl
    have hnever : true ≠ false := by decide
    refine ⟨⟨[text], hshown, fun h => (hnever h).elim, fun _ => ?_⟩, fun h => (hnever h).elim,
      fun h => (hnever h).elim⟩
    rw [hlost, inkOf_singleton]
    exact Nat.lt_of_lt_of_le (ink_mark ordered) (ink_item hrest)
  | noItems => exact .refl items_nil
  | moreItems _ _ ih ih' =>
    rw [shown_items_cons, shown_items_cons, reportsOf, List.flatMap_append]
    exact ih.both inkOf_append ih'

theorem LeftOut.fails {p q : Place} {heads : Bool} {left : List (Value × Int)}
    (h : LeftOut env active p q heads left) : ∀ b ∈ left, Fails env active b.1 b.2 := by
  induction h with
  | same | noBlocks | noItems => simp
  | silenced hfails => simpa using hfails
  | list _ _ _ _ _ _ _ ih | quote _ _ _ _ _ ih | strayItem _ _ _ ih | lead _ _ _ _ _ ih
  | leadless _ _ _ _ _ ih => exact ih
  | kept _ _ ih ih' | moreItems _ _ ih ih' => exact List.forall_mem_append.mpr ⟨ih, ih'⟩
  | dropped hfails _ ih => exact List.forall_mem_cons.mpr ⟨hfails, ih⟩
  | beheaded _ _ _ hfails _ _ ih => exact List.forall_mem_cons.mpr ⟨hfails, ih⟩

/-- Blocks that fail are left out without a trace but for their reports, one at the end of each of
them, exactly if no paragraph at the head of an item is among them. -/
theorem leftOut_unnoticed_iff {x y : Value} {indent : Int} {heads : Bool}
    {left : List (Value × Int)}
    (h : LeftOut env active (.block x indent) (.block y indent) heads left) :
    ((block env active x indent).outcome = (block env active y indent).outcome ∧
        (block env active y indent).issues.Sublist (block env active x indent).issues ∧
        (block env active x indent).issues.Perm
          ((block env active y indent).issues ++ reportsOf env active left) ↔
      heads = false) ∧
    ∀ b ∈ left, ∃ name cause course, Token.kind b.1 = .ok (.str name) ∧
      (block env active b.1 b.2).outcome = .ok none ∧
      (block env active b.1 b.2).issues = course ++ [brokenBlock (.str name) cause] := by
  have hcompared := h.compared
  obtain ⟨parts, hparts, hsame, hless⟩ := hcompared.ends
  refine ⟨⟨fun hx => ?_, fun hnone => ⟨?_, ?_, ?_⟩⟩, fun b hb => ?_⟩
  · obtain ⟨shown, hshown, hlist⟩ := shown_block_eq_ok_iff.mp hparts
    have hlost := shown_block_eq_ok_iff.mpr ⟨shown, hx.1.trans hshown, hlist⟩
    rw [hlost] at hless
    cases heads with
    | false => rfl
    | true => exact (Nat.lt_irrefl _ (hless rfl)).elim
  · obtain ⟨shown, hshown, hlist⟩ := shown_block_eq_ok_iff.mp (hsame hnone)
    obtain ⟨other, hother, hlist'⟩ := shown_block_eq_ok_iff.mp hparts
    have heq := congrArg List.head? (hlist.trans hlist'.symm)
    rw [Option.head?_toList, Option.head?_toList] at heq
    rw [hshown, hother, heq]
  · rw [← issues_shown_block, ← issues_shown_block]
    exact hcompared.sublist hnone
  · rw [← issues_shown_block, ← issues_shown_block]
    exact hcompared.perm hnone
  · obtain ⟨name, cause, hfails⟩ := h.fails b hb
    obtain ⟨form, -, hissues⟩ := hfails.issues
    exact ⟨name, cause, _, hfails.1, hfails.outcome, hissues⟩

/-- A heading whose level is no number. -/
def brokenHeading : Value := Token.marked "heading" [("level", .str "x")]

theorem brokenHeading_fails (indent : Int) : Fails env active brokenHeading indent := by
  have hlevel : brokenHeading.attr "level" (.int 1) = .ok (.str "x") := rfl
  refine ⟨"heading", .mismatch, rfl, .heading, rfl, ?_⟩
  rw [blockOf, Rendering.lift_bind_of_ok hlevel]
  rfl

/-- A list inside a quotation, with something after the paragraph of its first item. -/
def quotedList (more : List Value) : Value :=
  Token.branch "block_quote" [Token.branch "list"
    [Token.branch "list_item" (plainParagraph "a" :: more),
      Token.branch "list_item" [plainParagraph "b"]]]

theorem quotedList_leftOut : LeftOut { convertMath := .ok } []
    (.block (quotedList [brokenHeading]) 0) (.block (quotedList []) 0) false
      [(brokenHeading, 1)] := by
  have hfirst : LeftOut { convertMath := .ok } []
      (.item false (Token.branch "list_item" [plainParagraph "a", brokenHeading]) 0)
      (.item false (Token.branch "list_item" [plainParagraph "a"]) 0) false
      [(brokenHeading, 1)] :=
    .lead rfl rfl rfl (paragraph_plainParagraph (by decide))
      (.dropped (brokenHeading_fails 1) .noBlocks)
  have hsecond : LeftOut { convertMath := .ok } []
      (.item false (Token.branch "list_item" [plainParagraph "b"]) 0)
      (.item false (Token.branch "list_item" [plainParagraph "b"]) 0) false [] :=
    .lead rfl rfl rfl (paragraph_plainParagraph (by decide)) .noBlocks
  exact .quote rfl rfl rfl rfl
    (.kept (.list rfl rfl rfl rfl rfl rfl (.moreItems hfirst (.moreItems hsecond .noItems)))
      .noBlocks)

theorem leftOut_unnoticed_iff_quotedList :
    LeftOut { convertMath := .ok } [] (.block (quotedList [brokenHeading]) 0)
        (.block (quotedList []) 0) false [(brokenHeading, 1)] ∧
      (block { convertMath := .ok } [] (quotedList [brokenHeading]) 0).outcome =
        (block { convertMath := .ok } [] (quotedList []) 0).outcome ∧
      (block { convertMath := .ok } [] (quotedList [brokenHeading]) 0).issues.Perm
        ((block { convertMath := .ok } [] (quotedList []) 0).issues ++
          reportsOf { convertMath := .ok } [] [(brokenHeading, 1)]) := by
  obtain ⟨hsame, -, hperm⟩ := (leftOut_unnoticed_iff quotedList_leftOut).1.mpr rfl
  exact ⟨quotedList_leftOut, hsame, hperm⟩

/-- An image without an address cannot be shown. -/
theorem imageParagraph_fails :
    paragraph env active (imageParagraph .null) = Rendering.fail .mismatch := by
  have hkind : Token.kind (Token.marked "image" [("url", .null)]) = .ok (.str "image") := rfl
  have himage : inlineKind? "image" = some .image := rfl
  rw [paragraph, Rendering.lift_bind_of_ok (isOutlineMarker_imageParagraph .null),
    if_neg Bool.false_ne_true, inlinesBelow_of_children (children_imageParagraph .null), inlines,
    inline_of_form hkind himage]
  rfl

/-- A list whose first item holds some blocks, and whose second one is a word. -/
def twoItems (first : List Value) : Value :=
  Token.branch "list"
    [Token.branch "list_item" first, Token.branch "list_item" [plainParagraph "b"]]

/-- A paragraph that fails at the head of an item takes the whole list along. -/
theorem twoItems_lost :
    (block { convertMath := .ok } [] (twoItems [imageParagraph .null]) 0).outcome = .ok none ∧
      (block { convertMath := .ok } [] (twoItems [imageParagraph .null]) 0).issues =
        [brokenBlock (.str "list") .mismatch] ∧
      (block { convertMath := .ok } [] (twoItems []) 0).outcome = .ok (some "-\n- b") := by
  have hkind (first : List Value) : Token.kind (twoItems first) = .ok (.str "list") := rfl
  have hmarker (first : List Value) : listMarker (twoItems first) = .ok "-" := rfl
  have hchildren : (twoItems [imageParagraph .null]).children =
      .ok ([] ++ [Token.branch "list_item" [imageParagraph .null],
        Token.branch "list_item" [plainParagraph "b"]]) := rfl
  have hitem : item { convertMath := .ok } [] "-"
      (Token.branch "list_item" [imageParagraph .null]) 0 = Rendering.fail .mismatch := by
    have hparts : itemParts (Token.branch "list_item" [imageParagraph .null]) =
        .ok [imageParagraph .null] := rfl
    have hlead : IsLead (imageParagraph .null) := rfl
    rw [item_of_lead hparts hlead, imageParagraph_fails]
    rfl
  have hlost : FailsAs { convertMath := .ok } [] (twoItems [imageParagraph .null]) 0 "list"
      .mismatch :=
    list_fails_of_item (hkind _) (hmarker _) hchildren (List.forall_mem_nil _) (by rw [hitem]; rfl)
  have hbare : (item { convertMath := .ok } [] "-" (Token.branch "list_item" []) 0).outcome =
      .ok "-" := by
    have hparts : itemParts (Token.branch "list_item" []) = .ok [] := rfl
    rw [item_of_leadless hparts leadless_nil, blocks]
    rfl
  have hword : (item { convertMath := .ok } [] "-"
      (Token.branch "list_item" [plainParagraph "b"]) 0).outcome = .ok "- b" :=
    item_plainParagraph (by decide)
  refine ⟨hlost.outcome, ?_, ?_⟩
  · obtain ⟨form, hform, hissues⟩ := hlost.issues
    cases hform
    rw [hissues, blockOf_list (hmarker _) rfl, items, hitem]
    rfl
  · exact block_of_items (hkind _) (hmarker _) rfl
      (items_cons hbare (items_cons hword items_nil))

end LeftOut

end Typeset.Fault
