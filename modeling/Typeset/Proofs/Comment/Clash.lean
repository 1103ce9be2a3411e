import Typeset.Proofs.Markup.Rows
import Typeset.Proofs.Render.Plain
import Typeset.Proofs.Render.Siblings
import Typeset.Proofs.Comment.Leaf
import Typeset.Proofs.Render.Form

/-! Comments in rendered inlines. -/

namespace Typeset.Comment

/-! Where rendered inlines open a comment. Text is made literal token by token, so that a slash at
the end of one piece is not seen to stand before a slash or an asterisk at the beginning of the
next. -/

section Inline

open Render Scan

variable {env : Environment} {active : List String}

/-- Two pieces that meet, perhaps with pieces between them that show nothing, open a comment. -/
def Meet (env : Environment) (active : List String) (leaves : List Leaf) : Prop :=
  ∃ a b, [a, b] <:+: leaves.filter (fun leaf => leaf.shown env active ≠ "") ∧
    a.after = .slash ∧ b.Starts

/-- The markup of pieces, one after the other. -/
def written (env : Environment) (active : List String) (leaves : List Leaf) : List Char :=
  leaves.flatMap fun leaf => (leaf.shown env active).toList

theorem after_ne_escaped (leaf : Leaf) : leaf.after ≠ .escaped := by
  cases leaf with
  | text raw =>
    rw [Leaf.after, after]
    split <;> simp
  | mark mark => simp [Leaf.after]
  | note identifier => simp [Leaf.after]

theorem pair_infix_cons {a b leaf : Leaf} {rest : List Leaf} :
    [a, b] <:+: leaf :: rest ↔ (a = leaf ∧ rest.head? = some b) ∨ [a, b] <:+: rest := by
  rw [List.infix_cons_iff, List.cons_prefix_cons]
  cases rest with
  | nil => simp
  | cons next rest => simp [eq_comm]

/-- Pieces that show something are read up to the first one that opens a comment, by itself or with
the piece before it. -/
theorem run_written {leaves : List Leaf} {s : State} (hs : s ≠ .escaped)
    (h : ∀ leaf ∈ leaves, leaf.Proper ∧ leaf.shown env active ≠ "") :
    run step s (written env active leaves) = none ↔
      (s = .slash ∧ ∃ b, leaves.head? = some b ∧ b.Starts) ∨
        (∃ a b, [a, b] <:+: leaves ∧ a.after = .slash ∧ b.Starts) ∨
        ∃ leaf ∈ leaves, leaf.Opens env active := by
  induction leaves generalizing s with
  | nil => simp [written]
  | cons leaf rest ih =>
    obtain ⟨⟨hp, hne⟩, hrest⟩ := List.forall_mem_cons.mp h
    obtain ⟨hopens, hstarts, hreads⟩ := leaf.run_shown hp hne
    rw [written, List.flatMap_cons]
    by_cases ho : leaf.Opens env active
    · rw [run_append_of_none (hopens ho s)]
      simp [ho]
    · by_cases hmeet : s = .slash ∧ leaf.Starts
      · obtain ⟨rfl, hstart⟩ := hmeet
        rw [run_append_of_none (hstarts hstart)]
        simp [hstart]
      · obtain ⟨hplain, hslash⟩ := hreads ho
        have hrun : run step s (leaf.shown env active).toList = some leaf.after := by
          cases s with
          | plain => exact hplain
          | slash => exact hslash fun hstart => hmeet ⟨rfl, hstart⟩
          | escaped => exact (hs rfl).elim
        rw [run_append_of_eq hrun]
        refine (ih (after_ne_escaped leaf) hrest).trans ?_
        simp only [pair_infix_cons, List.head?_cons, List.mem_cons]
        constructor
        · rintro (⟨ha, b, hb, hstart⟩ | ⟨a, b, hab, hm⟩ | ⟨other, hother, hopen⟩)
          · exact .inr (.inl ⟨leaf, b, .inl ⟨rfl, hb⟩, ha, hstart⟩)
          · exact .inr (.inl ⟨a, b, .inr hab, hm⟩)
          · exact .inr (.inr ⟨other, .inr hother, hopen⟩)
        · rintro (⟨ha, b, hb, hstart⟩ | ⟨a, b, ⟨rfl, hb⟩ | hab, ha, hstart⟩ |
            ⟨other, rfl | hother, hopen⟩)
          · cases hb
            exact (hmeet ⟨ha, hstart⟩).elim
          · exact .inl ⟨ha, b, hb, hstart⟩
          · exact .inr (.inl ⟨a, b, hab, ha, hstart⟩)
          · exact (ho hopen).elim
          · exact .inr (.inr ⟨other, hother, hopen⟩)

theorem written_filter (leaves : List Leaf) :
    written env active (leaves.filter fun leaf => leaf.shown env active ≠ "") =
      written env active leaves := by
  induction leaves with
  | nil => rfl
  | cons leaf rest ih =>
    unfold written at ih ⊢
    by_cases h : leaf.shown env active = ""
    · simpa [h] using ih
    · simpa [h] using ih

theorem Leaf.shown_ne_of_opens {leaf : Leaf} (h : leaf.Opens env active) :
    leaf.shown env active ≠ "" := by
  cases leaf with
  | text raw => exact h.elim
  | mark mark => exact h.elim
  | note identifier =>
    obtain ⟨body, parts, hparts, _⟩ := h
    rw [Leaf.shown, noteFor_of_expands hparts]
    simp [Except.toOption, footnoteMarkup]

/-- Pieces open a comment where two of them do that meet, or a footnote among them does by
itself. -/
theorem run_written_iff {leaves : List Leaf} (h : ∀ leaf ∈ leaves, leaf.Proper) :
    run step .plain (written env active leaves) = none ↔
      Meet env active leaves ∨ ∃ leaf ∈ leaves, leaf.Opens env active := by
  have hshown : ∀ leaf ∈ leaves.filter fun leaf => leaf.shown env active ≠ "",
      leaf.Proper ∧ leaf.shown env active ≠ "" := by
    intro leaf hl
    obtain ⟨hl, hne⟩ := List.mem_filter.mp hl
    exact ⟨h leaf hl, by simpa using hne⟩
  rw [← written_filter, run_written (by simp) hshown]
  have hopens : (∃ leaf ∈ leaves.filter fun leaf => leaf.shown env active ≠ "",
      leaf.Opens env active) ↔ ∃ leaf ∈ leaves, leaf.Opens env active := by
    constructor
    · rintro ⟨leaf, hl, ho⟩
      exact ⟨leaf, (List.mem_filter.mp hl).1, ho⟩
    · rintro ⟨leaf, hl, ho⟩
      exact ⟨leaf, List.mem_filter.mpr ⟨hl, by simpa using leaf.shown_ne_of_opens ho⟩, ho⟩
  rw [hopens]
  simp [Meet]

mutual

/-- An inline token is written as some pieces: as text, as a wrapper around inlines, as a reference
to a footnote, or as a break. -/
inductive Spells : Value → List Leaf → Prop
  | text {token : Value} {name raw : String} :
    Token.kind token = .ok (.str name) → inlineKind? name = some .text →
      token.field "raw" (.str "") = .ok (.str raw) → Spells token [.text raw]
  | wrapped {token : Value} {name opening closing : String} {children : List Value}
      {leaves : List Leaf} :
    Token.kind token = .ok (.str name) → inlineKind? name = some (.wrapped opening closing) →
      token.children = .ok children → SpellAll children leaves →
      Spells token (.mark opening :: leaves ++ [.mark closing])
  | note {token : Value} {identifier : String} :
    Token.kind token = .ok (.str "footnote_ref") → identifierOf token = .ok identifier →
      Spells token [.note identifier]
  | softBreak {token : Value} :
    Token.kind token = .ok (.str "softbreak") → Spells token [.mark " "]
  | lineBreak {token : Value} :
    Token.kind token = .ok (.str "linebreak") → Spells token [.mark "\\\n"]

/-- Inline tokens are written as some pieces. -/
inductive SpellAll : List Value → List Leaf → Prop
  | nil : SpellAll [] []
  | cons {token : Value} {rest : List Value} {here more : List Leaf} :
    Spells token here → SpellAll rest more → SpellAll (token :: rest) (here ++ more)

end

theorem mem_marks {name opening closing : String}
    (h : inlineKind? name = some (.wrapped opening closing)) :
    opening ∈ marks ∧ closing ∈ marks := by
  unfold inlineKind? at h
  split at h <;> cases h <;> decide

mutual

theorem Spells.proper {token : Value} {leaves : List Leaf} :
    Spells token leaves → ∀ leaf ∈ leaves, leaf.Proper
  | .text _ _ _ => by simp [Leaf.Proper]
  | .wrapped _ hform _ hall => by
    obtain ⟨hopening, hclosing⟩ := mem_marks hform
    refine List.forall_mem_append.mpr ⟨List.forall_mem_cons.mpr ⟨hopening, hall.proper⟩, ?_⟩
    exact List.forall_mem_singleton.mpr hclosing
  | .note _ _ => by simp [Leaf.Proper]
  | .softBreak _ => by simp [Leaf.Proper, marks]
  | .lineBreak _ => by simp [Leaf.Proper, marks]

theorem SpellAll.proper {tokens : List Value} {leaves : List Leaf} :
    SpellAll tokens leaves → ∀ leaf ∈ leaves, leaf.Proper
  | .nil => by simp
  | .cons hhere hmore => List.forall_mem_append.mpr ⟨hhere.proper, hmore.proper⟩

end

/-- The computation comes to an end with the text of the pieces. -/
def Writes (env : Environment) (active : List String) (r : Rendering String)
    (leaves : List Leaf) : Prop :=
  ∃ text, r.outcome = .ok text ∧ text.toList = written env active leaves

theorem written_append (xs ys : List Leaf) :
    written env active (xs ++ ys) = written env active xs ++ written env active ys :=
  List.flatMap_append

theorem noteFor_outcome (env : Environment) (active : List String) (identifier : String) :
    (noteFor env active identifier).outcome =
      .ok (Leaf.shown env active (.note identifier)) := by
  rw [Leaf.shown]
  obtain ⟨body, parts, hparts⟩ | hnot := expands_or_not env active identifier
  · rw [noteFor_of_expands hparts]
    rfl
  · rw [noteFor_of_not_expands hnot]
    rfl

mutual

theorem Spells.writes {token : Value} {leaves : List Leaf} :
    Spells token leaves → Writes env active (Render.inline env active token) leaves
  | .text hk hform hraw => by
    rw [inline_of_form hk hform]
    refine ⟨_, ?_, (List.append_nil _).symm⟩
    show textMarkup token = _
    rw [textMarkup, hraw]
    rfl
  | .wrapped hk hform hc hall => by
    obtain ⟨text, ho, ht⟩ := hall.writes
    rw [inline_of_form hk hform, inlineOf, inlinesBelow_of_children hc, Rendering.bind_of_ok ho]
    refine ⟨_, rfl, ?_⟩
    rw [String.toList_append, String.toList_append, ht, List.cons_append]
    simp [written, Leaf.shown]
  | .note hk hi => by
    rw [inline_of_form hk rfl, inlineOf, footnoteReference_eq, Rendering.lift_bind_of_ok hi]
    exact ⟨_, noteFor_outcome env active _, (List.append_nil _).symm⟩
  | .softBreak hk => by
    rw [inline_of_form hk rfl]
    exact ⟨_, rfl, (List.append_nil _).symm⟩
  | .lineBreak hk => by
    rw [inline_of_form hk rfl]
    exact ⟨_, rfl, (List.append_nil _).symm⟩

theorem SpellAll.writes {tokens : List Value} {leaves : List Leaf} :
    SpellAll tokens leaves → Writes env active (inlines env active tokens) leaves
  | .nil => by
    rw [inlines]
    exact ⟨"", rfl, rfl⟩
  | .cons hhere hmore => by
    obtain ⟨here, hh, hht⟩ := hhere.writes
    obtain ⟨more, hm, hmt⟩ := hmore.writes
    rw [inlines, Rendering.bind_of_ok hh, Rendering.bind_of_ok hm]
    refine ⟨here ++ more, rfl, ?_⟩
    rw [String.toList_append, hht, hmt, written_append]

end

end Inline

/-! Rendered inlines open a comment exactly where two pieces clash, among themselves or in a
footnote that is expanded among them. -/

section Clash

open Render Scan

variable {env : Environment} {active : List String}

/-- A paragraph of inlines that are written as some pieces. -/
def Paragraph (env : Environment) (block : Value) (leaves : List Leaf) : Prop :=
  Token.kind block = .ok (.str "paragraph") ∧ isOutlineMarker env block = .ok false ∧
    ∃ children, block.children = .ok children ∧ SpellAll children leaves

/-- Pieces clash if a slash at the end of one meets a slash or an asterisk at the beginning of
another, or if this happens in a paragraph of a footnote that is expanded among them. A footnote may
also hold a block of another kind that opens a comment. -/
inductive Clashes (env : Environment) : List String → List Leaf → Prop
  | meet {active : List String} {leaves : List Leaf} :
    Meet env active leaves → Clashes env active leaves
  | paragraph {active : List String} {leaves inner : List Leaf} {identifier : String}
      {body : List Value} {parts : List String} {block : Value} :
    .note identifier ∈ leaves → Expands env active identifier body parts → block ∈ body →
      Paragraph env block inner → Clashes env (Text.lower identifier :: active) inner →
      Clashes env active leaves
  | block {active : List String} {leaves : List Leaf} {identifier text : String}
      {body : List Value} {parts : List String} {block : Value} :
    .note identifier ∈ leaves → Expands env active identifier body parts → block ∈ body →
      (∀ inner, ¬ Paragraph env block inner) →
      (Render.block env (Text.lower identifier :: active) block 0).outcome = .ok (some text) →
      OpensComment text → Clashes env active leaves

/-- A paragraph that is not indented is the text of its inlines. -/
theorem block_of_inlines {token : Value} {children : List Value} {text : String}
    (hk : Token.kind token = .ok (.str "paragraph")) (ho : isOutlineMarker env token = .ok false)
    (hc : token.children = .ok children)
    (h : (inlines env active children).outcome = .ok text) :
    (Render.block env active token 0).outcome = .ok (some text) := by
  have hblock : (Render.block env active token 0).outcome =
      .ok (some (Markup.indent text 0)) := block_of_paragraph hk (paragraph_of_plain ho hc h)
  rwa [Markup.indent_zero] at hblock

theorem exists_opening_block {identifier : String} {body : List Value} {parts : List String}
    (h : Expands env active identifier body parts) :
    (∃ part ∈ parts, OpensComment part) ↔ ∃ block ∈ body, ∃ text,
      (Render.block env (Text.lower identifier :: active) block 0).outcome = .ok (some text) ∧
        OpensComment text := by
  constructor
  · rintro ⟨part, hpart, hopens⟩
    obtain ⟨_, block, hblock, hshown⟩ := (mem_parts_iff h.rendered).mp hpart
    exact ⟨block, hblock, part, hshown, hopens⟩
  · rintro ⟨block, hblock, text, hshown, hopens⟩
    refine ⟨text, (mem_parts_iff h.rendered).mpr ⟨?_, block, hblock, hshown⟩, hopens⟩
    rintro rfl
    cases hopens

theorem Leaf.opens_iff {leaf : Leaf} :
    leaf.Opens env active ↔ ∃ identifier body parts, leaf = .note identifier ∧
      Expands env active identifier body parts ∧ ∃ part ∈ parts, OpensComment part := by
  cases leaf with
  | text raw => simp [Leaf.Opens]
  | mark mark => simp [Leaf.Opens]
  | note identifier => simp [Leaf.Opens]

/-- Rendered inlines open a comment exactly if their pieces clash. -/
theorem inlines_openComment_iff (env : Environment) (active : List String) {tokens : List Value}
    {leaves : List Leaf} (h : SpellAll tokens leaves) :
    ∃ text, (inlines env active tokens).outcome = .ok text ∧
      (OpensComment text ↔ Clashes env active leaves) := by
  -- Inside an expansion fewer footnotes are left to expand.
  induction hn : env.remaining active using Nat.strongRecOn
    generalizing active tokens leaves with
  | _ n ih =>
    obtain ⟨text, ho, ht⟩ := @SpellAll.writes env active _ _ h
    refine ⟨text, ho, ?_⟩
    have hopens : OpensComment text ↔
        Meet env active leaves ∨ ∃ leaf ∈ leaves, leaf.Opens env active := by
      rw [OpensComment, ht]
      exact run_written_iff h.proper
    have hinner {identifier : String} {body : List Value} {parts : List String} {block : Value}
        {inner : List Leaf} (hex : Expands env active identifier body parts)
        (hp : Paragraph env block inner) : ∃ text,
        (Render.block env (Text.lower identifier :: active) block 0).outcome = .ok (some text) ∧
          (OpensComment text ↔ Clashes env (Text.lower identifier :: active) inner) := by
      obtain ⟨hk, hm, children, hc, hs⟩ := hp
      obtain ⟨text, ho, hiff⟩ := ih _ (hn ▸ hex.remaining_lt) _ hs rfl
      exact ⟨text, block_of_inlines hk hm hc ho, hiff⟩
    rw [hopens]
    constructor
    · rintro (hmeet | ⟨leaf, hleaf, hopen⟩)
      · exact .meet hmeet
      · obtain ⟨identifier, body, parts, rfl, hex, hpart⟩ := Leaf.opens_iff.mp hopen
        obtain ⟨block, hblock, text, hshown, htext⟩ := (exists_opening_block hex).mp hpart
        by_cases hp : ∃ inner, Paragraph env block inner
        · obtain ⟨inner, hp⟩ := hp
          obtain ⟨other, hother, hiff⟩ := hinner hex hp
          obtain rfl : text = other := by simpa [hshown] using hother
          exact .paragraph hleaf hex hblock hp (hiff.mp htext)
        · exact .block hleaf hex hblock (not_exists.mp hp) hshown htext
    · rintro (hmeet | ⟨hleaf, hex, hblock, hp, hclash⟩ | ⟨hleaf, hex, hblock, _, hshown, htext⟩)
      · exact .inl hmeet
      · obtain ⟨text, hshown, hiff⟩ := hinner hex hp
        exact .inr ⟨_, hleaf, Leaf.opens_iff.mpr ⟨_, _, _, rfl, hex,
          (exists_opening_block hex).mpr ⟨_, hblock, text, hshown, hiff.mpr hclash⟩⟩⟩
      · exact .inr ⟨_, hleaf, Leaf.opens_iff.mpr ⟨_, _, _, rfl, hex,
          (exists_opening_block hex).mpr ⟨_, hblock, _, hshown, htext⟩⟩⟩

/-- Text with a slash at its end before strong text. -/
def slashBeforeStrong : List Value :=
  [Token.text "a/", Token.branch "strong" [Token.text "b"]]

theorem slashBeforeStrong_spelled : SpellAll slashBeforeStrong
    [.text "a/", .mark "*", .text "b", .mark "*"] :=
  .cons (.text rfl rfl rfl) (.cons (.wrapped rfl rfl rfl (.cons (.text rfl rfl rfl) .nil)) .nil)

theorem inlines_openComment_iff_slashBeforeStrong :
    SpellAll slashBeforeStrong [.text "a/", .mark "*", .text "b", .mark "*"] ∧
      ∃ text, (inlines { convertMath := .ok } [] slashBeforeStrong).outcome = .ok text ∧
        (OpensComment text ↔
          Clashes { convertMath := .ok } [] [.text "a/", .mark "*", .text "b", .mark "*"]) :=
  ⟨slashBeforeStrong_spelled,
    inlines_openComment_iff { convertMath := .ok } [] slashBeforeStrong_spelled⟩

/-- The slash and the mark of the strong text are read together as the beginning of a comment. -/
theorem slashBeforeStrong_opensComment :
    (inlines { convertMath := .ok } [] slashBeforeStrong).outcome = .ok "a/*b*" ∧
      OpensComment "a/*b*" := by
  obtain ⟨text, ho, ht⟩ :=
    @SpellAll.writes { convertMath := .ok } [] _ _ slashBeforeStrong_spelled
  have htext : text = "a/*b*" := String.toList_inj.mp ht
  rw [htext] at ho
  exact ⟨ho, by decide⟩

end Clash

end Typeset.Comment
