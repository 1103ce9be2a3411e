import Mathlib
import Typeset.Proofs.Footnote.Body
import Typeset.Proofs.Markup.Rows
import Typeset.Proofs.Token.Leaves

/-! The lines of a heading. The mark before it makes one line a heading, and each hard break in it
begins a line that is none. -/

namespace Typeset.Layout

open Render Token

variable {env : Environment} {active : List String} {token : Value} {children : List Value}
  {indent : Int}

/-- What a heading is made of: text on one line, breaks, and wrappers around them. -/
inductive Phrase : Value → Prop
  | text {token : Value} {raw : String} (hk : Token.kind token = .ok (.str "text"))
    (hr : token.field "raw" (.str "") = .ok (.str raw)) (hline : '\n' ∉ raw.toList) : Phrase token
  | softBreak {token : Value} (hk : Token.kind token = .ok (.str "softbreak")) : Phrase token
  | lineBreak {token : Value} (hk : Token.kind token = .ok (.str "linebreak")) : Phrase token
  | wrapped {token : Value} {name opening closing : String} {children : List Value}
    (hk : Token.kind token = .ok (.str name))
    (hw : inlineKind? name = some (.wrapped opening closing)) (hc : token.children = .ok children)
    (below : ∀ t ∈ children, Phrase t) : Phrase token

/-- The hard breaks in a token, at any depth of wrappers. -/
def hardBreaks (token : Value) : Nat :=
  match nameOf token with
  | some "linebreak" => 1
  | some "text" | some "softbreak" => 0
  | _ => ((listed token).attach.map fun t => hardBreaks t.1).sum
termination_by sizeOf token
decreasing_by exact sizeOf_lt_of_mem_listed t.2

section Breaks

theorem hardBreaks_of_wrapped {name opening closing : String}
    (hk : Token.kind token = .ok (.str name))
    (hw : inlineKind? name = some (.wrapped opening closing)) (hc : token.children = .ok children) :
    hardBreaks token = (children.map hardBreaks).sum := by
  have hother : name ≠ "" ∧ name ≠ "linebreak" ∧ name ≠ "text" ∧ name ≠ "softbreak" := by
    unfold inlineKind? at hw
    split at hw <;> cases hw <;> decide
  obtain ⟨hne, hline, htext, hsoft⟩ := hother
  rw [hardBreaks, nameOf_of_kind hk hne, List.attach_map_val, listed_of_children hc]
  split <;> simp_all

theorem count_escapeChars (cs : List Char) :
    (Markup.escapeChars cs).count '\n' = cs.count '\n' := by
  induction cs with
  | nil => rfl
  | cons c cs ih =>
    rw [Markup.escapeChars]
    split <;> simp [List.count_cons, ih]

theorem count_indent (text : String) (indent : Int) :
    (Markup.indent text indent).toList.count '\n' = text.toList.count '\n' := by
  have hmargin (levels : Nat) : (Markup.margin levels).count '\n' = 0 := by
    rw [List.count_eq_zero]
    simp [Markup.margin, Markup.unit]
  have hindented (levels : Nat) (cs : List Char) :
      (Markup.indented levels cs).count '\n' = cs.count '\n' := by
    induction cs with
    | nil => rfl
    | cons c cs ih =>
      by_cases hc : c = '\n'
      · rw [hc, Markup.indented_newline, List.count_cons_self, List.count_append, hmargin, ih,
          List.count_cons_self, Nat.zero_add]
      · rw [Markup.indented_of_ne levels hc, List.count_cons_of_ne hc, List.count_cons_of_ne hc, ih]
  rw [Markup.toList_indent, List.count_append, hmargin, hindented, Nat.zero_add]

theorem count_wrapper {name opening closing : String}
    (hw : inlineKind? name = some (.wrapped opening closing)) :
    opening.toList.count '\n' = 0 ∧ closing.toList.count '\n' = 0 := by
  unfold inlineKind? at hw
  split at hw <;> cases hw <;> decide

theorem count_inlines {tokens : List Value}
    (h : ∀ t ∈ tokens, ∃ text, (Render.inline env active t).outcome = .ok text ∧
      text.toList.count '\n' = hardBreaks t) :
    ∃ text, (inlines env active tokens).outcome = .ok text ∧
      text.toList.count '\n' = (tokens.map hardBreaks).sum := by
  induction tokens with
  | nil => exact ⟨"", inlines_nil, rfl⟩
  | cons token rest ih =>
    obtain ⟨⟨here, hhere, hcount⟩, hrest⟩ := List.forall_mem_cons.mp h
    obtain ⟨more, hmore, hsum⟩ := ih hrest
    refine ⟨here ++ more, inlines_cons hhere hmore, ?_⟩
    rw [String.toList_append, List.count_append, hcount, hsum, List.map_cons, List.sum_cons]

/-- Of all that a phrase is made of, hard breaks alone begin a line. -/
theorem Phrase.count_inline (h : Phrase token) :
    ∃ text, (Render.inline env active token).outcome = .ok text ∧
      text.toList.count '\n' = hardBreaks token := by
  induction h with
  | @text token raw hk hr hline =>
    refine ⟨_, Footnote.inline_text hk hr, ?_⟩
    rw [Markup.escape, String.toList_ofList, count_escapeChars, List.count_eq_zero.mpr hline,
      hardBreaks, nameOf_of_kind hk (by decide)]
    rfl
  | @softBreak token hk =>
    refine ⟨_, Footnote.inline_softBreak hk, ?_⟩
    rw [hardBreaks, nameOf_of_kind hk (by decide)]
    rfl
  | @lineBreak token hk =>
    refine ⟨_, Footnote.inline_lineBreak hk, ?_⟩
    rw [hardBreaks, nameOf_of_kind hk (by decide)]
    rfl
  | @wrapped token name opening closing children hk hw hc _ ih =>
    obtain ⟨text, htext, hcount⟩ := count_inlines ih
    obtain ⟨hopening, hclosing⟩ := count_wrapper hw
    refine ⟨_, Footnote.inline_wrapped hk hw hc htext, ?_⟩
    rw [hardBreaks_of_wrapped hk hw hc, ← hcount]
    simp [hopening, hclosing]

end Breaks

section Heading

theorem count_heading (level : Nat) (text : String) (indent : Int) :
    (Markup.indent (headingMark level ++ " " ++ text) indent).toList.count '\n' =
      text.toList.count '\n' := by
  have hmark : (headingMark level ++ " ").toList.count '\n' = 0 := by
    rw [List.count_eq_zero]
    simp [headingMark]
  rw [count_indent, String.toList_append, List.count_append, hmark, Nat.zero_add]

/-- A heading is shown where its level is a whole number, and stays on its line exactly if there is
no hard break in it: each of them begins a line. -/
theorem heading_lines (hk : Token.kind token = .ok (.str "heading"))
    (hc : token.children = .ok children) (h : ∀ t ∈ children, Phrase t) :
    (∀ level, token.attr "level" (.int 1) >>= headingLevel = .ok (some level) →
      ∃ text, (block env active token indent).outcome = .ok (some text)) ∧
      ∀ text, (block env active token indent).outcome = .ok (some text) →
        text.toList.count '\n' = (children.map hardBreaks).sum ∧
          ('\n' ∉ text.toList ↔ ∀ t ∈ children, hardBreaks t = 0) := by
  obtain ⟨shown, hshown, hcount⟩ :=
    @count_inlines env active children fun t ht => (h t ht).count_inline
  refine ⟨fun level hl => ⟨_, Footnote.block_of_heading hk hl hc hshown⟩, fun text htext => ?_⟩
  rw [block_eq_some_iff hk rfl, blockOf] at htext
  obtain ⟨value, -, htext⟩ := Rendering.exists_of_bind htext
  obtain ⟨level, -, htext⟩ := Rendering.exists_of_bind htext
  obtain ⟨inner, hinner, htext⟩ := Rendering.exists_of_bind htext
  rw [inlinesBelow_of_children hc, hshown] at hinner
  cases hinner
  cases level with
  | none => cases htext
  | some level =>
    simp only [Rendering.pure_outcome, Except.ok.injEq, Option.some.injEq] at htext
    subst htext
    rw [← List.count_eq_zero, count_heading, hcount]
    simp [List.sum_eq_zero_iff_forall_eq_nat]

/-- A heading with a hard break. -/
def brokenHeading : Value := branch "heading" [text "a", leaf "linebreak" "", text "b"]

theorem phrase_brokenHeading : ∀ t ∈ [text "a", leaf "linebreak" "", text "b"], Phrase t := by
  have hword (s : String) (hline : '\n' ∉ s.toList) : Phrase (text s) := .text rfl rfl hline
  have hbreak : Phrase (leaf "linebreak" "") := .lineBreak rfl
  simp [hword, hbreak]

theorem heading_lines_broken :
    Token.kind brokenHeading = .ok (.str "heading") ∧
      brokenHeading.children = .ok [text "a", leaf "linebreak" "", text "b"] ∧
      (∀ t ∈ [text "a", leaf "linebreak" "", text "b"], Phrase t) ∧
      ∃ text, (block { convertMath := .ok } [] brokenHeading 0).outcome = .ok (some text) ∧
        '\n' ∈ text.toList := by
  refine ⟨rfl, rfl, phrase_brokenHeading, ?_⟩
  obtain ⟨hends, hlines⟩ := @heading_lines { convertMath := .ok } [] brokenHeading _ 0 rfl rfl
    phrase_brokenHeading
  obtain ⟨text, htext⟩ := hends 1 rfl
  refine ⟨text, htext, ?_⟩
  by_contra hline
  have hbreaks := (hlines text htext).2.mp hline (leaf "linebreak" "") (by simp)
  rw [hardBreaks] at hbreaks
  exact absurd hbreaks (by decide)

/-- What stands behind a hard break is outside the heading. -/
theorem brokenHeading_leaves_line :
    (∀ t ∈ [text "a", leaf "linebreak" "", text "b"], Phrase t) ∧
      (block { convertMath := .ok } [] brokenHeading 0).outcome = .ok (some "= a\\\nb") := by
  refine ⟨phrase_brokenHeading, ?_⟩
  have hword (s : String) : (Render.inline { convertMath := .ok } [] (text s)).outcome =
      .ok (Markup.escape s) := Footnote.inline_text rfl rfl
  have hbreak : (Render.inline { convertMath := .ok } [] (leaf "linebreak" "")).outcome =
      .ok "\\\n" := Footnote.inline_lineBreak rfl
  have hkind : Token.kind brokenHeading = .ok (.str "heading") := rfl
  have hlevel : brokenHeading.attr "level" (.int 1) >>= headingLevel = .ok (some 1) := rfl
  have hshown : Markup.indent (headingMark 1 ++ " " ++
      (Markup.escape "a" ++ ("\\\n" ++ Markup.escape "b"))) 0 = "= a\\\nb" := by decide
  rw [Footnote.block_of_heading hkind hlevel rfl
    (inlines_cons (hword "a") (inlines_cons hbreak (inlines_singleton (hword "b")))), hshown]

end Heading

end Typeset.Layout
