import Typeset.Proofs.Footnote.Trail
import Typeset.Proofs.Render.Footnote
import Typeset.Proofs.Render.Plain

/-! The bodies of footnotes out of headings, paragraphs, lists and quotations over text, breaks,
wrappers and references to footnotes. Each of them is rendered to a text. -/

namespace Typeset.Footnote

open Render

variable {env : Environment} {active : List String} {token : Value} {children : List Value}

/-- Running text: literal text, breaks and references to footnotes, and wrappers around them. -/
inductive Running : Value → Prop
  | text {token : Value} {raw : String} (hk : Token.kind token = .ok (.str "text"))
    (hr : token.field "raw" (.str "") = .ok (.str raw)) : Running token
  | softBreak {token : Value} (hk : Token.kind token = .ok (.str "softbreak")) : Running token
  | lineBreak {token : Value} (hk : Token.kind token = .ok (.str "linebreak")) : Running token
  | wrapped {token : Value} {name opening closing : String} {children : List Value}
    (hk : Token.kind token = .ok (.str name))
    (hw : inlineKind? name = some (.wrapped opening closing)) (hc : token.children = .ok children)
    (below : ∀ t ∈ children, Running t) : Running token
  | reference {token : Value} {identifier : String} (h : IsReference token identifier) :
    Running token

/-- Blocks of running text, and lists and quotations of such blocks. -/
inductive Standing : Value → Prop
  | heading {token : Value} {level : Nat} {children : List Value}
    (hk : Token.kind token = .ok (.str "heading"))
    (hl : token.attr "level" (.int 1) >>= headingLevel = .ok (some level))
    (hc : token.children = .ok children) (below : ∀ t ∈ children, Running t) : Standing token
  | paragraph {token : Value} {children : List Value}
    (hk : Token.kind token = .ok (.str "paragraph")) (hc : token.children = .ok children)
    (below : ∀ t ∈ children, Running t) : Standing token
  | list {token : Value} {marker : String} {items : List Value}
    (hk : Token.kind token = .ok (.str "list")) (hm : listMarker token = .ok marker)
    (hc : token.children = .ok items)
    (hi : ∀ item ∈ items, Token.kind item = .ok (.str "list_item") ∧
      ∃ parts, itemParts item = .ok parts)
    (below : ∀ item ∈ items, ∀ parts, itemParts item = .ok parts → ∀ t ∈ parts, Standing t) :
    Standing token
  | quote {token : Value} {children : List Value}
    (hk : Token.kind token = .ok (.str "block_quote")) (hc : token.children = .ok children)
    (below : ∀ t ∈ children, Standing t) : Standing token

section PlainText

variable {definitions : Targets Definition}

/-- Parts of a plain text that are texts. -/
def AreTexts (parts : List Value) : Prop := ∀ part ∈ parts, ∃ s, part = .str s

theorem join_of_texts {parts : List Value} (h : AreTexts parts) :
    ∃ text, Token.join parts = .ok text := by
  have htexts : ∃ texts, Value.needTexts parts = .ok texts := by
    induction parts with
    | nil => exact ⟨[], rfl⟩
    | cons part rest ih =>
      obtain ⟨⟨s, rfl⟩, hrest⟩ := List.forall_mem_cons.mp h
      obtain ⟨texts, ht⟩ := ih hrest
      rw [Value.needTexts] at ht ⊢
      rw [List.mapM_cons, ht]
      exact ⟨s :: texts, rfl⟩
  obtain ⟨texts, ht⟩ := htexts
  rw [Token.join, ht]
  exact ⟨_, rfl⟩

theorem plainParts_of_each
    (h : ∀ t ∈ children, ∃ parts, Token.plainPart definitions t = .ok parts ∧ AreTexts parts) :
    ∃ parts, Token.plainParts definitions children = .ok parts ∧ AreTexts parts := by
  induction children with
  | nil =>
    rw [Token.plainParts]
    exact ⟨[], rfl, List.forall_mem_nil _⟩
  | cons token rest ih =>
    obtain ⟨⟨here, hh, hhere⟩, hrest⟩ := List.forall_mem_cons.mp h
    obtain ⟨more, hm, hmore⟩ := ih hrest
    rw [Token.plainParts, hh, hm]
    exact ⟨here ++ more, rfl, List.forall_mem_append.mpr ⟨hhere, hmore⟩⟩

theorem Running.plainPart (h : Running token) :
    ∃ parts, Token.plainPart definitions token = .ok parts ∧ AreTexts parts := by
  induction h with
  | text hk hr =>
    rw [Token.plainPart, hk, hr]
    exact ⟨_, rfl, List.forall_mem_singleton.mpr ⟨_, rfl⟩⟩
  | softBreak hk =>
    rw [Token.plainPart, hk]
    exact ⟨_, rfl, List.forall_mem_singleton.mpr ⟨_, rfl⟩⟩
  | lineBreak hk =>
    rw [Token.plainPart, hk]
    exact ⟨_, rfl, List.forall_mem_singleton.mpr ⟨_, rfl⟩⟩
  | @wrapped token name opening closing children hk hw hc _ ih =>
    obtain ⟨parts, hp, htexts⟩ := plainParts_of_each ih
    obtain ⟨text, ht⟩ := join_of_texts htexts
    have hother : name ∉ ["text", "codespan", "link_reference", "linebreak", "softbreak", "image",
        "image_reference", "footnote_ref"] := by
      unfold inlineKind? at hw
      split at hw <;> cases hw <;> decide
    simp only [List.mem_cons, List.not_mem_nil, or_false, not_or] at hother
    refine ⟨[.str text], ?_, List.forall_mem_singleton.mpr ⟨text, rfl⟩⟩
    rw [Token.plainPart, hk]
    simp only [bind, Except.bind, Value.isText, beq_iff_eq, Bool.or_eq_true, hother, or_self,
      if_false]
    split
    · simp_all
    next below hbelow =>
      obtain rfl : children = below := by simpa [hc] using hbelow
      simp only [hp, ht]
      rfl
  | reference h =>
    rw [Token.plainPart, h.1]
    exact ⟨_, rfl, List.forall_mem_nil _⟩

theorem exists_isOutlineMarker (hc : token.children = .ok children)
    (h : ∀ t ∈ children, Running t) : ∃ answer, isOutlineMarker env token = .ok answer := by
  obtain ⟨parts, hp, htexts⟩ := plainParts_of_each fun t ht => (h t ht).plainPart
  obtain ⟨plain, hplain⟩ := join_of_texts htexts
  exact ⟨_, isOutlineMarker_of_plainParts hc hp hplain⟩

end PlainText

section Inlines

variable {name opening closing identifier raw text : String}

theorem inline_text (hk : Token.kind token = .ok (.str "text"))
    (hr : token.field "raw" (.str "") = .ok (.str raw)) :
    (Render.inline env active token).outcome = .ok (Markup.escape raw) := by
  rw [inline_of_form hk rfl]
  simp only [inlineOf, textMarkup, hr, bind, Except.bind]
  rfl

theorem inline_softBreak (hk : Token.kind token = .ok (.str "softbreak")) :
    (Render.inline env active token).outcome = .ok " " := by
  rw [inline_of_form hk rfl]
  rfl

theorem inline_lineBreak (hk : Token.kind token = .ok (.str "linebreak")) :
    (Render.inline env active token).outcome = .ok "\\\n" := by
  rw [inline_of_form hk rfl]
  rfl

theorem inline_wrapped (hk : Token.kind token = .ok (.str name))
    (hw : inlineKind? name = some (.wrapped opening closing)) (hc : token.children = .ok children)
    (h : (inlines env active children).outcome = .ok text) :
    (Render.inline env active token).outcome = .ok (opening ++ text ++ closing) := by
  rw [inline_of_form hk hw, inlineOf, inlinesBelow_of_children hc, Rendering.bind_of_ok h]
  rfl

theorem inline_reference (h : IsReference token identifier) :
    (Render.inline env active token).outcome = (noteFor env active identifier).outcome := by
  rw [inline_of_form h.1 rfl, inlineOf, footnoteReference_eq, Rendering.lift_bind_of_ok h.2]

theorem noteFor_ends (env : Environment) (active : List String) (identifier : String) :
    ∃ text, (noteFor env active identifier).outcome = .ok text := by
  obtain ⟨body, parts, hex⟩ | hnot := expands_or_not env active identifier
  · exact ⟨_, noteFor_of_expands hex⟩
  · exact ⟨_, noteFor_of_not_expands hnot⟩

theorem inlines_of_each {tokens : List Value}
    (h : ∀ t ∈ tokens, ∃ text, (Render.inline env active t).outcome = .ok text) :
    ∃ text, (inlines env active tokens).outcome = .ok text := by
  induction tokens with
  | nil => exact ⟨_, inlines_nil⟩
  | cons token rest ih =>
    obtain ⟨⟨here, hhere⟩, hrest⟩ := List.forall_mem_cons.mp h
    obtain ⟨more, hmore⟩ := ih hrest
    exact ⟨_, inlines_cons hhere hmore⟩

theorem Running.exists_text (h : Running token) (env : Environment) (active : List String) :
    ∃ text, (Render.inline env active token).outcome = .ok text := by
  induction h with
  | text hk hr => exact ⟨_, inline_text hk hr⟩
  | softBreak hk => exact ⟨_, inline_softBreak hk⟩
  | lineBreak hk => exact ⟨_, inline_lineBreak hk⟩
  | wrapped hk hw hc _ ih =>
    obtain ⟨text, ht⟩ := inlines_of_each ih
    exact ⟨_, inline_wrapped hk hw hc ht⟩
  | @reference token identifier h =>
    obtain ⟨text, ht⟩ := noteFor_ends env active identifier
    exact ⟨text, (inline_reference h).trans ht⟩

end Inlines

section Blocks

variable {text : String} {indent : Int} {rest : List Value} {parts : List String}

theorem paragraph_of_outline (h : isOutlineMarker env token = .ok true) :
    (paragraph env active token).outcome = .ok outline := by
  rw [paragraph, Rendering.lift_bind_of_ok h]
  rfl

theorem block_of_heading {level : Nat} (hk : Token.kind token = .ok (.str "heading"))
    (hl : token.attr "level" (.int 1) >>= headingLevel = .ok (some level))
    (hc : token.children = .ok children) (h : (inlines env active children).outcome = .ok text) :
    (block env active token indent).outcome =
      .ok (some (Markup.indent (headingMark level ++ " " ++ text) indent)) := by
  rw [block_eq_some_iff hk rfl]
  exact blockOf_heading hl (by rw [inlinesBelow_of_children hc, h])

theorem block_of_quote (hk : Token.kind token = .ok (.str "block_quote"))
    (hc : token.children = .ok children) (h : (blocks env active children 0).outcome = .ok parts) :
    (block env active token indent).outcome =
      .ok (some (quoteBlock (String.intercalate "\n\n" parts) indent)) := by
  rw [block_eq_some_iff hk rfl, blockOf_quote hc, Rendering.bind_of_ok h]
  rfl

/-- A block that comes out as text is one of the parts, unless the text is empty. -/
theorem blocks_cons_of_some (h : (block env active token indent).outcome = .ok (some text))
    (hrest : (blocks env active rest indent).outcome = .ok parts) :
    (blocks env active (token :: rest) indent).outcome =
      .ok (if text = "" then parts else text :: parts) := by
  rw [blocks, Rendering.bind_of_ok h, Rendering.bind_of_ok hrest]
  rfl

end Blocks

end Typeset.Footnote
