import Typeset.Proofs.Render.Form

/-! Paragraphs whose only child is a run of text, raw inline markup or an image. -/

namespace Typeset.Render

open Token (branch text)

variable {env : Environment} {active : List String} {s : String} {indent : Int}

/-- A paragraph of plain text. -/
def plainParagraph (s : String) : Value := branch "paragraph" [text s]

theorem children_plainParagraph (s : String) : (plainParagraph s).children = .ok [text s] := rfl

theorem inlines_cons {token : Value} {rest : List Value} {here more : String}
    (hhere : (Render.inline env active token).outcome = .ok here)
    (hmore : (inlines env active rest).outcome = .ok more) :
    (inlines env active (token :: rest)).outcome = .ok (here ++ more) := by
  rw [inlines, Rendering.bind_of_ok hhere, Rendering.bind_of_ok hmore]
  rfl

theorem inlines_nil : (inlines env active []).outcome = .ok "" := by
  rw [inlines]
  rfl

theorem inlines_singleton {token : Value} {here : String}
    (h : (Render.inline env active token).outcome = .ok here) :
    (inlines env active [token]).outcome = .ok here := by
  simpa using inlines_cons h inlines_nil

theorem inline_literal {kind : String} (hkind : inlineKind? kind = some .text) (s : String) :
    (Render.inline env active (Token.leaf kind s)).outcome = .ok (Markup.escape s) := by
  have hname : Token.kind (Token.leaf kind s) = .ok (.str kind) := rfl
  rw [inline_of_form hname hkind]
  rfl

theorem inlines_text (s : String) :
    (inlines env active [text s]).outcome = .ok (Markup.escape s) := by
  have hkind : inlineKind? "text" = some .text := rfl
  exact inlines_singleton (inline_literal hkind s)

/-- Whether a paragraph is the marker of an outline depends on its plain text. -/
theorem isOutlineMarker_of_plainParts {token : Value} {children parts : List Value}
    {plain : String} (hc : token.children = .ok children)
    (hparts : Token.plainParts env.definitions children = .ok parts)
    (hjoin : Token.join parts = .ok plain) :
    isOutlineMarker env token = .ok (Text.lower (Text.strip plain) == "[toc]") := by
  have hfield : ∃ value, token.field "children" (.list []) = .ok value ∧
      value.tokens = .ok children := by
    unfold Value.children Value.childrenAs at hc
    unfold Value.field Value.field?
    split at hc
    next fields =>
      split at hc
      next value hvalue => exact ⟨value, by rw [hvalue]; rfl, hc⟩
      next hnone => exact ⟨.list [], by rw [hnone]; rfl, hc⟩
    · cases hc
  obtain ⟨value, hvalue, htokens⟩ := hfield
  simp only [isOutlineMarker, hvalue, Token.plainText, htokens, hparts, hjoin, bind, Except.bind]
  rfl

theorem isOutlineMarker_plainParagraph (s : String) :
    isOutlineMarker env (plainParagraph s) = .ok (Text.lower (Text.strip s) == "[toc]") := by
  have hparts : Token.plainParts env.definitions [text s] = .ok [.str s] := by
    rw [Token.plainParts, Token.plainPart, Token.plainParts]
    rfl
  have hjoin : Token.join [.str s] = .ok s := by
    simp [Token.join, Value.needTexts, Value.needText, Except.map, bind, Except.bind, pure,
      Except.pure]
  exact isOutlineMarker_of_plainParts rfl hparts hjoin

/-- A paragraph of an image. -/
def imageParagraph (address : Value) : Value :=
  branch "paragraph" [Token.marked "image" [("url", address)]]

theorem children_imageParagraph (address : Value) :
    (imageParagraph address).children = .ok [Token.marked "image" [("url", address)]] := rfl

theorem isOutlineMarker_imageParagraph (address : Value) :
    isOutlineMarker env (imageParagraph address) = .ok false := by
  have hparts : Token.plainParts env.definitions [Token.marked "image" [("url", address)]] =
      .ok [] := by
    rw [Token.plainParts, Token.plainPart, Token.plainParts]
    rfl
  have hmarker : isOutlineMarker env (imageParagraph address) =
      .ok (Text.lower (Text.strip "") == "[toc]") := isOutlineMarker_of_plainParts rfl hparts rfl
  exact hmarker

/-- A paragraph of raw inline markup, which is no part of the plain text of its paragraph. -/
def rawParagraph (s : String) : Value := branch "paragraph" [Token.leaf "html_inline" s]

theorem isOutlineMarker_rawParagraph (s : String) :
    isOutlineMarker env (rawParagraph s) = .ok false := by
  have hpart : Token.plainPart env.definitions (Token.leaf "html_inline" s) = .ok [.str ""] := by
    have hkind : Token.kind (Token.leaf "html_inline" s) = .ok (.str "html_inline") := rfl
    have hchildren : (Token.leaf "html_inline" s).children = .ok [] := rfl
    rw [Token.plainPart, hkind]
    dsimp only [bind, Except.bind]
    rw [if_neg (by decide), if_neg (by decide), if_neg (by decide), if_neg (by decide),
      if_neg (by decide)]
    split
    · simp_all
    next children hc =>
      obtain rfl : children = [] := by simpa [hchildren] using hc.symm
      rw [Token.plainParts]
      rfl
  have hparts : Token.plainParts env.definitions [Token.leaf "html_inline" s] = .ok [.str ""] := by
    rw [Token.plainParts, hpart, Token.plainParts]
    rfl
  have hmarker : isOutlineMarker env (rawParagraph s) =
      .ok (Text.lower (Text.strip "") == "[toc]") := isOutlineMarker_of_plainParts rfl hparts rfl
  exact hmarker

theorem paragraph_of_plain {token : Value} {children : List Value} {text : String}
    (ho : isOutlineMarker env token = .ok false) (hc : token.children = .ok children)
    (h : (inlines env active children).outcome = .ok text) :
    (paragraph env active token).outcome = .ok text := by
  rw [paragraph, Rendering.lift_bind_of_ok ho, inlinesBelow_of_children hc]
  exact h

theorem paragraph_rawParagraph (s : String) :
    (paragraph env active (rawParagraph s)).outcome = .ok (Markup.escape s) := by
  have hchildren : (rawParagraph s).children = .ok [Token.leaf "html_inline" s] := rfl
  have hkind : inlineKind? "html_inline" = some .text := rfl
  exact paragraph_of_plain (isOutlineMarker_rawParagraph s) hchildren
    (inlines_singleton (inline_literal hkind s))

theorem paragraph_plainParagraph (h : Text.lower (Text.strip s) ≠ "[toc]") :
    (paragraph env active (plainParagraph s)).outcome = .ok (Markup.escape s) := by
  refine paragraph_of_plain ?_ (children_plainParagraph s) (inlines_text s)
  rw [isOutlineMarker_plainParagraph]
  simpa using h

theorem block_of_paragraph {token : Value} {text : String}
    (hk : Token.kind token = .ok (.str "paragraph"))
    (h : (paragraph env active token).outcome = .ok text) :
    (block env active token indent).outcome = .ok (some (Markup.indent text indent)) := by
  rw [block_eq_some_iff hk rfl, blockOf_paragraph, Rendering.bind_of_ok h]
  rfl

theorem block_plainParagraph (h : Text.lower (Text.strip s) ≠ "[toc]") :
    (block env active (plainParagraph s) indent).outcome =
      .ok (some (Markup.indent (Markup.escape s) indent)) :=
  block_of_paragraph rfl (paragraph_plainParagraph h)

theorem block_rawParagraph (s : String) :
    (block env active (rawParagraph s) indent).outcome =
      .ok (some (Markup.indent (Markup.escape s) indent)) :=
  block_of_paragraph rfl (paragraph_rawParagraph s)

theorem item_plainParagraph {marker : String} (h : Text.lower (Text.strip s) ≠ "[toc]") :
    (item env active marker (branch "list_item" [plainParagraph s]) indent).outcome =
      .ok (lines (itemLead marker (Markup.escape s) indent)) := by
  have hparts : itemParts (branch "list_item" [plainParagraph s]) = .ok [plainParagraph s] := rfl
  have hlead : IsLead (plainParagraph s) := rfl
  rw [item_of_lead hparts hlead, Rendering.bind_of_ok (paragraph_plainParagraph h), blocks]
  simp [Rendering.after]

end Typeset.Render
