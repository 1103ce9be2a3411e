import Typeset.Proofs.Footnote.Body
import Typeset.Proofs.Layout.Lookalike
import Typeset.Proofs.Markup.Ending

/-! How the body of a footnote ends. A hard break is a backslash with the end of a line behind it.
Where nothing but blanks comes after it, the blanks are taken away, and the backslash stands right
before the bracket that was to close the footnote. -/

namespace Typeset.Footnote

open Render Markup

variable {env : Environment} {active : List String} {token item : Value}
  {tokens children parts items : List Value}

/-- Running text that shows nothing but blanks: blanks, soft breaks, and references to footnotes
that are not expanded. -/
inductive Faint (env : Environment) (active : List String) : Value → Prop
  | text {token : Value} {raw : String} (hk : Token.kind token = .ok (.str "text"))
    (hr : token.field "raw" (.str "") = .ok (.str raw)) (hb : Text.isBlankText raw = true) :
    Faint env active token
  | softBreak {token : Value} (hk : Token.kind token = .ok (.str "softbreak")) :
    Faint env active token
  | reference {token : Value} {identifier : String} (h : IsReference token identifier)
    (hnot : ∀ body parts, ¬Expands env active identifier body parts) : Faint env active token

/-- A hard break. -/
def IsHardBreak (token : Value) : Prop := Token.kind token = .ok (.str "linebreak")

/-- Running text that ends in a hard break, with nothing but blanks shown behind it. -/
def HardEnd (env : Environment) (active : List String) : List Value → Prop :=
  EndsIn IsHardBreak (Faint env active)

/-- Blocks that show nothing but blanks: paragraphs of such text, and lists without items. -/
inductive FaintBlock (env : Environment) (active : List String) : Value → Prop
  | paragraph {token : Value} {children : List Value}
    (hk : Token.kind token = .ok (.str "paragraph"))
    (ho : isOutlineMarker env token = .ok false) (hc : token.children = .ok children)
    (h : ∀ t ∈ children, Faint env active t) : FaintBlock env active token
  | list {token : Value} (hk : Token.kind token = .ok (.str "list"))
    (hc : token.children = .ok []) : FaintBlock env active token

/-- A block breaks off in a hard break: running text that ends in one, or a list whose last item has
such a block last, blocks that show nothing but blanks apart. A quotation has its bracket behind
whatever it ends in. -/
inductive BreaksOff (env : Environment) (active : List String) : Value → Prop
  | heading {token : Value} {children : List Value}
    (hk : Token.kind token = .ok (.str "heading")) (hc : token.children = .ok children)
    (h : HardEnd env active children) : BreaksOff env active token
  | paragraph {token : Value} {children : List Value}
    (hk : Token.kind token = .ok (.str "paragraph"))
    (ho : isOutlineMarker env token = .ok false) (hc : token.children = .ok children)
    (h : HardEnd env active children) : BreaksOff env active token
  | list {token item block : Value} {items before after : List Value}
    (hk : Token.kind token = .ok (.str "list")) (hc : token.children = .ok (items ++ [item]))
    (hp : itemParts item = .ok (before ++ block :: after)) (hb : BreaksOff env active block)
    (ha : ∀ t ∈ after, FaintBlock env active t) : BreaksOff env active token

/-- Blocks that break off in the last one that shows more than blanks. -/
def BodyBreaksOff (env : Environment) (active : List String) : List Value → Prop :=
  EndsIn (BreaksOff env active) (FaintBlock env active)

/-- An item breaks off as the blocks in it do. -/
def ItemBreaksOff (env : Environment) (active : List String) (item : Value) : Prop :=
  ∃ parts, itemParts item = .ok parts ∧ BodyBreaksOff env active parts

/-- When a text ends in a backslash that escapes what follows, and when it is blank. -/
structure EndsAs (dangling blank : Prop) (text : String) : Prop where
  dangling_iff : Dangling text.toList ↔ dangling
  blank_iff : Blank text.toList ↔ blank

theorem endsAs_of_firm {D B : Prop} {text : String} (h : Firm text.toList) (hd : ¬D) (hb : ¬B) :
    EndsAs D B text :=
  ⟨iff_of_false h.not_dangling hd, iff_of_false h.not_blank hb⟩

section Inlines

theorem firm_wrapped {name opening closing : String}
    (h : inlineKind? name = some (.wrapped opening closing)) (text : String) :
    Firm (opening ++ text ++ closing).toList := by
  have hclosing : ∃ c, closing.toList = [c] ∧ c ≠ '\\' ∧ Text.isBlank c = false := by
    unfold inlineKind? at h
    split at h <;> cases h <;> exact ⟨_, rfl, by decide, by decide⟩
  obtain ⟨c, hc, hslash, hblank⟩ := hclosing
  rw [String.toList_append, hc]
  exact firm_concat hslash hblank

theorem firm_footnoteMarkup (texts : List String) : Firm (footnoteMarkup texts).toList := by
  rw [footnoteMarkup, String.toList_append]
  exact firm_concat (by decide) (by decide)

theorem not_faint_of_kind {name : String} (hk : Token.kind token = .ok (.str name))
    (h : name ∉ ["text", "softbreak", "footnote_ref"]) : ¬Faint env active token := by
  intro hfaint
  cases hfaint with
  | text hother => simp [hk] at hother; simp [hother] at h
  | softBreak hother => simp [hk] at hother; simp [hother] at h
  | reference hother => simp [hk, IsReference] at hother; simp [hother] at h

theorem not_isHardBreak {name : String} (hk : Token.kind token = .ok (.str name))
    (h : name ≠ "linebreak") : ¬IsHardBreak token := by
  simpa [IsHardBreak, hk] using h

theorem faint_text_iff {raw : String} (hk : Token.kind token = .ok (.str "text"))
    (hr : token.field "raw" (.str "") = .ok (.str raw)) :
    Blank raw.toList ↔ Faint env active token := by
  constructor
  · exact fun h => .text hk hr (List.all_eq_true.mpr h)
  · intro h
    cases h with
    | text _ hother hb =>
      obtain rfl : raw = _ := by simpa [hr] using hother
      exact List.all_eq_true.mp hb
    | softBreak hother => simp [hk] at hother
    | reference hother => simp [hk, IsReference] at hother

theorem faint_reference_iff {identifier : String} (h : IsReference token identifier) :
    Faint env active token ↔ ∀ body parts, ¬Expands env active identifier body parts := by
  constructor
  · intro hfaint
    cases hfaint with
    | text hother => simp [h.1] at hother
    | softBreak hother => simp [h.1] at hother
    | reference hother hnot =>
      obtain rfl : identifier = _ := by simpa [h.2] using hother.2
      exact hnot
  · exact .reference h

/-- Running text is finished, and of its tokens only a hard break ends in a backslash. -/
theorem inline_ending (h : Running token) (env : Environment) (active : List String) :
    ∃ text, (Render.inline env active token).outcome = .ok text ∧ ¬Unfinished text.toList ∧
      EndsAs (IsHardBreak token) (Faint env active token) text := by
  cases h with
  | text hk hr =>
    obtain ⟨hfinished, hdangling, hblank⟩ := escapeChars_ending (String.toList _)
    refine ⟨_, inline_text hk hr, ?_, ?_, ?_⟩
    · rw [Markup.escape, String.toList_ofList]
      exact hfinished
    · rw [Markup.escape, String.toList_ofList]
      exact iff_of_false hdangling (not_isHardBreak hk (by decide))
    · rw [Markup.escape, String.toList_ofList, hblank]
      exact faint_text_iff hk hr
  | softBreak hk =>
    have hblank : Blank " ".toList := by decide
    refine ⟨_, inline_softBreak hk, hblank.not_unfinished, ?_, iff_of_true hblank (.softBreak hk)⟩
    exact iff_of_false hblank.not_dangling (not_isHardBreak hk (by decide))
  | lineBreak hk =>
    have hdangling : Dangling (([] ++ ['\\']) ++ ['\n']) :=
      (dangling_concat_blank (by decide)).mpr (dangling_slash.mpr not_unfinished_nil)
    refine ⟨_, inline_lineBreak hk, ?_, iff_of_true hdangling hk, iff_of_false (by decide) ?_⟩
    · exact @not_unfinished_concat '\n' ['\\'] (by decide)
    · exact not_faint_of_kind hk (by decide)
  | @wrapped _ name _ _ _ hk hw hc below =>
    obtain ⟨text, ht⟩ := inlines_of_each fun t h => (below t h).exists_text env active
    have hfirm := firm_wrapped hw text
    have hname : name ∉ ["text", "softbreak", "footnote_ref", "linebreak"] := by
      unfold inlineKind? at hw
      split at hw <;> cases hw <;> decide
    simp only [List.mem_cons, List.not_mem_nil, or_false, not_or] at hname
    refine ⟨_, inline_wrapped hk hw hc ht, hfirm.finished, endsAs_of_firm hfirm ?_ ?_⟩
    · exact not_isHardBreak hk hname.2.2.2
    · exact not_faint_of_kind hk (by simp [hname])
  | @reference _ identifier h =>
    have hbreak := not_isHardBreak h.1 (by decide)
    obtain ⟨body, texts, hex⟩ | hnot := expands_or_not env active identifier
    · have hfirm := firm_footnoteMarkup texts
      refine ⟨_, (inline_reference h).trans (noteFor_of_expands hex), hfirm.finished,
        endsAs_of_firm hfirm hbreak fun hfaint => ?_⟩
      exact (faint_reference_iff h).mp hfaint body texts hex
    · have hnone := (inline_reference h).trans (noteFor_of_not_expands hnot)
      refine ⟨"", hnone, not_unfinished_nil, ?_, ?_⟩
      · exact iff_of_false not_dangling_nil hbreak
      · exact iff_of_true (List.forall_mem_nil _) (.reference h hnot)

theorem inlines_ending (h : ∀ t ∈ tokens, Running t) (env : Environment) (active : List String) :
    ∃ text, (inlines env active tokens).outcome = .ok text ∧ ¬Unfinished text.toList ∧
      EndsAs (HardEnd env active tokens) (∀ t ∈ tokens, Faint env active t) text := by
  induction tokens with
  | nil =>
    refine ⟨_, inlines_nil, not_unfinished_nil, iff_of_false not_dangling_nil endsIn_nil, ?_⟩
    exact iff_of_true (List.forall_mem_nil _) (List.forall_mem_nil _)
  | cons token rest ih =>
    obtain ⟨htoken, hrest⟩ := List.forall_mem_cons.mp h
    obtain ⟨here, hh, hfinished, hhere⟩ := inline_ending htoken env active
    obtain ⟨more, hm, hgoes, hmore⟩ := ih hrest
    refine ⟨_, inlines_cons hh hm, ?_, ?_, ?_⟩
    · rw [String.toList_append, unfinished_append hfinished]
      exact hgoes
    · rw [String.toList_append, dangling_append hfinished, hmore.dangling_iff, hmore.blank_iff,
        hhere.dangling_iff]
      exact endsIn_cons.symm
    · rw [String.toList_append, blank_append, hhere.blank_iff, hmore.blank_iff,
        List.forall_mem_cons]

end Inlines

section Blocks

theorem EndsAs.indent {D B : Prop} {text : String} (h : EndsAs D B text) (level : Int) :
    EndsAs D B (Markup.indent text level) :=
  ⟨(dangling_indent text level).1.trans h.dangling_iff,
    (dangling_indent text level).2.trans h.blank_iff⟩

theorem breaksOff_heading_iff (hk : Token.kind token = .ok (.str "heading"))
    (hc : token.children = .ok children) :
    BreaksOff env active token ↔ HardEnd env active children := by
  constructor
  · intro h
    cases h with
    | heading _ hother h =>
      obtain rfl : children = _ := by simpa [hc] using hother
      exact h
    | paragraph hother => simp [hk] at hother
    | list hother => simp [hk] at hother
  · exact .heading hk hc

theorem breaksOff_paragraph_iff (hk : Token.kind token = .ok (.str "paragraph"))
    (hc : token.children = .ok children) :
    BreaksOff env active token ↔
      isOutlineMarker env token = .ok false ∧ HardEnd env active children := by
  constructor
  · intro h
    cases h with
    | heading hother => simp [hk] at hother
    | paragraph _ ho hother h =>
      obtain rfl : children = _ := by simpa [hc] using hother
      exact ⟨ho, h⟩
    | list hother => simp [hk] at hother
  · exact fun h => .paragraph hk h.1 hc h.2

theorem breaksOff_list_iff (hk : Token.kind token = .ok (.str "list"))
    (hc : token.children = .ok items) :
    BreaksOff env active token ↔ EndsIn (ItemBreaksOff env active) (fun _ => False) items := by
  constructor
  · intro h
    cases h with
    | heading hother => simp [hk] at hother
    | paragraph hother => simp [hk] at hother
    | @list _ item block others before after _ hother hp hb ha =>
      obtain rfl : items = others ++ [item] := by simpa [hc] using hother
      exact ⟨others, item, [], rfl, ⟨_, hp, before, block, after, rfl, hb, ha⟩,
        List.forall_mem_nil _⟩
  · rintro ⟨before, item, after, rfl, ⟨parts, hp, others, block, more, rfl, hb, ha⟩, hnone⟩
    have hlast : after = [] := List.eq_nil_iff_forall_not_mem.mpr hnone
    rw [hlast] at hc
    exact .list hk hc hp hb ha

theorem faintBlock_paragraph_iff (hk : Token.kind token = .ok (.str "paragraph"))
    (hc : token.children = .ok children) :
    FaintBlock env active token ↔
      isOutlineMarker env token = .ok false ∧ ∀ t ∈ children, Faint env active t := by
  constructor
  · intro h
    cases h with
    | paragraph _ ho hother h =>
      obtain rfl : children = _ := by simpa [hc] using hother
      exact ⟨ho, h⟩
    | list hother => simp [hk] at hother
  · exact fun h => .paragraph hk h.1 hc h.2

theorem faintBlock_list_iff (hk : Token.kind token = .ok (.str "list"))
    (hc : token.children = .ok items) : FaintBlock env active token ↔ items = [] := by
  constructor
  · intro h
    cases h with
    | paragraph hother => simp [hk] at hother
    | list _ hother => simpa [hc] using hother
  · rintro rfl
    exact .list hk hc

theorem not_faintBlock_of_kind {name : String} (hk : Token.kind token = .ok (.str name))
    (h : name ≠ "paragraph" ∧ name ≠ "list") : ¬FaintBlock env active token := by
  intro hfaint
  cases hfaint with
  | paragraph hother => simp [hk, h.1] at hother
  | list hother => simp [hk, h.2] at hother

/-- The text of a paragraph. The marker of an outline is written as a call. -/
theorem paragraph_ending (hk : Token.kind token = .ok (.str "paragraph"))
    (hc : token.children = .ok children) (h : ∀ t ∈ children, Running t) (env : Environment)
    (active : List String) :
    ∃ text, (paragraph env active token).outcome = .ok text ∧
      EndsAs (BreaksOff env active token) (FaintBlock env active token) text := by
  obtain ⟨answer, ho⟩ := @exists_isOutlineMarker env _ _ hc h
  rw [breaksOff_paragraph_iff hk hc, faintBlock_paragraph_iff hk hc, ho]
  cases answer with
  | true =>
    have hfirm : Firm outline.toList :=
      @firm_concat ')' "#outline(title: auto, indent: auto".toList (by decide) (by decide)
    exact ⟨outline, paragraph_of_outline ho, endsAs_of_firm hfirm (by simp) (by simp)⟩
  | false =>
    obtain ⟨text, ht, -, hends⟩ := inlines_ending h env active
    exact ⟨text, paragraph_of_plain ho hc ht, by simpa using hends⟩

/-- A beginning that is not blank makes no difference to how a text dangles. -/
theorem EndsAs.behind {D B : Prop} {start text : String} (h : EndsAs D B text)
    (hs : Firm start.toList) : EndsAs D False (start ++ text) := by
  refine ⟨?_, iff_of_false (fun hblank => ?_) not_false⟩
  · rw [String.toList_append, dangling_append hs.finished, ← h.dangling_iff]
    exact or_iff_left fun hboth => hs.not_dangling hboth.2
  · rw [String.toList_append, blank_append] at hblank
    exact hs.not_blank hblank.1

theorem firm_space {start : String} (h : Firm start.toList) : Firm (start ++ " ").toList := by
  have hblank : Blank " ".toList := by decide
  rw [String.toList_append]
  exact h.append hblank.not_unfinished hblank.not_dangling

theorem firm_headingMark {level : Nat} (h : 1 ≤ level) : Firm (headingMark level).toList := by
  obtain ⟨n, rfl⟩ := Nat.exists_eq_add_of_le' h
  rw [headingMark, String.toList_ofList, List.replicate_succ']
  exact firm_concat (by decide) (by decide)

theorem firm_quoteBlock (body : String) (level : Int) : Firm (quoteBlock body level).toList := by
  have hclosing : (Markup.indent "]" level).toList = margin level.toNat ++ [']'] := by
    rw [toList_indent]
    rfl
  unfold quoteBlock
  dsimp only
  split
  all_goals
    simp only [lines, String.intercalate_cons_cons, String.intercalate_singleton,
      String.toList_append, hclosing, ← List.append_assoc]
    exact firm_concat (by decide) (by decide)

/-- A block comes out, at any level, as a text that ends as the block does. -/
def BlockEnds (env : Environment) (active : List String) (token : Value) : Prop :=
  ∀ level : Nat, ∃ text, (block env active token level).outcome = .ok (some text) ∧
    EndsAs (BreaksOff env active token) (FaintBlock env active token) text

theorem blocks_ending (h : ∀ t ∈ tokens, BlockEnds env active t) (level : Nat) :
    ∃ texts, (blocks env active tokens level).outcome = .ok texts ∧
      (EndsIn (fun text => Dangling text.toList) (fun text => Blank text.toList) texts ↔
        BodyBreaksOff env active tokens) ∧
      ((∀ text ∈ texts, Blank text.toList) ↔ ∀ t ∈ tokens, FaintBlock env active t) := by
  induction tokens with
  | nil =>
    refine ⟨_, blocks_nil, iff_of_false endsIn_nil endsIn_nil, ?_⟩
    exact iff_of_true (List.forall_mem_nil _) (List.forall_mem_nil _)
  | cons token rest ih =>
    obtain ⟨htoken, hrest⟩ := List.forall_mem_cons.mp h
    obtain ⟨text, ht, hends⟩ := htoken level
    obtain ⟨more, hm, hmore, hblank⟩ := ih hrest
    refine ⟨_, blocks_cons_of_some ht hm, ?_⟩
    rw [BodyBreaksOff, endsIn_cons, ← BodyBreaksOff, ← hmore, ← hblank, List.forall_mem_cons,
      ← hblank, ← hends.dangling_iff, ← hends.blank_iff]
    split
    next hempty =>
      subst hempty
      simp [not_dangling_nil, Blank]
    next => exact ⟨endsIn_cons, List.forall_mem_cons⟩

theorem firm_listMarker {marker : String} (h : marker = "+" ∨ marker = "-") :
    Firm marker.toList := by
  rcases h with rfl | rfl
  · exact @firm_concat '+' [] (by decide) (by decide)
  · exact @firm_concat '-' [] (by decide) (by decide)

/-- The rows of an item's lead are those of its text behind the marker, with margins. -/
theorem itemLead_margins (marker text : String) (level : Nat) :
    List.Forall₂ (fun row wide => ∃ level, wide = margin level ++ row)
      (textRows (marker ++ " " ++ text)) (textRows (lines (itemLead marker text level))) := by
  obtain ⟨first, more, hrows⟩ : ∃ first more, textRows (marker ++ " " ++ text) = first :: more :=
    List.exists_cons_of_ne_nil (List.splitOn_ne_nil _ _)
  rw [textRows_lines (Layout.itemLead_ne_nil marker text level), Layout.textRows_itemLead hrows,
    hrows]
  refine .cons ⟨level, rfl⟩ (List.forall₂_map_right_iff.mpr (List.forall₂_same.mpr fun _ _ => ?_))
  exact ⟨level + 1, rfl⟩

/-- The lines of an item end as the blocks below it do, and if those show nothing as what stands
behind its marker. -/
theorem item_lines_ending {D : Prop} {lead texts : List String}
    (h : EndsAs D False (lines lead)) :
    EndsAs (EndsIn (fun text => Dangling text.toList) (fun text => Blank text.toList) texts ∨
        (∀ text ∈ texts, Blank text.toList) ∧ D) False (lines (lead ++ texts)) := by
  obtain ⟨hends, hblank⟩ := dangling_joined blank_newline (by decide) (lead ++ texts)
  obtain ⟨hlead, hfirst⟩ := dangling_joined blank_newline (by decide) lead
  refine ⟨?_, iff_of_false (fun hall => ?_) not_false⟩
  · rw [lines, hends, endsIn_append, ← hlead, ← h.dangling_iff, lines]
  · rw [lines, hblank, List.forall_mem_append, ← hfirst] at hall
    exact h.blank_iff.mp hall.1

theorem itemLead_ending {D B : Prop} {marker text : String} (hm : Firm marker.toList)
    (h : EndsAs D B text) (level : Nat) : EndsAs D False (lines (itemLead marker text level)) := by
  have hbehind := h.behind (firm_space hm)
  obtain ⟨hdangling, hblank⟩ := dangling_of_margins (itemLead_margins marker text level)
  exact ⟨hdangling.symm.trans hbehind.dangling_iff, hblank.symm.trans hbehind.blank_iff⟩

theorem marker_ending {marker : String} (hm : Firm marker.toList) (level : Int) :
    EndsAs False False (lines [Markup.indent marker level]) := by
  rw [lines, String.intercalate_singleton]
  exact (endsAs_of_firm hm not_false not_false).indent level

theorem type_of_kind {name : String} (hk : Token.kind token = .ok (.str name)) (h : name ≠ "") :
    token.field "type" .null = .ok (.str name) := by
  unfold Token.kind Value.field Value.field? at hk
  unfold Value.field Value.field?
  split at hk
  next fields =>
    cases hl : fields.lookup "type" with
    | none =>
      simp only [hl, Except.map, Option.getD_none, Except.ok.injEq, Value.str.injEq] at hk
      exact (h hk.symm).elim
    | some kind => simpa [hl, Except.map] using hk
  next => cases hk

/-- A block that stands first in an item is taken for its lead if it is a paragraph, and for what
comes below its marker if it is anything else. -/
theorem Standing.isLead_or (h : Standing token) :
    (IsLead token ∧ ∃ children, token.children = .ok children ∧ ∀ t ∈ children, Running t) ∨
      ∀ rest, Leadless (token :: rest) := by
  have hbare {name : String} (hk : Token.kind token = .ok (.str name)) (hne : name ≠ "")
      (hp : (Value.str name).isText "paragraph" = false) : ∀ rest, Leadless (token :: rest) := by
    rintro rest _ ⟨⟩
    exact ⟨_, type_of_kind hk hne, hp⟩
  cases h with
  | heading hk => exact .inr (hbare hk (by decide) (by decide))
  | paragraph hk hc below => exact .inl ⟨type_of_kind hk (by decide), _, hc, below⟩
  | list hk => exact .inr (hbare hk (by decide) (by decide))
  | quote hk => exact .inr (hbare hk (by decide) (by decide))

theorem item_ending {marker : String} (hm : marker = "+" ∨ marker = "-")
    (hp : itemParts item = .ok parts) (hs : ∀ t ∈ parts, Standing t)
    (h : ∀ t ∈ parts, BlockEnds env active t) (level : Nat) :
    ∃ text, (Render.item env active marker item level).outcome = .ok text ∧
      EndsAs (ItemBreaksOff env active item) False text := by
  have hmarker := firm_listMarker hm
  have hbreaks : ItemBreaksOff env active item ↔ BodyBreaksOff env active parts := by
    simp [ItemBreaksOff, hp]
  rw [hbreaks]
  have hbelow (hlead : Leadless parts) :
      ∃ text, (Render.item env active marker item level).outcome = .ok text ∧
        EndsAs (BodyBreaksOff env active parts) False text := by
    obtain ⟨texts, ht, hends, -⟩ := blocks_ending h (level + 1)
    rw [Int.natCast_succ] at ht
    refine ⟨lines ([Markup.indent marker level] ++ texts), ?_, ?_⟩
    · rw [item_of_leadless hp hlead, Rendering.bind_of_ok ht]
      rfl
    · have hlines := @item_lines_ending _ _ texts (marker_ending hmarker level)
      simpa [hends] using hlines
  cases parts with
  | nil => exact hbelow leadless_nil
  | cons first more =>
    obtain ⟨hfirst, hmore⟩ := List.forall_mem_cons.mp hs
    obtain ⟨hlead, children, hc, hrunning⟩ | hbare := hfirst.isLead_or
    · obtain ⟨text, ht, hends⟩ := paragraph_ending hlead.kind hc hrunning env active
      obtain ⟨texts, hrest, hbody, hblank⟩ :=
        blocks_ending (List.forall_mem_cons.mp h).2 (level + 1)
      rw [Int.natCast_succ] at hrest
      refine ⟨lines (itemLead marker text level ++ texts), ?_, ?_⟩
      · rw [item_of_lead hp hlead, Rendering.bind_of_ok ht, Rendering.bind_of_ok hrest]
        rfl
      · rw [BodyBreaksOff, endsIn_cons, ← BodyBreaksOff, ← hbody, ← hblank]
        exact item_lines_ending (itemLead_ending hmarker hends level)
    · exact hbelow (hbare more)

theorem items_ending {marker : String} (level : Nat)
    (h : ∀ item ∈ items, ∃ text, (Render.item env active marker item level).outcome = .ok text ∧
      EndsAs (ItemBreaksOff env active item) False text) :
    ∃ texts, (Render.items env active marker items level).outcome = .ok texts ∧
      EndsAs (EndsIn (ItemBreaksOff env active) (fun _ => False) items) (items = [])
        (lines texts) := by
  have htexts : ∃ texts, (Render.items env active marker items level).outcome = .ok texts ∧
      List.Forall₂ (fun item text => EndsAs (ItemBreaksOff env active item) False text)
        items texts := by
    induction items with
    | nil => exact ⟨[], items_nil, .nil⟩
    | cons item rest ih =>
      obtain ⟨⟨text, ht, hends⟩, hrest⟩ := List.forall_mem_cons.mp h
      obtain ⟨texts, hmore, hall⟩ := ih hrest
      exact ⟨text :: texts, items_cons ht hmore, .cons hends hall⟩
  obtain ⟨texts, ht, hall⟩ := htexts
  obtain ⟨hdangling, hblank⟩ := dangling_joined blank_newline (by decide) texts
  obtain ⟨hends, hnone⟩ := endsIn_of_forall₂ hall (fun _ _ h => h.dangling_iff.symm)
    (fun _ _ h => h.blank_iff.symm)
  refine ⟨texts, ht, hdangling.trans hends.symm, hblank.trans (hnone.symm.trans ?_)⟩
  exact List.eq_nil_iff_forall_not_mem.symm

theorem Standing.ends (h : Standing token) (env : Environment) (active : List String) :
    BlockEnds env active token := by
  induction h with
  | @heading token degree children hk hl hc below =>
    intro level
    obtain ⟨text, ht, -, hends⟩ := inlines_ending below env active
    obtain ⟨value, -, hdegree⟩ := Failure.exists_of_bind hl
    have hfirm := firm_headingMark (Layout.headingLevel_bounds hdegree).1
    refine ⟨_, block_of_heading hk hl hc ht, ?_⟩
    have hnot : ¬FaintBlock env active token := not_faintBlock_of_kind hk (by decide)
    have hends := (hends.behind (firm_space hfirm)).indent level
    rw [breaksOff_heading_iff hk hc]
    exact ⟨hends.dangling_iff, hends.blank_iff.trans (iff_of_false not_false hnot)⟩
  | paragraph hk hc below =>
    intro level
    obtain ⟨text, ht, hends⟩ := paragraph_ending hk hc below env active
    exact ⟨_, block_of_paragraph hk ht, hends.indent level⟩
  | list hk hm hc hi below ih =>
    intro level
    obtain ⟨texts, ht, hends⟩ := items_ending level fun item hitem => by
      obtain ⟨-, parts, hp⟩ := hi item hitem
      exact item_ending (Layout.listMarker_eq hm) hp (below item hitem parts hp)
        (ih item hitem parts hp) level
    rw [breaksOff_list_iff hk hc, faintBlock_list_iff hk hc]
    exact ⟨_, block_of_items hk hm hc ht, hends⟩
  | @quote token children hk hc below ih =>
    intro level
    obtain ⟨texts, ht, -⟩ := blocks_ending ih 0
    refine ⟨_, block_of_quote hk hc ht, endsAs_of_firm (firm_quoteBlock _ _) ?_ ?_⟩
    · intro hbreaks
      cases hbreaks with
      | heading hother => simp [hk] at hother
      | paragraph hother => simp [hk] at hother
      | list hother => simp [hk] at hother
    · exact not_faintBlock_of_kind hk (by decide)

end Blocks

end Typeset.Footnote
