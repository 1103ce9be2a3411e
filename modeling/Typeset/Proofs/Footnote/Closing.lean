import Typeset.Proofs.Bracket.Leaving
import Typeset.Proofs.Footnote.Ending

/-! Which footnotes are closed by the brackets that are written for it. A bracket is lost where the
body of a footnote breaks off in a hard break, and with it the brackets of every footnote around. -/

namespace Typeset.Footnote

open Render Typeset.Bracket

variable {env : Environment} {active texts : List String} {token t item : Value}
  {tokens children parts body : List Value} {identifier key : String}

/-- A token shows its children: a block or a wrapper that is not the marker of an outline. -/
def Shows (env : Environment) (token : Value) : Prop :=
  ∃ kind, Token.kind token = .ok (.str kind) ∧
    (kind ∈ ["heading", "list", "list_item", "block_quote"] ∨
      kind = "paragraph" ∧ isOutlineMarker env token = .ok false ∨
      ∃ opening closing, inlineKind? kind = some (.wrapped opening closing))

/-- A footnote whose body breaks off in a hard break is expanded somewhere inside a token, be it
inside other footnotes. -/
inductive Unclosed (env : Environment) : List String → Value → Prop
  | here {active texts : List String} {token : Value} {identifier : String} {body : List Value}
    (h : IsReference token identifier) (hex : Expands env active identifier body texts)
    (hb : BodyBreaksOff env (Text.lower identifier :: active) body) : Unclosed env active token
  | nested {active texts : List String} {token t : Value} {identifier : String}
    {body : List Value} (h : IsReference token identifier)
    (hex : Expands env active identifier body texts) (ht : t ∈ body)
    (hu : Unclosed env (Text.lower identifier :: active) t) : Unclosed env active token
  | child {active : List String} {token t : Value} (hs : Shows env token) (hc : token.IsChild t)
    (hu : Unclosed env active t) : Unclosed env active token

section Unclosed

theorem not_shows_of_kind {name : String} (hk : Token.kind token = .ok (.str name))
    (h : name ∈ ["text", "softbreak", "linebreak", "footnote_ref"]) : ¬Shows env token := by
  rintro ⟨kind, hother, hshows⟩
  obtain rfl : name = kind := by simpa [hk] using hother
  simp only [List.mem_cons, List.not_mem_nil, or_false] at h
  obtain rfl | rfl | rfl | rfl := h <;> simp [inlineKind?] at hshows

theorem Shows.not_isReference (hs : Shows env token) : ¬IsReference token identifier :=
  fun h => not_shows_of_kind h.1 (by decide) hs

theorem not_unclosed (hs : ¬Shows env token) (h : ∀ identifier, ¬IsReference token identifier) :
    ¬Unclosed env active token := by
  intro hu
  cases hu with
  | here hr => exact h _ hr
  | nested hr => exact h _ hr
  | child hother => exact hs hother

theorem not_unclosed_of_kind {name : String} (hk : Token.kind token = .ok (.str name))
    (h : name ∈ ["text", "softbreak", "linebreak"]) : ¬Unclosed env active token := by
  refine not_unclosed (not_shows_of_kind hk (List.mem_append_left ["footnote_ref"] h)) ?_
  rintro identifier ⟨hother, -⟩
  obtain rfl : name = "footnote_ref" := by simpa [hk] using hother
  simp at h

theorem unclosed_shows_iff (hs : Shows env token) (hc : ∀ t, token.IsChild t ↔ t ∈ children) :
    Unclosed env active token ↔ ∃ t ∈ children, Unclosed env active t := by
  constructor
  · intro hu
    cases hu with
    | here hr => exact (hs.not_isReference hr).elim
    | nested hr => exact (hs.not_isReference hr).elim
    | child _ ht hu => exact ⟨_, (hc _).mp ht, hu⟩
  · rintro ⟨t, ht, hu⟩
    exact .child hs ((hc t).mpr ht) hu

theorem unclosed_children_iff (hs : Shows env token) (hc : token.children = .ok children) :
    Unclosed env active token ↔ ∃ t ∈ children, Unclosed env active t :=
  unclosed_shows_iff hs fun _ => Value.isChild_iff_of_children hc

theorem unclosed_reference_iff (h : IsReference token identifier)
    (hex : Expands env active identifier body texts) :
    Unclosed env active token ↔
      (∃ t ∈ body, Unclosed env (Text.lower identifier :: active) t) ∨
        BodyBreaksOff env (Text.lower identifier :: active) body := by
  constructor
  · intro hu
    cases hu with
    | here hr hother hb =>
      obtain rfl : identifier = _ := by simpa [h.2] using hr.2
      obtain ⟨rfl, -⟩ := hex.unique hother
      exact .inr hb
    | nested hr hother ht hu =>
      obtain rfl : identifier = _ := by simpa [h.2] using hr.2
      obtain ⟨rfl, -⟩ := hex.unique hother
      exact .inl ⟨_, ht, hu⟩
    | child hs => exact (hs.not_isReference h).elim
  · rintro (⟨t, ht, hu⟩ | hb)
    · exact .nested h hex ht hu
    · exact .here h hex hb

theorem not_unclosed_of_not_expands (h : IsReference token identifier)
    (hnot : ∀ body texts, ¬Expands env active identifier body texts) :
    ¬Unclosed env active token := by
  intro hu
  cases hu with
  | here hr hex =>
    obtain rfl : identifier = _ := by simpa [h.2] using hr.2
    exact hnot _ _ hex
  | nested hr hex =>
    obtain rfl : identifier = _ := by simpa [h.2] using hr.2
    exact hnot _ _ hex
  | child hs => exact hs.not_isReference h

end Unclosed

section Standing

/-- A footnote, and every footnote that it leads to, is written in blocks of running text. -/
def AllStanding (env : Environment) (key : String) : Prop :=
  ∀ other, Relation.ReflTransGen (Refers env) key other → ∀ note body,
    env.footnotes.find other = some note → note.body.tokens = .ok body → ∀ t ∈ body, Standing t

/-- Every footnote that a token leads to is written in blocks of running text. -/
def LeadsToStanding (env : Environment) (token : Value) : Prop :=
  ∀ reference identifier, token.Within reference → IsReference reference identifier →
    AllStanding env (Text.lower identifier)

theorem LeadsToStanding.child (h : LeadsToStanding env token) (ht : token.IsChild t) :
    LeadsToStanding env t :=
  fun reference identifier hw hr => h reference identifier (.head ht hw) hr

theorem AllStanding.leads {note : Footnote} (h : AllStanding env key)
    (hf : env.footnotes.find key = some note) (hb : note.body.tokens = .ok body) (ht : t ∈ body) :
    LeadsToStanding env t := by
  intro reference identifier hw hr other hother
  have hrefers : Refers env key (Text.lower identifier) :=
    ⟨reference, identifier, ⟨note, body, t, hf, Value.eq_list_of_tokens hb ht, ht, hw⟩, hr, rfl⟩
  exact h other (.head hrefers hother)

end Standing

/-- An inline comes out as a text that leaves a bracket open exactly if the inline is unclosed. -/
def InlineBrackets (env : Environment) (active : List String) (token : Value) : Prop :=
  ∃ text, (Render.inline env active token).outcome = .ok text ∧
    LeavesOpen (Unclosed env active token) text

/-- As above, for a block at any level. -/
def BlockBrackets (env : Environment) (active : List String) (token : Value) : Prop :=
  ∀ level : Nat, ∃ text, (block env active token level).outcome = .ok (some text) ∧
    LeavesOpen (Unclosed env active token) text

/-- As above, for the references to the footnotes that are written in blocks of running text. -/
def NotesBracket (env : Environment) (active : List String) : Prop :=
  ∀ token identifier, IsReference token identifier → AllStanding env (Text.lower identifier) →
    InlineBrackets env active token

section Brackets

theorem leavesOpen_nil {α : Type} {P : α → Prop} : LeavesOpen (∃ a ∈ ([] : List α), P a) "" :=
  (closed_inert .content rfl).leavesOpen (by simp)

theorem inlines_brackets (h : ∀ t ∈ tokens, InlineBrackets env active t) :
    ∃ text, (inlines env active tokens).outcome = .ok text ∧
      LeavesOpen (∃ t ∈ tokens, Unclosed env active t) text := by
  induction tokens with
  | nil => exact ⟨_, inlines_nil, leavesOpen_nil⟩
  | cons token rest ih =>
    obtain ⟨⟨here, hhere, hopen⟩, hrest⟩ := List.forall_mem_cons.mp h
    obtain ⟨more, hmore, hopens⟩ := ih hrest
    have hboth := hopen.append hopens
    exact ⟨_, inlines_cons hhere hmore, hboth.congr (List.exists_mem_cons_iff _ _ _).symm⟩

theorem Running.brackets (hn : NotesBracket env active) (h : Running token)
    (hl : LeadsToStanding env token) : InlineBrackets env active token := by
  induction h with
  | text hk hr =>
    exact ⟨_, inline_text hk hr, (closed_escape _).leavesOpen (not_unclosed_of_kind hk (by decide))⟩
  | softBreak hk =>
    have hspace : Closed .content " " := closed_inert .content rfl
    exact ⟨_, inline_softBreak hk, hspace.leavesOpen (not_unclosed_of_kind hk (by decide))⟩
  | lineBreak hk =>
    exact ⟨_, inline_lineBreak hk,
      closed_lineBreak.leavesOpen (not_unclosed_of_kind hk (by decide))⟩
  | @wrapped token name opening closing children hk hw hc below ih =>
    obtain ⟨text, ht, hopen⟩ := inlines_brackets fun t ht =>
      ih t ht (hl.child (Value.isChild_of_children hc ht))
    have hs : Shows env token := ⟨name, hk, .inr (.inr ⟨opening, closing, hw⟩)⟩
    have hiff : Unclosed env active token ↔ _ := unclosed_children_iff hs hc
    exact ⟨_, inline_wrapped hk hw hc ht, (hopen.wrapped hw).congr hiff.symm⟩
  | reference h => exact hn _ _ h (hl _ _ .refl h)

theorem blocks_brackets {separator : String} (h : ∀ t ∈ tokens, BlockBrackets env active t)
    (hs : Closed .content separator) (level : Nat) :
    ∃ texts, (blocks env active tokens level).outcome = .ok texts ∧
      LeavesOpen (∃ t ∈ tokens, Unclosed env active t) (separator.intercalate texts) := by
  induction tokens with
  | nil => exact ⟨_, blocks_nil, leavesOpen_nil⟩
  | cons token rest ih =>
    obtain ⟨htoken, hrest⟩ := List.forall_mem_cons.mp h
    obtain ⟨text, ht, hopen⟩ := htoken level
    obtain ⟨more, hm, hopens⟩ := ih hrest
    refine ⟨_, blocks_cons_of_some ht hm, LeavesOpen.congr ?_ (List.exists_mem_cons_iff _ _ _).symm⟩
    split
    next hempty =>
      subst hempty
      simpa using hopen.append hopens
    next => exact hopen.joined_cons hs hopens

theorem paragraph_brackets (hk : Token.kind token = .ok (.str "paragraph"))
    (hc : token.children = .ok children) (hr : ∀ t ∈ children, Running t)
    (h : ∀ t ∈ children, InlineBrackets env active t) :
    ∃ text, (paragraph env active token).outcome = .ok text ∧
      LeavesOpen (Unclosed env active token) text := by
  obtain ⟨answer, ho⟩ := @exists_isOutlineMarker env _ _ hc hr
  cases answer with
  | true =>
    refine ⟨outline, paragraph_of_outline ho, closed_outline.leavesOpen (not_unclosed ?_ ?_)⟩
    · rintro ⟨kind, hother, hshows⟩
      obtain rfl : "paragraph" = kind := by simpa [hk] using hother
      simp [ho, inlineKind?] at hshows
    · rintro identifier ⟨hother, -⟩
      simp [hk] at hother
  | false =>
    obtain ⟨text, ht, hopen⟩ := inlines_brackets h
    have hs : Shows env token := ⟨_, hk, .inr (.inl ⟨rfl, ho⟩)⟩
    exact ⟨text, paragraph_of_plain ho hc ht, hopen.congr (unclosed_children_iff hs hc).symm⟩

theorem item_brackets {marker : String} (hm : Closed .content marker)
    (hn : NotesBracket env active) (hk : Token.kind item = .ok (.str "list_item"))
    (hp : itemParts item = .ok parts) (hs : ∀ t ∈ parts, Standing t)
    (hl : ∀ t ∈ parts, LeadsToStanding env t) (h : ∀ t ∈ parts, BlockBrackets env active t)
    (level : Nat) :
    ∃ text, (Render.item env active marker item level).outcome = .ok text ∧
      LeavesOpen (Unclosed env active item) text := by
  have hshows : Shows env item := ⟨_, hk, .inl (by decide)⟩
  have hiff : Unclosed env active item ↔ ∃ t ∈ parts, Unclosed env active t :=
    unclosed_shows_iff hshows fun t => isChild_iff_of_itemParts hp
  have hnewline : Closed .content "\n" := closed_inert .content rfl
  rw [hiff]
  have hbelow (hlead : Leadless parts) :
      ∃ text, (Render.item env active marker item level).outcome = .ok text ∧
        LeavesOpen (∃ t ∈ parts, Unclosed env active t) text := by
    obtain ⟨texts, ht, hopen⟩ := blocks_brackets h hnewline (level + 1)
    rw [Int.natCast_succ] at ht
    refine ⟨lines (Markup.indent marker level :: texts), ?_, ?_⟩
    · rw [item_of_leadless hp hlead, Rendering.bind_of_ok ht]
      rfl
    · have hfirst := (hm.leavesOpen not_false).indent level
      simpa [lines] using hfirst.joined_cons hnewline hopen
  cases parts with
  | nil => exact hbelow leadless_nil
  | cons first more =>
    obtain ⟨hlead, children, hc, hrunning⟩ | hbare := (List.forall_mem_cons.mp hs).1.isLead_or
    · have hleads := (List.forall_mem_cons.mp hl).1
      obtain ⟨text, ht, hopen⟩ := paragraph_brackets hlead.kind hc hrunning fun t ht =>
        (hrunning t ht).brackets hn (hleads.child (Value.isChild_of_children hc ht))
      obtain ⟨texts, hrest, hopens⟩ :=
        blocks_brackets (List.forall_mem_cons.mp h).2 hnewline (level + 1)
      rw [Int.natCast_succ] at hrest
      refine ⟨lines (itemLead marker text level ++ texts), ?_, ?_⟩
      · rw [item_of_lead hp hlead, Rendering.bind_of_ok ht, Rendering.bind_of_ok hrest]
        rfl
      · have hboth := (hopen.itemLead hm level).joined hnewline hopens
        exact hboth.congr (List.exists_mem_cons_iff _ _ _).symm
    · exact hbelow (hbare more)

theorem items_brackets {marker : String} (level : Nat)
    (h : ∀ item ∈ tokens, ∃ text, (Render.item env active marker item level).outcome = .ok text ∧
      LeavesOpen (Unclosed env active item) text) :
    ∃ texts, (Render.items env active marker tokens level).outcome = .ok texts ∧
      LeavesOpen (∃ item ∈ tokens, Unclosed env active item) (lines texts) := by
  induction tokens with
  | nil => exact ⟨_, items_nil, leavesOpen_nil⟩
  | cons item rest ih =>
    obtain ⟨⟨text, ht, hopen⟩, hrest⟩ := List.forall_mem_cons.mp h
    obtain ⟨more, hm, hopens⟩ := ih hrest
    refine ⟨_, items_cons ht hm, LeavesOpen.congr ?_ (List.exists_mem_cons_iff _ _ _).symm⟩
    exact hopen.joined_cons (closed_inert .content rfl) hopens

theorem Standing.brackets (hn : NotesBracket env active) (h : Standing token)
    (hl : LeadsToStanding env token) : BlockBrackets env active token := by
  induction h with
  | @heading token degree children hk hd hc below =>
    intro level
    obtain ⟨text, ht, hopen⟩ := inlines_brackets fun t ht =>
      (below t ht).brackets hn (hl.child (Value.isChild_of_children hc ht))
    have hs : Shows env token := ⟨_, hk, .inl (by decide)⟩
    have hiff : Unclosed env active token ↔ _ := unclosed_children_iff hs hc
    exact ⟨_, block_of_heading hk hd hc ht, ((hopen.heading degree).indent level).congr hiff.symm⟩
  | paragraph hk hc below =>
    intro level
    obtain ⟨text, ht, hopen⟩ := paragraph_brackets hk hc below fun t ht =>
      (below t ht).brackets hn (hl.child (Value.isChild_of_children hc ht))
    exact ⟨_, block_of_paragraph hk ht, hopen.indent level⟩
  | @list token marker items hk hm hc hi below ih =>
    intro level
    obtain ⟨texts, ht, hopen⟩ := items_brackets level fun item hitem => by
      obtain ⟨hkind, parts, hp⟩ := hi item hitem
      have hparts (t : Value) (ht : t ∈ parts) : LeadsToStanding env t :=
        (hl.child (Value.isChild_of_children hc hitem)).child (isChild_of_itemParts hp ht)
      exact item_brackets (closed_listMarker hm) hn hkind hp (below item hitem parts hp) hparts
        (fun t ht => ih item hitem parts hp t ht (hparts t ht)) level
    have hs : Shows env token := ⟨_, hk, .inl (by decide)⟩
    exact ⟨_, block_of_items hk hm hc ht, hopen.congr (unclosed_children_iff hs hc).symm⟩
  | @quote token children hk hc below ih =>
    intro level
    obtain ⟨texts, ht, hopen⟩ := blocks_brackets
      (fun t ht => ih t ht (hl.child (Value.isChild_of_children hc ht)))
      (@closed_inert .content "\n\n" rfl) 0
    have hs : Shows env token := ⟨_, hk, .inl (by decide)⟩
    have hiff : Unclosed env active token ↔ _ := unclosed_children_iff hs hc
    exact ⟨_, block_of_quote hk hc ht, (hopen.quoteBlock level).congr hiff.symm⟩

/-- How the text between a footnote's brackets ends, before the blanks around it are taken away. -/
theorem body_ending (h : ∀ t ∈ body, Standing t)
    (hb : (blocks env active body 0).outcome = .ok texts) :
    Markup.Dangling (" ".intercalate texts).toList ↔ BodyBreaksOff env active body := by
  obtain ⟨others, ho, hends, -⟩ := blocks_ending (fun t ht => (h t ht).ends env active) 0
  obtain rfl : texts = others := by simpa [hb] using ho
  exact (Markup.dangling_joined (by decide) (by decide) texts).1.trans hends

/-- By induction on how many footnotes are left to expand. -/
theorem notesBracket (env : Environment) (active : List String) : NotesBracket env active := by
  induction hcount : env.remaining active using Nat.strongRecOn generalizing active with
  | ind count ih =>
    intro token identifier h hstanding
    obtain ⟨body, texts, hex⟩ | hnot := expands_or_not env active identifier
    · obtain ⟨note, hf, hb⟩ := hex.defined
      have hn : NotesBracket env (Text.lower identifier :: active) :=
        ih _ (hcount ▸ hex.remaining_lt) _ rfl
      have hbody : ∀ t ∈ body, Standing t := hstanding _ .refl note body hf hb
      obtain ⟨others, ho, hopen⟩ := blocks_brackets (fun t ht =>
        (hbody t ht).brackets hn (hstanding.leads hf hb ht)) (@closed_inert .content " " rfl) 0
      obtain rfl : texts = others := by simpa [hex.rendered] using ho
      refine ⟨_, (inline_reference h).trans (noteFor_of_expands hex), hopen.footnote.congr ?_⟩
      rw [body_ending hbody hex.rendered]
      exact (unclosed_reference_iff h hex).symm
    · have hempty : Closed .content "" := closed_inert .content rfl
      exact ⟨_, (inline_reference h).trans (noteFor_of_not_expands hnot),
        hempty.leavesOpen (not_unclosed_of_not_expands h hnot)⟩

end Brackets

/-- What is written for a reference to a footnote that is expanded. Its content ends in a backslash
that escapes the closing bracket exactly if its body breaks off in a hard break. If every footnote
that it leads to is written in blocks of running text, the brackets match exactly if no footnote
that is expanded for it breaks off so. -/
theorem closing_bracket_iff {note : Footnote} (h : IsReference token identifier)
    (hf : env.footnotes.find (Text.lower identifier) = some note)
    (hb : note.body.tokens = .ok body) (hs : ∀ t ∈ body, Standing t)
    (ha : Text.lower identifier ∉ active) (hr : env.rendersFootnotes = true) :
    ∃ content,
      (Render.inline env active token).outcome = .ok ("#footnote[" ++ content ++ "]") ∧
      (Odd (Math.endSlashes content.toList) ↔
        BodyBreaksOff env (Text.lower identifier :: active) body) ∧
      (AllStanding env (Text.lower identifier) →
        (WellBracketed ("#footnote[" ++ content ++ "]") ↔ ¬Unclosed env active token)) := by
  obtain ⟨texts, ht, -⟩ :=
    blocks_ending (fun t ht => (hs t ht).ends env (Text.lower identifier :: active)) 0
  have hex : Expands env active identifier body texts := ⟨ha, hr, ⟨note, hf, hb⟩, ht⟩
  have hout : (Render.inline env active token).outcome = .ok (footnoteMarkup texts) :=
    (inline_reference h).trans (noteFor_of_expands hex)
  refine ⟨Text.strip (" ".intercalate texts), hout, ?_, fun hstanding => ?_⟩
  · exact (Markup.unfinished_strip _).trans (body_ending hs ht)
  · obtain ⟨text, htext, hopen⟩ := notesBracket env active token identifier h hstanding
    obtain rfl : footnoteMarkup texts = text := by simpa [hout] using htext
    exact hopen.wellBracketed_iff

/-- A reference as it stands for a footnote's mark in running text. -/
def referenceTo (identifier : String) : Value :=
  Token.marked "footnote_ref" [("identifier", .str identifier), ("label", .str identifier)]

/-- A paragraph with a hard break and a reference to a footnote that is not defined. -/
def breaking : Value :=
  Token.branch "paragraph"
    [Token.text "x", .object [("type", .str "linebreak")], referenceTo "2"]

/-- A footnote of such a paragraph. -/
def breakingNote : Environment where
  footnotes := [("1", { identifier := .str "1", body := .list [breaking] })]
  convertMath := .ok

theorem isReference_referenceTo (identifier : String) :
    IsReference (referenceTo identifier) identifier := ⟨rfl, rfl⟩

theorem standing_breaking : Standing breaking := by
  refine .paragraph rfl rfl ?_
  simp only [List.forall_mem_cons]
  exact ⟨.text rfl rfl, .lineBreak rfl, .reference (isReference_referenceTo "2"),
    List.forall_mem_nil _⟩

theorem plain_breaking : isOutlineMarker breakingNote breaking = .ok false := by
  have htext : Token.plainPart [] (Token.text "x") = .ok [.str "x"] := by
    rw [Token.plainPart]
    rfl
  have hbreak : Token.plainPart [] (.object [("type", .str "linebreak")]) = .ok [.str "\n"] := by
    rw [Token.plainPart]
    rfl
  have hreference : Token.plainPart [] (referenceTo "2") = .ok [] := by
    rw [Token.plainPart]
    rfl
  have hparts : Token.plainParts [] [Token.text "x", .object [("type", .str "linebreak")],
      referenceTo "2"] = .ok [.str "x", .str "\n"] := by
    simp only [Token.plainParts, htext, hbreak, hreference]
    rfl
  have hjoin : Token.join [.str "x", .str "\n"] = .ok "x\n" := rfl
  have hmarker : (Text.lower (Text.strip "x\n") == "[toc]") = false := by decide
  exact (isOutlineMarker_of_plainParts rfl hparts hjoin).trans (congrArg Except.ok hmarker)

theorem allStanding_breakingNote : AllStanding breakingNote "1" := by
  intro other _ note body hf hb
  have hmem : (other, note) ∈ breakingNote.footnotes := mem_of_lookup hf
  obtain ⟨rfl, rfl⟩ := Prod.mk.inj (List.mem_singleton.mp hmem)
  obtain rfl : [breaking] = body := Except.ok.inj hb
  exact List.forall_mem_singleton.mpr standing_breaking

theorem closing_bracket_iff_breakingNote :
    IsReference (referenceTo "1") "1" ∧ (∀ t ∈ [breaking], Standing t) ∧
      AllStanding breakingNote "1" ∧
      ∃ content,
        (Render.inline breakingNote [] (referenceTo "1")).outcome =
          .ok ("#footnote[" ++ content ++ "]") ∧
        (Odd (Math.endSlashes content.toList) ↔ BodyBreaksOff breakingNote ["1"] [breaking]) ∧
        (WellBracketed ("#footnote[" ++ content ++ "]") ↔
          ¬Unclosed breakingNote [] (referenceTo "1")) := by
  have h := isReference_referenceTo "1"
  have hs : ∀ t ∈ [breaking], Standing t := List.forall_mem_singleton.mpr standing_breaking
  obtain ⟨content, hout, hslashes, hbrackets⟩ :=
    @closing_bracket_iff breakingNote [] _ _ "1" _ h rfl rfl hs List.not_mem_nil rfl
  exact ⟨h, hs, allStanding_breakingNote, content, hout, hslashes,
    hbrackets allStanding_breakingNote⟩

/-- The end of the hard break's line is taken away with the blanks at the end, and its backslash
escapes the bracket. -/
theorem hardBreak_escapes_bracket :
    IsReference (referenceTo "1") "1" ∧ (∀ t ∈ [breaking], Standing t) ∧
      (Render.inline breakingNote [] (referenceTo "1")).outcome =
        .ok ("#footnote[" ++ "x\\" ++ "]") ∧
      Odd (Math.endSlashes "x\\".toList) ∧ ¬WellBracketed ("#footnote[" ++ "x\\" ++ "]") := by
  have hnot (body texts) : ¬Expands breakingNote ["1"] "2" body texts := by
    rintro ⟨-, -, ⟨note, hf, -⟩, -⟩
    cases hf
  have hsecond := (inline_reference (isReference_referenceTo "2")).trans
    (noteFor_of_not_expands hnot)
  have hinlines : (inlines breakingNote ["1"]
      [Token.text "x", .object [("type", .str "linebreak")], referenceTo "2"]).outcome =
        .ok (Markup.escape "x" ++ ("\\\n" ++ "")) :=
    inlines_cons (inline_text rfl rfl) (inlines_cons (inline_lineBreak rfl)
      (inlines_singleton hsecond))
  have hbody : (paragraph breakingNote ["1"] breaking).outcome = .ok "x\\\n" :=
    paragraph_of_plain plain_breaking rfl hinlines
  have hex : Expands breakingNote [] "1" [breaking] ["x\\\n"] := by
    refine ⟨List.not_mem_nil, rfl, ⟨_, rfl, rfl⟩, ?_⟩
    have hblock := @block_of_paragraph breakingNote ["1"] 0 breaking _ rfl hbody
    rw [Markup.indent_zero] at hblock
    exact blocks_cons_of_shown hblock (by decide) blocks_nil
  have hmarkup : footnoteMarkup ["x\\\n"] = "#footnote[" ++ "x\\" ++ "]" := by decide
  refine ⟨isReference_referenceTo "1", List.forall_mem_singleton.mpr standing_breaking, ?_,
    by decide, by decide⟩
  rw [inline_reference (isReference_referenceTo "1"), noteFor_of_expands hex, hmarkup]

end Typeset.Footnote
