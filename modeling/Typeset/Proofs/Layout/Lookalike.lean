import Typeset.Proofs.Layout.Margin
import Typeset.Proofs.Markup.Escaped
import Typeset.Proofs.Render.Plain

/-! Paragraphs of plain text that come out as other blocks do. Escapes leave the characters alone
that have a meaning only at the beginning of a row. -/

namespace Typeset.Layout

open Render Rendering Markup

variable {env : Environment} {active : List String} {token : Value} {level : Nat}
  {marker s text : String}

/-- Text that begins like a heading: up to six equals signs and a blank. -/
def HeadingLike (s : String) : Prop :=
  ∃ degree, 1 ≤ degree ∧ degree ≤ 6 ∧ (headingMark degree ++ " ").toList <+: s.toList

/-- Text whose rows could be those of a list: the first begins an item, and so does any other that
is not pushed in. -/
def ListLike (s : String) : Prop :=
  ∃ marker ∈ ["-", "+"], ∃ first rest, textRows s = first :: rest ∧ OpensItem marker first ∧
    ∀ row ∈ rest, OpensItem marker row ∨ unit <+: row

theorem indent_injective (level : Nat) : Function.Injective (indent · level) := by
  intro s t h
  have hrows := congrArg textRows h
  dsimp only at hrows
  rw [textRows_indent, textRows_indent] at hrows
  exact textRows_injective
    ((List.map_inj_right fun _ _ => List.append_cancel_left).mp hrows)

section Heading

theorem headingLevel_bounds {value : Value} {degree : Nat}
    (h : headingLevel value = .ok (some degree)) : 1 ≤ degree ∧ degree ≤ 6 := by
  unfold headingLevel at h
  split at h
  · cases h
    decide
  · cases h
    omega
  · split at h
    · cases h
      decide
    · cases h
      decide
    · cases h
    · cases h

theorem isPlain_of_mem_headingMark (degree : Nat) :
    ∀ c ∈ (headingMark degree ++ " ").toList, IsPlain c := by
  intro c hc
  rw [String.toList_append, headingMark, String.toList_ofList] at hc
  rcases List.mem_append.mp hc with hc | hc
  · rw [List.eq_of_mem_replicate hc]
    decide
  · obtain rfl : c = ' ' := by simpa using hc
    exact isPlain_blank

theorem exists_heading_iff :
    (∃ token, Token.kind token = .ok (.str "heading") ∧
        (block env active token level).outcome = .ok (some (indent (escape s) level))) ↔
      HeadingLike s := by
  constructor
  · rintro ⟨token, hk, h⟩
    rw [block_eq_some_iff hk rfl, blockOf] at h
    obtain ⟨value, -, h⟩ := Rendering.exists_of_bind h
    obtain ⟨degree, hdegree, h⟩ := Rendering.exists_of_bind h
    obtain ⟨text, -, h⟩ := Rendering.exists_of_bind h
    cases degree with
    | none => cases h
    | some degree =>
      obtain ⟨hlow, hhigh⟩ := headingLevel_bounds hdegree
      have heq : headingMark degree ++ " " ++ text = escape s :=
        indent_injective level (Option.some.inj (Except.ok.inj h))
      refine ⟨degree, hlow, hhigh, ?_⟩
      rw [← isPrefix_escapeChars_iff_of_plain (isPlain_of_mem_headingMark degree)]
      have hlist := congrArg String.toList heq
      rw [escape, String.toList_ofList, String.toList_append] at hlist
      exact ⟨_, hlist⟩
  · rintro ⟨degree, hlow, hhigh, rest, hs⟩
    let token := Token.markedBranch "heading" [("level", .int degree)]
      [Token.text (String.ofList rest)]
    have hdegree : (min (max (degree : Int) 1) 6).toNat = degree := by omega
    have hlevel : token.attr "level" (.int 1) >>= headingLevel = .ok (some degree) := by
      show headingLevel (.int degree) = _
      rw [headingLevel, hdegree]
    have htext : (inlinesBelow env active token).outcome =
        .ok (escape (String.ofList rest)) := by
      have hchildren : token.children = .ok [Token.text (String.ofList rest)] := rfl
      rw [inlinesBelow_of_children hchildren]
      exact inlines_text _
    have hsame : headingMark degree ++ " " ++ escape (String.ofList rest) = escape s := by
      rw [← String.toList_inj, String.toList_append, escape, escape, String.toList_ofList,
        String.toList_ofList, String.toList_ofList, ← hs,
        escapeChars_append_of_plain (isPlain_of_mem_headingMark degree)]
    refine ⟨token, rfl, ?_⟩
    have hshown := @blockOf_heading env active token level degree _ hlevel htext
    rw [hsame] at hshown
    exact (block_eq_some_iff rfl rfl).mpr hshown

end Heading

/-- No text is escaped to a rule across the page. -/
theorem rule_ne_escape (hk : Token.kind token = .ok (.str "thematic_break")) :
    (block env active token level).outcome ≠ .ok (some (indent (escape s) level)) := by
  intro h
  rw [block_eq_some_iff hk rfl, blockOf] at h
  have heq : rule = escape s := indent_injective level (Option.some.inj (Except.ok.inj h))
  have hsharp : ['#'] <+: escapeChars s.toList := by
    have hlist := congrArg String.toList heq
    rw [escape, String.toList_ofList] at hlist
    rw [← hlist]
    decide
  exact absurd (eq_of_cons_isPrefix_escapeChars rfl hsharp) (by decide)

section List

theorem isPlain_of_mem_marker (hm : marker ∈ ["-", "+"]) :
    ∀ c ∈ marker.toList ++ [' '], IsPlain c := by
  intro c hc
  rcases List.mem_append.mp hc with hc | hc
  · have hsign : marker = "-" ∨ marker = "+" := by simpa using hm
    rcases hsign with rfl | rfl
    · obtain rfl : c = '-' := by simpa using hc
      decide
    · obtain rfl : c = '+' := by simpa using hc
      decide
  · obtain rfl := List.mem_singleton.mp hc
    exact isPlain_blank

theorem isPlain_of_mem_unit : ∀ c ∈ unit, IsPlain c := by
  intro c hc
  obtain rfl : c = ' ' := by simpa [unit] using hc
  exact isPlain_blank

theorem opensItem_escapeChars_iff (hm : marker ∈ ["-", "+"]) {row : List Char} :
    OpensItem marker (escapeChars row) ↔ OpensItem marker row := by
  have hplain := isPlain_of_mem_marker hm
  have hmarker : ∀ c ∈ marker.toList, IsPlain c := fun c hc => hplain c (List.mem_append_left _ hc)
  rw [OpensItem, OpensItem, escapeChars_eq_iff_of_plain hmarker,
    isPrefix_escapeChars_iff_of_plain hplain]

theorem unit_isPrefix_escapeChars_iff {row : List Char} :
    unit <+: escapeChars row ↔ unit <+: row :=
  isPrefix_escapeChars_iff_of_plain isPlain_of_mem_unit

/-- Behind the margin, a row of an item begins an item or is pushed in. -/
theorem ItemRows.classified (h : ItemRows marker level text) {row : List Char}
    (hrow : margin level ++ row ∈ textRows text) : OpensItem marker row ∨ unit <+: row := by
  obtain ⟨first, rest, hrows, hfirst, hrest⟩ := h
  rw [hrows] at hrow
  rcases List.mem_cons.mp hrow with heq | hrow
  · obtain rfl := List.append_cancel_left heq
    exact .inl hfirst
  · have hdeeper := hrest _ hrow
    rw [margin_succ, List.prefix_append_right_inj] at hdeeper
    exact .inr hdeeper

theorem exists_of_block_list (hk : Token.kind token = .ok (.str "list"))
    (h : (block env active token level).outcome = .ok (some text)) :
    ∃ marker ∈ ["-", "+"], ∃ parts, text = lines parts ∧
      ∀ part ∈ parts, ItemRows marker level part := by
  rw [block_eq_some_iff hk rfl, blockOf] at h
  obtain ⟨marker, hm, h⟩ := Rendering.exists_of_bind h
  have hmarker : marker ∈ ["-", "+"] := by
    rcases listMarker_eq hm with rfl | rfl <;> simp
  have hbreak : '\n' ∉ marker.toList := by
    rcases listMarker_eq hm with rfl | rfl <;> decide
  split at h
  · cases h
  next children _ =>
    obtain ⟨parts, hparts, h⟩ := Rendering.exists_of_bind h
    cases h
    exact ⟨marker, hmarker, parts, rfl, items_yield env active children level hbreak parts hparts⟩

theorem indent_eq_empty (h : indent (escape s) level = "") : s = "" ∧ level = 0 := by
  have hlist := congrArg String.toList h
  rw [toList_indent, Int.toNat_natCast] at hlist
  obtain ⟨hmargin, htext⟩ := List.append_eq_nil_iff.mp hlist
  cases level with
  | zero =>
    rw [indented_zero, escape, String.toList_ofList] at htext
    have hnone : s.toList = [] :=
      (escapeChars_eq_iff_of_plain (List.forall_mem_nil IsPlain)).mp htext
    exact ⟨String.toList_inj.mp hnone, rfl⟩
  | succ n =>
    rw [margin_succ] at hmargin
    exact absurd (List.append_eq_nil_iff.mp hmargin).2 (by decide)

theorem listLike_of_list (hk : Token.kind token = .ok (.str "list"))
    (h : (block env active token level).outcome = .ok (some (indent (escape s) level))) :
    (s = "" ∧ level = 0) ∨ ListLike s := by
  obtain ⟨marker, hmarker, parts, hlines, hparts⟩ := exists_of_block_list hk h
  cases parts with
  | nil => exact .inl (indent_eq_empty hlines)
  | cons part others =>
    right
    obtain ⟨first, rest, hs⟩ := List.exists_cons_of_ne_nil (List.splitOn_ne_nil '\n' s.toList)
    -- The rows of the list are those of the text, escaped and behind the margin.
    have hrows : (part :: others).flatMap textRows =
        (first :: rest).map fun row => margin level ++ escapeChars row := by
      rw [← textRows_lines (by simp), ← hlines, textRows_indent, textRows_escape, textRows, hs,
        Int.toNat_natCast, List.map_map]
      rfl
    refine ⟨marker, hmarker, first, rest, hs, ?_, fun row hrow => ?_⟩
    · obtain ⟨opening, more, hpart, hopens, -⟩ := hparts part List.mem_cons_self
      rw [List.flatMap_cons, hpart, List.cons_append, List.map_cons] at hrows
      obtain rfl := List.append_cancel_left (List.cons.inj hrows).1
      exact (opensItem_escapeChars_iff hmarker).mp hopens
    · have hmem : margin level ++ escapeChars row ∈ (part :: others).flatMap textRows := by
        rw [hrows]
        exact List.mem_map.mpr ⟨row, List.mem_cons_of_mem _ hrow, rfl⟩
      obtain ⟨one, hone, hmem⟩ := List.mem_flatMap.mp hmem
      rw [← opensItem_escapeChars_iff hmarker, ← unit_isPrefix_escapeChars_iff]
      exact (hparts one hone).classified hmem

/-- An item with its marker alone in its first row. What comes first in it shows nothing, so that
the paragraph below does not follow the marker. -/
theorem exists_bareItem (env : Environment) (active : List String) (level : Nat)
    (hm : marker ∈ ["-", "+"]) {deeper : List (List Char)} (hdeeper : ∀ row ∈ deeper, '\n' ∉ row) :
    ∃ token text, (item env active marker token level).outcome = .ok text ∧
      textRows text = (margin level ++ marker.toList) ::
        deeper.map fun row => margin (level + 1) ++ escapeChars row := by
  have hbreak : '\n' ∉ marker.toList := by
    revert marker
    decide
  have hmarker : textRows (indent marker level) = [margin level ++ marker.toList] := by
    rw [textRows_indent, textRows, List.splitOn_eq_singleton hbreak, Int.toNat_natCast]
    rfl
  by_cases hnone : deeper = []
  · subst hnone
    have hparts : itemParts (Token.branch "list_item" []) = .ok [] := rfl
    refine ⟨Token.branch "list_item" [], lines [indent marker level], ?_, ?_⟩
    · rw [item_of_leadless hparts leadless_nil, blocks]
      rfl
    · rw [textRows_lines (by simp), List.flatMap_singleton, hmarker]
      rfl
  · let below := [Token.leaf "definition" "", rawParagraph (joined deeper)]
    have hparts : itemParts (Token.branch "list_item" below) = .ok below := rfl
    have hlead : Leadless below := by
      rintro _ ⟨⟩
      exact ⟨.str "definition", rfl, rfl⟩
    have hsilent : (block env active (Token.leaf "definition" "") (level + 1)).outcome =
        .ok none := by
      rw [@block_of_silent env active (Token.leaf "definition" "") _ _ rfl rfl]
      rfl
    have hshown : (blocks env active below (level + 1)).outcome =
        .ok [indent (escape (joined deeper)) (level + 1)] := by
      have hne : indent (escape (joined deeper)) (level + 1 : Nat) ≠ "" :=
        fun h => absurd (indent_eq_empty h).2 (Nat.succ_ne_zero level)
      exact blocks_cons_of_none hsilent
        (blocks_cons_of_shown (block_rawParagraph _) hne blocks_nil)
    refine ⟨Token.branch "list_item" below,
      lines [indent marker level, indent (escape (joined deeper)) (level + 1)], ?_, ?_⟩
    · rw [item_of_leadless hparts hlead, Rendering.bind_of_ok hshown]
      rfl
    · have hindent : ((level : Int) + 1).toNat = level + 1 := by omega
      rw [textRows_lines (by simp), List.flatMap_cons, hmarker, List.flatMap_singleton,
        textRows_indent, textRows_escape, textRows_joined hnone hdeeper, hindent, List.map_map]
      rfl

/-- An item of which the first row and the rows below it are given. -/
theorem exists_item (env : Environment) (active : List String) (level : Nat)
    (hm : marker ∈ ["-", "+"]) {opening : List Char} {deeper : List (List Char)}
    (hopens : OpensItem marker opening) (hopening : '\n' ∉ opening)
    (hdeeper : ∀ row ∈ deeper, '\n' ∉ row) :
    ∃ token text, (item env active marker token level).outcome = .ok text ∧
      textRows text = (margin level ++ escapeChars opening) ::
        deeper.map fun row => margin (level + 1) ++ escapeChars row := by
  have hplain := isPlain_of_mem_marker hm
  rcases hopens with rfl | ⟨behind, rfl⟩
  · have hmarker : escapeChars marker.toList = marker.toList :=
      (escapeChars_eq_iff_of_plain fun c hc => hplain c (List.mem_append_left _ hc)).mpr rfl
    rw [hmarker]
    exact exists_bareItem env active level hm hdeeper
  · have hbehind : '\n' ∉ behind := fun h => hopening (List.mem_append_right _ h)
    have hspaced : '\n' ∉ (marker ++ " ").toList := by
      rw [String.toList_append]
      exact fun h => hopening (List.mem_append_left _ h)
    have hrows : textRows (escape (joined (behind :: deeper))) =
        escapeChars behind :: deeper.map escapeChars := by
      rw [textRows_escape, textRows_joined (by simp) (List.forall_mem_cons.mpr ⟨hbehind, hdeeper⟩)]
      rfl
    have hlead : textRows (marker ++ " " ++ escape (joined (behind :: deeper))) =
        ((marker ++ " ").toList ++ escapeChars behind) :: deeper.map escapeChars := by
      rw [textRows_append_of_row hspaced, hrows]
      rfl
    let token := Token.branch "list_item" [rawParagraph (joined (behind :: deeper))]
    have hparts : itemParts token = .ok [rawParagraph (joined (behind :: deeper))] := rfl
    have hfirst : IsLead (rawParagraph (joined (behind :: deeper))) := rfl
    refine ⟨token, lines (itemLead marker (escape (joined (behind :: deeper))) level), ?_, ?_⟩
    · rw [item_of_lead hparts hfirst, Rendering.bind_of_ok (paragraph_rawParagraph _), blocks]
      simp [Rendering.after]
    · rw [textRows_lines (itemLead_ne_nil _ _ _), textRows_itemLead hlead, String.toList_append,
        escapeChars_append_of_plain hplain, List.map_map]
      rfl

/-- Items of which the rows are given, after rows that have to go to an item before. -/
theorem exists_items (env : Environment) (active : List String) (level : Nat)
    (hm : marker ∈ ["-", "+"]) {given : List (List Char)} (hbreak : ∀ row ∈ given, '\n' ∉ row)
    (h : ∀ row ∈ given, OpensItem marker row ∨ unit <+: row) :
    ∃ (deeper : List (List Char)) (tokens : List Value) (parts : List String),
      (∀ row ∈ deeper, '\n' ∉ row) ∧
      (items env active marker tokens level).outcome = .ok parts ∧
      (given.map fun row => margin level ++ escapeChars row) =
        (deeper.map fun row => margin (level + 1) ++ escapeChars row) ++
          parts.flatMap textRows := by
  -- From the last row on: rows that are pushed in wait for the item above them.
  induction given with
  | nil => exact ⟨[], [], [], List.forall_mem_nil _, items_nil, rfl⟩
  | cons row rest ih =>
    obtain ⟨hrow, hrest⟩ := List.forall_mem_cons.mp hbreak
    obtain ⟨hkind, hkinds⟩ := List.forall_mem_cons.mp h
    obtain ⟨deeper, tokens, parts, hdeeper, hparts, hrows⟩ := ih hrest hkinds
    rcases hkind with hopens | ⟨behind, rfl⟩
    · obtain ⟨token, text, htext, hitem⟩ := exists_item env active level hm hopens hrow hdeeper
      refine ⟨[], token :: tokens, text :: parts, List.forall_mem_nil _,
        items_cons htext hparts, ?_⟩
      rw [List.map_cons, hrows, List.flatMap_cons, hitem]
      rfl
    · refine ⟨behind :: deeper, tokens, parts, ?_, hparts, ?_⟩
      · refine List.forall_mem_cons.mpr ⟨fun hmem => ?_, hdeeper⟩
        exact hrow (List.mem_append_right _ hmem)
      · have hunit : escapeChars (unit ++ behind) = unit ++ escapeChars behind :=
          escapeChars_append_of_plain isPlain_of_mem_unit behind
        rw [List.map_cons, hrows, hunit, List.map_cons, margin_succ, List.append_assoc]
        rfl

theorem exists_list_of_items {children : List Value} {parts : List String}
    (hm : marker ∈ ["-", "+"])
    (h : (items env active marker children level).outcome = .ok parts) :
    ∃ token, Token.kind token = .ok (.str "list") ∧
      (block env active token level).outcome = .ok (some (lines parts)) := by
  let token := Token.markedBranch "list" [("ordered", .bool (marker == "+"))] children
  have hmarker : listMarker token = .ok marker := by
    obtain rfl | rfl : marker = "-" ∨ marker = "+" := by simpa using hm
    · rfl
    · rfl
  have hchildren : token.children = .ok children := rfl
  exact ⟨token, rfl, block_of_items rfl hmarker hchildren h⟩

theorem exists_list_of_listLike (env : Environment) (active : List String)
    (h : (s = "" ∧ level = 0) ∨ ListLike s) :
    ∃ token, Token.kind token = .ok (.str "list") ∧
      (block env active token level).outcome = .ok (some (indent (escape s) level)) := by
  rcases h with ⟨rfl, rfl⟩ | ⟨marker, hm, first, rest, hs, hfirst, hrest⟩
  · exact exists_list_of_items (List.mem_cons_self ..) items_nil
  · have hbreak : ∀ row ∈ first :: rest, '\n' ∉ row := by
      rw [← hs]
      exact newline_notMem_splitOn _
    obtain ⟨hopening, hbreaks⟩ := List.forall_mem_cons.mp hbreak
    obtain ⟨deeper, tokens, parts, hdeeper, hparts, hrows⟩ :=
      exists_items env active level hm hbreaks hrest
    obtain ⟨token, text, htext, hitem⟩ := exists_item env active level hm hfirst hopening hdeeper
    have hsame : lines (text :: parts) = indent (escape s) level := by
      refine textRows_injective ?_
      rw [textRows_lines (by simp), List.flatMap_cons, hitem, List.cons_append, ← hrows,
        textRows_indent, textRows_escape, hs, Int.toNat_natCast, List.map_map]
      rfl
    rw [← hsame]
    exact exists_list_of_items hm (items_cons htext hparts)

end List

/-- A paragraph of plain text comes out as no rule, as a heading exactly if it begins like one, and
as a list exactly if its rows could be those of a list. Nothing at all is also what a list without
items comes to. -/
theorem plainParagraph_lookalike_iff (env : Environment) (active : List String) (level : Nat)
    (h : Text.lower (Text.strip s) ≠ "[toc]") :
    (∀ token, Token.kind token = .ok (.str "thematic_break") →
      (block env active (plainParagraph s) level).outcome ≠
        (block env active token level).outcome) ∧
    ((∃ token, Token.kind token = .ok (.str "heading") ∧
      (block env active (plainParagraph s) level).outcome =
        (block env active token level).outcome) ↔ HeadingLike s) ∧
    ((∃ token, Token.kind token = .ok (.str "list") ∧
      (block env active (plainParagraph s) level).outcome =
        (block env active token level).outcome) ↔ (s = "" ∧ level = 0) ∨ ListLike s) := by
  have hshown : (block env active (plainParagraph s) level).outcome =
      .ok (some (indent (escape s) level)) := block_plainParagraph h
  rw [hshown]
  refine ⟨fun token hk heq => rule_ne_escape hk heq.symm, ?_, ?_⟩
  · simp only [eq_comm (a := Except.ok (some (indent (escape s) level)))]
    exact exists_heading_iff
  · simp only [eq_comm (a := Except.ok (some (indent (escape s) level)))]
    constructor
    · rintro ⟨token, hk, heq⟩
      exact listLike_of_list hk heq
    · exact exists_list_of_listLike env active

theorem plainParagraph_lookalike_iff_twoRows :
    Text.lower (Text.strip "= a\n- b") ≠ "[toc]" ∧
      (∃ token, Token.kind token = .ok (.str "heading") ∧
        (block { convertMath := .ok } [] (plainParagraph "= a\n- b") (1 : Nat)).outcome =
          (block { convertMath := .ok } [] token (1 : Nat)).outcome) ∧
      ¬ ∃ token, Token.kind token = .ok (.str "list") ∧
        (block { convertMath := .ok } [] (plainParagraph "= a\n- b") (1 : Nat)).outcome =
          (block { convertMath := .ok } [] token (1 : Nat)).outcome := by
  have hmarker : Text.lower (Text.strip "= a\n- b") ≠ "[toc]" := by decide
  obtain ⟨-, hheading, hlist⟩ := plainParagraph_lookalike_iff { convertMath := .ok } [] 1 hmarker
  refine ⟨hmarker, hheading.mpr ⟨1, by decide⟩, fun h => ?_⟩
  rcases hlist.mp h with ⟨hempty, -⟩ | ⟨marker, hm, first, rest, hrows, hopens, -⟩
  · exact absurd hempty (by decide)
  · have hfirst : first = "= a".toList := (List.cons.inj hrows).1.symm
    subst hfirst
    revert hopens
    revert marker
    decide

/-- A paragraph that begins with a hyphen comes out as a list does. -/
theorem hyphenParagraph_shownAsList :
    Text.lower (Text.strip "- x") ≠ "[toc]" ∧
      (block { convertMath := .ok } [] (plainParagraph "- x") 0).outcome = .ok (some "- x") ∧
      (block { convertMath := .ok } []
        (Token.branch "list" [Token.branch "list_item" [plainParagraph "x"]]) 0).outcome =
          .ok (some "- x") := by
  have hword : Text.lower (Text.strip "x") ≠ "[toc]" := by decide
  have hmarker : Text.lower (Text.strip "- x") ≠ "[toc]" := by decide
  have hlist : listMarker (Token.branch "list" [Token.branch "list_item" [plainParagraph "x"]]) =
      .ok "-" := rfl
  exact ⟨hmarker, block_plainParagraph hmarker,
    block_of_items rfl hlist rfl (items_cons (item_plainParagraph hword) items_nil)⟩

end Typeset.Layout
