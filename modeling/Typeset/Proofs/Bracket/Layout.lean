import Typeset.Proofs.Bracket.Inline

/-! The frames of blocks open and close nothing: what each of them opens it closes again, at every
level of indentation. -/

namespace Typeset.Bracket

open Render Rendering Scan

variable {s : State} {frame : Frame} {indent : Int}

theorem closed_lines {parts : List String} (h : ∀ part ∈ parts, Closed frame part) :
    Closed frame (lines parts) := Closed.intercalate (closed_inert frame rfl) h

theorem closed_heading (level : Nat) {text : String} (h : Closed .content text) :
    Closed .content (headingMark level ++ " " ++ text) := by
  have hmark : (headingMark level).toList.all isInert := by
    rw [headingMark, String.toList_ofList, List.all_replicate]
    split <;> rfl
  exact ((closed_inert .content hmark).append (closed_inert .content rfl)).append h

theorem closed_outline : Closed .content outline :=
  @Closed.called "outline" "title: auto, indent: auto" rfl (closed_inert .call rfl)

theorem closed_rule : Closed .content rule :=
  @Closed.called "line" "length: 100%, stroke: 0.6pt" rfl (closed_inert .call rfl)

theorem closed_listMarker {token : Value} {marker : String} (h : listMarker token = .ok marker) :
    Closed .content marker := by
  obtain ⟨ordered, _, h⟩ := Failure.exists_of_bind h
  injection h with h
  subst h
  split
  · exact closed_inert .content rfl
  · exact closed_inert .content rfl

/-- The lines of a text are read as the text, each pushed in by any number of levels. -/
theorem run_itemLead (marker text : String) (hs : s.Settled) :
    run step s (lines (itemLead marker text indent)).toList =
      run step s (marker ++ " " ++ text).toList := by
  have hwhole : ['\n'].intercalate ((marker ++ " " ++ text).toList.splitOn '\n') =
      (marker ++ " " ++ text).toList := List.intercalate_splitOn '\n'
  unfold itemLead
  split
  next h => exact (List.splitOn_ne_nil _ _ h).elim
  next first h =>
    rw [h, List.intercalate_singleton] at hwhole
    rw [lines, String.intercalate_singleton, run_indent hs, String.toList_ofList, hwhole]
  next first more hne h =>
    rw [h, List.intercalate_cons_of_ne_nil hne] at hwhole
    rw [← hwhole, lines, String.intercalate_cons_cons, String.intercalate_singleton,
      String.toList_append, String.toList_append, List.append_assoc, List.append_assoc, run_append,
      run_append, run_indent hs, String.toList_ofList]
    have hnewline : "\n".toList = ['\n'] := rfl
    simp only [hnewline, List.singleton_append, run_newline_indent, String.toList_ofList]

theorem closed_item {marker text : String} (h : Closed .content (marker ++ " " ++ text))
    {parts : List String} (hparts : ∀ part ∈ parts, Closed .content part) :
    Closed .content (lines (itemLead marker text indent ++ parts)) := by
  have hlead : Closed .content (lines (itemLead marker text indent)) := by
    intro frames hf
    rw [run_itemLead marker text settled_plain]
    exact h frames hf
  by_cases hp : parts = []
  · rw [hp, List.append_nil]
    exact hlead
  · have hne : itemLead marker text indent ≠ [] := by
      have hsplit := List.splitOn_ne_nil '\n' (marker ++ " " ++ text).toList
      unfold itemLead
      split <;> simp_all
    rw [lines, String.intercalate_append_of_ne_nil hne hp]
    exact (hlead.append (closed_inert .content rfl)).append (closed_lines hparts)

/-- The bracket of a quotation closes as many as its own opens. -/
theorem Leaves.quotation (h : Leaves n text) (level : Int) :
    Leaves n (Markup.indent "#quote[" level ++ text ++ Markup.indent "]" level) := by
  intro frames hf
  have hopen : run step ⟨frames, .plain⟩ "#quote[".toList = some ⟨.content :: frames, .plain⟩ := by
    rcases frames with _ | ⟨_ | _, outer⟩ <;> rfl
  rw [String.toList_append, String.toList_append, List.append_assoc,
    run_append_of_eq ((run_indent settled_plain _ _).trans hopen),
    run_append_of_eq (h (.content :: frames) rfl), run_indent settled_plain, replicate_content_cons]
  rfl

/-- A quotation pushed in by any number of levels, whatever closed text it is filled with. -/
theorem closed_quotation {inner : String} (h : Closed .content inner) :
    Closed .content (Markup.indent "#quote[" indent ++ inner ++ Markup.indent "]" indent) :=
  h.leaves.quotation indent

theorem closed_quoteBlock {body : String} (h : Closed .content body) :
    Closed .content (quoteBlock body indent) := by
  have hnewline : Closed .content "\n" := closed_inert .content rfl
  unfold quoteBlock
  dsimp only
  split
  · exact closed_quotation hnewline
  · have hinner := (hnewline.append (h.indent (indent + 1))).append hnewline
    simpa [lines, String.append_assoc] using closed_quotation hinner

theorem closed_htmlBlock {token : Value} {shown : Option String}
    (h : htmlBlock token indent = .ok shown) : ∀ text ∈ shown, Closed .content text := by
  obtain ⟨raw, _, h⟩ := Failure.exists_of_bind h
  obtain ⟨html, _, h⟩ := Failure.exists_of_bind h
  injection h with h
  subst h
  split
  · simp
  · simpa using (closed_escape _).indent indent

/-- Code between fences that are longer than every run of backticks in it. -/
theorem closed_fenced {count : Nat} {code info body : String} (hcount : 2 < count)
    (hcode : Markup.longestRun (· == '`') code.toList < count) (hinfo : '`' ∉ info.toList)
    (hbody : ∀ s : State, s.Settled → run step s body.toList = run step s code.toList) :
    Closed .content (lines [Markup.indent (String.ofList (List.replicate count '`') ++ info) indent,
      body, Markup.indent (String.ofList (List.replicate count '`')) indent]) := by
  intro frames hf
  have hnewline : "\n".toList = ['\n'] := rfl
  have hsettled : State.Settled ⟨frames, .raw count 0⟩ := step_raw_of_ne (by decide)
  have hopen : run step ⟨frames, .plain⟩
      ((Markup.indent (String.ofList (List.replicate count '`') ++ info) indent).toList ++ ['\n']) =
        some ⟨frames, .raw count 0⟩ := by
    rw [run_append, run_indent settled_plain, ← run_append, String.toList_append,
      String.toList_ofList]
    exact run_fence hcount hinfo
  obtain ⟨after, hthrough⟩ := run_raw_of_longest hcode
  have hend : run step ⟨frames, .raw count after⟩ ['\n'] = some ⟨frames, .raw count 0⟩ := by
    rw [run_cons, step_raw_of_ne (by decide)]
    rfl
  simp only [lines, String.intercalate_cons_cons, String.intercalate_singleton,
    String.toList_append, hnewline]
  rw [run_append_of_eq hopen, List.append_assoc,
    run_append_of_eq ((hbody _ hsettled).trans hthrough), run_append_of_eq hend,
    run_indent hsettled, String.toList_ofList]
  exact run_fence_closing (by omega)

theorem longestFrom_map {α β : Type} {p : α → Bool} {q : β → Bool} {f : α → β}
    (h : ∀ a, q (f a) = p a) (before : Nat) (xs : List α) :
    Markup.longestFrom q before (xs.map f) = Markup.longestFrom p before xs := by
  induction xs generalizing before with
  | nil => rfl
  | cons x rest ih =>
    rw [List.map_cons, Markup.longestFrom, Markup.longestFrom, h, ih, ih]

/-- The parts of a text are its characters. -/
theorem longestRunValue_text (s : String) (c : Char) :
    Markup.longestRunValue (.str s) (.str (String.singleton c)) =
      .ok (Markup.longestRun (· == c) s.toList) := by
  have hsame (d : Char) :
      (Value.str (String.singleton d) == Value.str (String.singleton c)) = (d == c) := by
    show (String.singleton d == String.singleton c) = (d == c)
    rw [Bool.eq_iff_iff, beq_iff_eq, beq_iff_eq, ← String.toList_inj]
    simp
  simp only [Markup.longestRunValue, Value.parts, Except.map, Markup.longestRun,
    longestFrom_map (q := (· == Value.str (String.singleton c))) hsame]

theorem fenceValue_text (code : String) :
    Markup.fenceValue (.str code) = .ok (Markup.fence code) := by
  show (Markup.longestRunValue (.str code) (.str (String.singleton '`'))).map _ = _
  rw [longestRunValue_text]
  rfl

/-- Code that is written at a level of indentation is text, and is read as it is. -/
theorem exists_text_of_indentValue {code shifted : Value} {body : String}
    (hs : Markup.indentValue code (.int indent) = .ok shifted) (hb : shifted.needText = .ok body) :
    ∃ raw, code = .str raw ∧
      ∀ s : State, s.Settled → run step s body.toList = run step s raw.toList := by
  unfold Markup.indentValue at hs
  split at hs
  · obtain ⟨raw, hraw, hs⟩ := Failure.exists_of_bind hs
    injection hs with hs
    subst hs
    injection hb with hb
    subst hb
    cases code <;> cases hraw
    exact ⟨raw, rfl, fun s hs => run_indent hs raw indent⟩
  · injection hs with hs
    subst hs
    cases code <;> cases hb
    exact ⟨body, rfl, fun _ _ => rfl⟩

theorem not_mem_strip {c : Char} {info : String} (h : c ∉ info.toList) :
    c ∉ (Text.strip info).toList := by
  intro hc
  simp only [Text.strip, Text.trim, Text.trimRight, String.toList_ofList, List.mem_reverse] at hc
  have hmem := (List.dropWhile_sublist _).mem hc
  exact h ((List.dropWhile_sublist _).mem (List.mem_reverse.mp hmem))

theorem not_mem_of_declared {declared : Value} {info : String}
    (h : ∀ info, declared = .str info → '`' ∉ info.toList)
    (hi : (declared.orElse (.str "")).asText = .ok info) : '`' ∉ info.toList := by
  unfold Value.orElse at hi
  split at hi
  · cases declared <;> cases hi
    exact h info rfl
  · injection hi with hi
    subst hi
    simp

theorem closed_codeBlock {token : Value} {text : String}
    (hinfo : ∀ info, token.attr "info" .null = .ok (.str info) → '`' ∉ info.toList)
    (h : codeBlock token indent = .ok text) : Closed .content text := by
  unfold codeBlock at h
  obtain ⟨code, _, h⟩ := Failure.exists_of_bind h
  obtain ⟨declared, hd, h⟩ := Failure.exists_of_bind h
  obtain ⟨info, hi, h⟩ := Failure.exists_of_bind h
  obtain ⟨fence, hf, h⟩ := Failure.exists_of_bind h
  obtain ⟨shifted, hs, h⟩ := Failure.exists_of_bind h
  obtain ⟨body, hb, h⟩ := Failure.exists_of_bind h
  injection h with h
  subst h
  obtain ⟨raw, rfl, hread⟩ := exists_text_of_indentValue hs hb
  rw [fenceValue_text] at hf
  injection hf with hf
  subst hf
  have hticks : '`' ∉ info.toList :=
    not_mem_of_declared (fun info h => hinfo info (h ▸ hd)) hi
  exact closed_fenced (by omega) (by omega) (not_mem_strip hticks) hread

/-- A column is aligned by one of three names. -/
theorem closed_alignment {declared : Value} {name : String} (h : alignment declared = .ok name) :
    Closed .call name := by
  unfold alignment at h
  split at h
  · cases h
  · split at h <;> cases h <;> exact closed_inert .call rfl

theorem forall_mem_of_mapM {α β : Type} {P : β → Prop} {f : α → Except Failure β} {xs : List α}
    {ys : List β} (hf : ∀ x y, f x = .ok y → P y) (h : xs.mapM f = .ok ys) : ∀ y ∈ ys, P y := by
  induction xs generalizing ys with
  | nil =>
    cases h
    simp
  | cons x rest ih =>
    rw [List.mapM_cons] at h
    obtain ⟨y, hy, h⟩ := Failure.exists_of_bind h
    obtain ⟨more, hm, h⟩ := Failure.exists_of_bind h
    injection h with h
    subst h
    exact List.forall_mem_cons.mpr ⟨hf x y hy, ih hm⟩

theorem closed_alignments {token : Value} {columns : Nat} {align : List String}
    (h : alignments token columns = .ok align) : ∀ name ∈ align, Closed .call name := by
  unfold alignments at h
  obtain ⟨declared, _, h⟩ := Failure.exists_of_bind h
  have hcolumn (declared : Value) (count i : Nat) (name : String)
      (hn : (if i < count then declared.at? i >>= alignment else .ok "left") = .ok name) :
      Closed .call name := by
    split at hn
    · obtain ⟨_, _, hn⟩ := Failure.exists_of_bind hn
      exact closed_alignment hn
    · cases hn
      exact closed_inert .call rfl
  dsimp only at h
  split at h
  · exact forall_mem_of_mapM (hcolumn _ _) h
  · obtain ⟨count, _, h⟩ := Failure.exists_of_bind h
    exact forall_mem_of_mapM (hcolumn _ _) h

theorem closed_cellRow {cells : List String} (h : ∀ cell ∈ cells, Closed .call cell) :
    Closed .call (cellRow cells) := Closed.intercalate (closed_inert .call rfl) h

/-- One argument of a table on a line of its own, in parentheses. -/
theorem closed_argument {label text : String} (hlabel : label.toList.all isInert)
    (h : Closed .call text) : Closed .call (label ++ "(" ++ text ++ "),") := by
  have hline := ((closed_inert .call hlabel).append h.grouped).append (@closed_inert .call "," rfl)
  simpa [Closed] using hline

/-- A table around arguments on lines of their own. -/
theorem closed_tableCall {arguments : List String} (hne : arguments ≠ [])
    (h : ∀ argument ∈ arguments, Closed .call argument) :
    Closed .content (lines ("#table(" :: arguments ++ [")"])) := by
  have hnewline : Closed .call "\n" := closed_inert .call rfl
  have hcall := @Closed.called "table" _ rfl ((hnewline.append (closed_lines h)).append hnewline)
  have hlines : lines ("#table(" :: arguments ++ [")"]) =
      "#table(" ++ "\n" ++ (lines arguments ++ "\n" ++ ")") := by
    rw [lines, List.cons_append, String.intercalate_cons_of_ne_nil (by simp),
      String.intercalate_append_of_ne_nil hne (by simp), String.intercalate_singleton, lines]
  rw [hlines]
  simpa [Closed] using hcall

/-- A table is a call whose arguments hold the cells as content. -/
theorem closed_tableMarkup {align head : List String} {body : List (List String)}
    (ha : ∀ name ∈ align, Closed .call name) (hh : ∀ cell ∈ head, Closed .content cell)
    (hb : ∀ row ∈ body, ∀ cell ∈ row, Closed .content cell) :
    Closed .content (tableMarkup align head body) := by
  have hstar : Closed .content "*" := closed_inert .content rfl
  have hcolumns : Closed .call (cellRow (head.map fun _ => "1fr")) :=
    closed_cellRow (List.forall_mem_map.mpr fun _ _ => closed_inert .call rfl)
  have hheader : Closed .call (cellRow (head.map fun cell => "[*" ++ cell ++ "*]")) := by
    refine closed_cellRow (List.forall_mem_map.mpr fun cell hc => ?_)
    have h := ((hstar.append (hh cell hc)).append hstar).bracketed .call
    simpa [Closed] using h
  have hrows : ∀ row ∈ (body.filter fun row => !row.isEmpty).map fun row =>
      "  " ++ cellRow (row.map fun cell => "[" ++ cell ++ "]"), Closed .call row := by
    refine List.forall_mem_map.mpr fun row hr => (closed_inert .call rfl).append ?_
    refine closed_cellRow (List.forall_mem_map.mpr fun cell hc => ?_)
    exact (hb row (List.mem_filter.mp hr).1 cell hc).bracketed .call
  refine closed_tableCall (List.cons_ne_nil _ _) ?_
  refine List.forall_mem_append.mpr ⟨?_, ?_⟩
  · simp only [List.forall_mem_cons]
    refine ⟨?_, ?_, ?_, by simp⟩
    · simpa [Closed] using @closed_argument "  columns: " _ rfl hcolumns
    · simpa [Closed] using @closed_argument "  align: " _ rfl (closed_cellRow ha)
    · simpa [Closed] using @closed_argument "  table.header" _ rfl hheader
  · split
    · simp
    · exact List.forall_mem_singleton.mpr (Closed.intercalate (closed_inert .call rfl) hrows)

end Typeset.Bracket
