import Mathlib
import Typeset.Proofs.Conversion.Total
import Typeset.Proofs.Conversion.Unreferring
import Typeset.Proofs.Render.Reference
import Typeset.Proofs.Source.Parts
import Typeset.Proofs.Source.Remainder
import Typeset.Proofs.Token.Below

/-! Brackets behind backslashes. The reader of Markdown takes the backslashes away and hands the
brackets on as text, in which references are then looked for: the brackets stay text unless the
text spells a reference out once the backslashes are gone. -/

namespace Typeset.Source

open Token

variable {fence : Option Line} {afterBlank : Bool} {source : List Char} {line : Line}
  {ls : List Line}

/-- Whether all square brackets stand behind a backslash of their own; a backslash belongs to the
character behind it. -/
def bracketsEscaped : List Char → Bool
  | [] => true
  | '\\' :: _ :: rest => bracketsEscaped rest
  | c :: rest => !isBracket c && bracketsEscaped rest

section Line

/-- Lines that do not begin with a bracket are all kept. -/
theorem liftFrom_of_head? (h : ∀ line ∈ ls, line.head? ≠ some '[') :
    liftFrom fence afterBlank ls = { kept := ls } := by
  induction ls generalizing fence afterBlank with
  | nil => exact liftFrom_nil
  | cons line ls ih =>
    obtain ⟨hline, hmore⟩ := List.forall_mem_cons.mp h
    cases fence with
    | some f => rw [liftFrom_inside, ih hmore]
    | none =>
      cases hf : fence? line with
      | some f => rw [liftFrom_of_fence hf, ih hmore]
      | none =>
        have hlink : (if afterBlank then link? line else none) = none := by
          rw [link?_of_head? hline, ite_self]
        rw [liftFrom_of_plain hf (noteStart?_of_head? hline) hlink, ih hmore]

/-- The backslash before a bracket keeps it from the beginning of a line. -/
theorem head?_of_bracketsEscaped {cs : List Char} (h : bracketsEscaped cs = true) :
    ∀ l ∈ Text.linesWithEnds cs, l.head? ≠ some '[' := by
  fun_induction bracketsEscaped cs with
  | case1 => exact List.forall_mem_nil _
  | case2 d rest ih =>
    obtain ⟨first, more, hlines, hfirst, -, hmore⟩ := Text.linesWithEnds_cons '\\' (d :: rest)
    obtain ⟨second, others, hlines', -, hothers, -⟩ := Text.linesWithEnds_cons d rest
    rw [hlines, hmore rfl, hlines']
    refine List.forall_mem_cons.mpr ⟨by rw [hfirst]; decide, fun l hl => ?_⟩
    exact ih h l (hothers l hl)
  | case3 c rest _ ih =>
    obtain ⟨hc, hrest⟩ := Bool.and_eq_true_iff.mp h
    obtain ⟨first, more, hlines, hfirst, hmore, -⟩ := Text.linesWithEnds_cons c rest
    rw [hlines]
    refine List.forall_mem_cons.mpr ⟨?_, fun l hl => ih hrest l (hmore l hl)⟩
    rw [hfirst]
    rintro heq
    cases heq
    cases hc

/-- Where all brackets are escaped, nothing is taken out. -/
theorem liftedFrom_of_bracketsEscaped (h : bracketsEscaped (splitFrontMatter source).2 = true) :
    liftedFrom source = { kept := Text.lines (splitFrontMatter source).2 } := by
  refine liftFrom_of_head? fun line hline hhead => ?_
  obtain ⟨l, hl, rfl⟩ := List.mem_map.mp hline
  exact head?_of_bracketsEscaped h l hl (Text.head?_dropEnd hhead)

end Line

section Escapes

variable {read : List Char → List Value} {text : List Char}

/-- The reader of Markdown makes a paragraph of text of a line: the line without the backslashes of
its escapes, in as many pieces as it likes. -/
def ReadsEscapes (read : List Char → List Value) (text : List Char) : Prop :=
  ∃ pieces : List String, pieces ≠ [] ∧
    read text = [branch "paragraph" (pieces.map Token.text)] ∧
      pieces.flatMap String.toList = Markdown.unescape text

theorem normalizeAll_texts (pieces : List String) :
    normalizeAll (pieces.map Token.text) = .ok (pieces.map Token.text) := by
  induction pieces with
  | nil => rw [List.map_nil, normalizeAll]
  | cons piece rest ih =>
    have hhere : normalize (Token.text piece) = .ok [Token.text piece] := by
      rw [Token.normalize]
      rfl
    rw [List.map_cons, normalizeAll, hhere, ih]
    rfl

theorem normalizeAll_paragraph {pieces : List String} (hne : pieces ≠ []) :
    normalizeAll [branch "paragraph" (pieces.map Token.text)] =
      .ok [branch "paragraph" (pieces.map Token.text)] := by
  obtain ⟨piece, rest, rfl⟩ := List.exists_cons_of_ne_nil hne
  have htexts := normalizeAll_texts (piece :: rest)
  rw [List.map_cons] at htexts ⊢
  have hkind : Token.kind (branch "paragraph" (Token.text piece :: rest.map Token.text)) =
      .ok (.str "paragraph") := rfl
  have hhere : Token.normalize (branch "paragraph" (Token.text piece :: rest.map Token.text)) =
      .ok [branch "paragraph" (Token.text piece :: rest.map Token.text)] := by
    rw [Token.normalize, hkind]
    extract_lets children
    have hchildren : children =
        .ok [("children", .list (Token.text piece :: rest.map Token.text))] := by
      subst children
      split
      next f hf => cases hf
      next items hitems =>
        cases hitems
        rw [htexts]
        rfl
    rw [hchildren]
    rfl
  rw [normalizeAll, hhere, normalizeAll]
  rfl

theorem searched_paragraph {pieces : List String} (hne : pieces ≠ []) :
    searched (branch "paragraph" (pieces.map Token.text)) = .ok (pieces.map Token.text) := by
  obtain ⟨piece, rest, rfl⟩ := List.exists_cons_of_ne_nil hne
  rfl

/-- A paragraph of text has one run. -/
theorem run_paragraph_iff {pieces : List String} (hne : pieces ≠ []) {run : String} :
    Run (branch "paragraph" (pieces.map Token.text)) run ↔
      run = String.ofList (pieces.flatMap String.toList) := by
  have hsearched := searched_paragraph hne
  have hmerged := mergeText_texts hne
  constructor
  · rintro (⟨hs, merged, t, hm, ht, -, hrun⟩ | ⟨hs, ht, htext, -⟩)
    · cases hsearched.symm.trans hs
      cases hmerged.symm.trans hm
      rw [List.mem_singleton.mp ht] at hrun
      cases hrun
      rfl
    · cases hsearched.symm.trans hs
      obtain ⟨piece, -, rfl⟩ := List.mem_map.mp ht
      cases htext
  · rintro rfl
    exact .own hsearched ⟨_, _, hmerged, List.mem_singleton.mpr rfl, rfl, rfl⟩

theorem canonical_of_readsEscapes (h : ReadsEscapes read text) :
    canonical [] (read text) =
      .ok [branch "paragraph" (splitReferences [] (String.ofList (Markdown.unescape text)))] := by
  obtain ⟨pieces, hne, hread, hjoined⟩ := h
  have hbelow : below [] (pieces.map Token.text) =
      .ok (splitReferences [] (String.ofList (pieces.flatMap String.toList))) := below_texts hne
  have hresolve := resolve_of_below (searched_paragraph hne) (by simpa using hne) hbelow
  rw [hread, canonical, normalizeAll_paragraph hne]
  change [branch "paragraph" (pieces.map Token.text)].mapM (resolve []) = _
  rw [List.mapM_cons, hresolve, hjoined]
  rfl

end Escapes

section Document

variable {read : List Char → List Value}

/-- The tokens of a document out of which nothing is taken: that of its metadata block, if there is
one, and those of its text. -/
theorem tokensBy_of_kept {ls : List Line} {body : List Value}
    (hkept : liftedFrom source = { kept := ls })
    (hbody : canonical [] (read (liftedFrom source).text) = .ok body) :
    tokensBy read source = .ok (frontTokens source ++ body) := by
  have hknown : (liftedFrom source).known = [] := by rw [hkept]; rfl
  rw [← hknown] at hbody
  rw [tokensBy, frontTokens]
  change (canonical (liftedFrom source).known (read (liftedFrom source).text) >>= _) = _
  rw [hbody]
  change ((liftedFrom source).notes.mapM _ >>= fun notes => Except.ok
    (frontTokens source ++ body ++ (liftedFrom source).links.map LinkDefinition.token ++ notes)) = _
  rw [hkept]
  exact congrArg Except.ok (by simp [frontTokens])

/-- In a document whose brackets are all escaped they stay text exactly if none of the runs of text
that the reader of Markdown makes of it refers to anything. Each run that does not is handed on as
it is, and if none does, nothing is reported about references. A line that is read as text without
its escapes comes to one paragraph, in which the brackets stay text exactly if the line refers to
nothing once its escapes are gone. -/
theorem escapedBrackets_unreferring_iff (hread : IsReader read)
    (hescaped : bracketsEscaped (splitFrontMatter source).2 = true) :
    liftedFrom source = { kept := Text.lines (splitFrontMatter source).2 } ∧
      ∃ trees tokens, normalizeAll (read (liftedFrom source).text) = .ok trees ∧
        tokensBy read source = .ok tokens ∧
        ((∀ t ∈ tokens, t.Everywhere Unreferring) ↔
          ∀ tree ∈ trees, ∀ run, Run tree run → ¬ Referring run.toList) ∧
        (∀ tree ∈ trees, ∀ run, Run tree run → ¬ Referring run.toList →
          ∃ out ∈ tokens, out.Within (Token.text run)) ∧
        (ReadsEscapes read (liftedFrom source).text →
          tokens = frontTokens source ++ [branch "paragraph" (splitReferences []
            (String.ofList (Markdown.unescape (liftedFrom source).text)))] ∧
          ((∀ t ∈ tokens, t.Everywhere Unreferring) ↔
            ¬ Referring (Markdown.unescape (liftedFrom source).text))) ∧
        ((∀ t ∈ tokens, t.Everywhere Unreferring) → ∀ c : Converter, c.read = tokensBy read →
          Rendering.Reports (fun issue => ¬ issue.AboutReference)
            (c.run (.markdown (String.ofList source)))) := by
  have hkept := liftedFrom_of_bracketsEscaped hescaped
  obtain ⟨body, hbody, -⟩ := canonical_gives [] (hread (liftedFrom source).text)
  have htokens := tokensBy_of_kept hkept hbody
  obtain ⟨trees, htrees, -⟩ := exists_of_canonical hbody
  have hiff : (∀ t ∈ frontTokens source ++ body, t.Everywhere Unreferring) ↔
      ∀ tree ∈ trees, ∀ run, Run tree run → ¬ Referring run.toList := by
    rw [← canonical_unreferring_iff (fun t ht => (hread _ t ht).unreferring) htrees hbody]
    refine ⟨fun hall t ht => hall t (List.mem_append_right _ ht), fun hall => ?_⟩
    refine List.forall_mem_append.mpr ⟨fun t ht => ?_, hall⟩
    obtain ⟨block, -, rfl⟩ := Option.map_eq_some_iff.mp (Option.mem_toList.mp ht)
    exact Value.everywhere_leaf (unreferring_of_kind rfl (isUnreferringKind_str (by decide)))
  refine ⟨hkept, trees, _, htrees, htokens, hiff, ?_, ?_, ?_⟩
  · intro tree htree run hrun hfree
    have hmem : Token.text run ∈ splitReferences [] run := by
      rw [splitReferences_of_not_referring hfree]
      exact List.mem_singleton.mpr rfl
    obtain ⟨out, hout, hwithin⟩ := exists_within_of_canonical hbody htrees htree hrun hmem
    exact ⟨out, List.mem_append_right _ hout, hwithin⟩
  · intro hescapes
    refine ⟨?_, hiff.trans ?_⟩
    · cases (canonical_of_readsEscapes hescapes).symm.trans hbody
      rfl
    · obtain ⟨pieces, hne, hline, hjoined⟩ := hescapes
      rw [hline, normalizeAll_paragraph hne] at htrees
      cases htrees
      simp only [List.forall_mem_singleton, run_paragraph_iff hne, forall_eq, hjoined,
        String.toList_ofList]
  · intro hall c hc
    refine Converter.run_reports_of_unreferring ?_ hall
    rw [Converter.tokensOf, hc, String.toList_ofList]
    exact htokens

end Document

section Lines

variable {read : List Char → List Value}

/-- A line that is read as text without its escapes, and in which nothing is defined. -/
theorem tokensBy_of_line (hfront : splitFrontMatter source = (none, source))
    (hlifted : liftDefinitions source = { kept := [source] }) (h : ReadsEscapes read source) :
    tokensBy read source = .ok [branch "paragraph"
      (splitReferences [] (String.ofList (Markdown.unescape source)))] := by
  have hfrom : liftedFrom source = { kept := [source] } := by rw [liftedFrom, hfront, hlifted]
  have htext : (liftedFrom source).text = source := by
    rw [hfrom]
    exact List.intercalate_singleton
  rw [tokensBy_of_kept hfrom (canonical_of_readsEscapes (htext.symm ▸ h)), htext, frontTokens,
    hfront]
  rfl

end Lines

/-- A word in escaped brackets. -/
def escapedWord : List Char := "\\[a\\] b".toList

theorem splitReferences_word : splitReferences [] "[a] b" = [Token.text "[a] b"] := by cbv

theorem escapedBrackets_unreferring_word :
    bracketsEscaped (splitFrontMatter escapedWord).2 = true ∧
      ReadsEscapes Markdown.tokens (liftedFrom escapedWord).text ∧
      ¬ Referring (Markdown.unescape (liftedFrom escapedWord).text) ∧
      Source.tokens escapedWord = .ok [branch "paragraph" [Token.text "[a] b"]] ∧
      Rendering.Reports (fun issue => ¬ issue.AboutReference)
        (Converter.run {} (.markdown (String.ofList escapedWord))) := by
  have hescaped : bracketsEscaped (splitFrontMatter escapedWord).2 = true := by rfl
  have htext : (liftedFrom escapedWord).text = escapedWord := by cbv
  have hreads : ReadsEscapes Markdown.tokens escapedWord := ⟨["[a] b"], by simp, by cbv, by cbv⟩
  have hbare : String.ofList (Markdown.unescape escapedWord) = "[a] b" := by cbv
  obtain ⟨-, trees, tokens, -, htokens, -, -, hline, hreports⟩ :=
    escapedBrackets_unreferring_iff Markdown.tokens_isReader hescaped
  rw [htext] at hline ⊢
  obtain ⟨rfl, hiff⟩ := hline hreads
  rw [hbare, splitReferences_word] at htokens hiff hreports
  have hall : ∀ t ∈ [branch "paragraph" [Token.text "[a] b"]], t.Everywhere Unreferring := by
    refine List.forall_mem_singleton.mpr (Value.everywhere_branch ?_ ?_)
    · exact unreferring_of_kind rfl (isUnreferringKind_str (by decide))
    · exact List.forall_mem_singleton.mpr (everywhere_unreferring_text _)
  exact ⟨hescaped, hreads, hiff.mp hall, htokens, hreports hall {} rfl⟩

/-- Two words in escaped brackets, one behind the other. -/
def escapedPair : List Char := "\\[a\\]\\[b\\]".toList

/-- Whatever reads them as text without the escapes, they are taken for a reference, which is
reported since it leads nowhere. -/
theorem escapedPair_referring :
    bracketsEscaped (splitFrontMatter escapedPair).2 = true ∧
      ReadsEscapes Markdown.tokens escapedPair ∧
      (∀ read, ReadsEscapes read escapedPair → tokensBy read escapedPair =
        .ok [branch "paragraph" [(Reference.target false .full "a" "b").token]]) ∧
      Render.IsReferenceToken (Reference.target false .full "a" "b").token ∧
      (Render.inline (({} : Converter).environment [] []) []
        (Reference.target false .full "a" "b").token).issues = [Render.unresolved "Link" "b"] := by
  have hescaped : bracketsEscaped (splitFrontMatter escapedPair).2 = true := by rfl
  have hfront : splitFrontMatter escapedPair = (none, escapedPair) := by rfl
  have hlifted : liftDefinitions escapedPair = { kept := [escapedPair] } := by cbv
  have hreads : ReadsEscapes Markdown.tokens escapedPair := ⟨["[a][b]"], by simp, by cbv, by cbv⟩
  have hbare : String.ofList (Markdown.unescape escapedPair) = "[a][b]" := by cbv
  have hsplit : splitReferences [] "[a][b]" =
      [(Reference.target false .full "a" "b").token] := by cbv
  refine ⟨hescaped, hreads, fun read hread => ?_, isReferenceToken_token _, ?_⟩
  · rw [tokensBy_of_line hfront hlifted hread, hbare, hsplit]
  · have hissues : (Render.inline (({} : Converter).environment [] []) []
        (Reference.target false .full "a" "b").token).issues =
          Render.unresolved "Link" "b" ::
            (Render.inlines (({} : Converter).environment [] []) [] [Token.text "a"]).issues :=
      Render.issues_linkReference_of_none rfl rfl rfl rfl
    rw [hissues]
    exact congrArg _ (Render.issues_shownLabel "a")

end Typeset.Source
