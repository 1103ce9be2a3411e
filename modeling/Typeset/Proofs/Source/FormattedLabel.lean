import Mathlib
import Typeset.Proofs.Conversion.Total
import Typeset.Proofs.Source.Parts
import Typeset.Proofs.Token.Below
import Typeset.Proofs.Token.Label

/-! A label in brackets with the identifier of a definition behind it, where the label is a sequence
of tokens: it becomes a link only where all of it is text. -/

namespace Typeset.Token

open Failure

variable {known : List String} {token t : Value} {before cs after merged mid : List Value}
  {s s' identifier w : List Char} {r : Reference}

/-- Tokens between brackets, with an identifier in brackets behind them, and the text around. -/
def labelled (s : List Char) (cs : List Value) (identifier s' : List Char) : List Value :=
  text (String.ofList (s ++ ['['])) ::
    (cs ++ [text (String.ofList (']' :: (group identifier ++ s')))])

/-- The link that such tokens are meant for. -/
def linkTo (identifier : List Char) (label : String) (children : List Value) : Value :=
  markedBranch "link_reference"
    [("identifier", .str (trimmed identifier)), ("label", .str label),
      ("reference_type", .str ReferenceForm.full.name)] children

theorem exists_texts (h : ∀ t ∈ cs, ∃ w : String, t = text w ∧ Bare w.toList) :
    ∃ ss : List String, cs = ss.map text ∧ Bare (ss.flatMap String.toList) := by
  induction cs with
  | nil => exact ⟨[], rfl, List.forall_mem_nil _⟩
  | cons t cs ih =>
    obtain ⟨w, rfl, hw⟩ := h t List.mem_cons_self
    obtain ⟨ss, rfl, hss⟩ := ih fun u hu => h u (List.mem_cons_of_mem _ hu)
    refine ⟨w :: ss, rfl, ?_⟩
    rw [List.flatMap_cons]
    exact List.forall_mem_append.mpr ⟨hw, hss⟩

theorem below_labelled_texts (known : List String) (s identifier s' : List Char)
    (ss : List String) :
    below known (labelled s (ss.map text) identifier s') =
      .ok (splitReferences known (String.ofList
        (s ++ (group (ss.flatMap String.toList) ++ (group identifier ++ s'))))) := by
  have htexts : labelled s (ss.map text) identifier s' =
      (String.ofList (s ++ ['[']) :: (ss ++
        [String.ofList (']' :: (group identifier ++ s'))])).map text := by
    rw [labelled, List.map_cons, List.map_append, List.map_singleton]
  rw [htexts, below_texts (List.cons_ne_nil _ _)]
  simp [group]

/-- A link that a run of text comes to has the text of its label below it. -/
theorem eq_of_token_linkTo {label x : String} (h : r.token = linkTo identifier label [text x]) :
    r = .target false .full x (trimmed identifier) ∧ x ≠ "" := by
  rcases r with name | ⟨_ | _, form, l, i⟩
  · simp [Reference.token, linkTo, marked, markedBranch] at h
  · simp only [Reference.token, linkTo, markedBranch, Value.object.injEq, List.cons.injEq,
      Prod.mk.injEq, Value.str.injEq, Value.list.injEq, and_true, true_and] at h
    obtain ⟨⟨rfl, rfl, hform⟩, hchildren⟩ := h
    by_cases hl : l = ""
    · rw [if_pos hl] at hchildren
      cases hchildren
    · rw [if_neg hl] at hchildren
      have hsame : l = x := by simpa [text, leaf] using hchildren
      rw [← hsame, show form = .full from ReferenceForm.name_injective hform]
      exact ⟨rfl, hl⟩
  · simp [Reference.token, linkTo, marked, markedBranch] at h

/-- Where a token of the label is no text, nothing is a link with the label below it. -/
theorem not_mem_of_formatted {out : List Value} (hplain : ∀ t ∈ cs, Tree Plain t)
    (hmerged : mergeText cs = .ok merged) (ht : t ∈ cs) (htext : isTextRun t = false)
    (hout : below known (labelled s cs identifier s') = .ok out) (label : String) :
    linkTo identifier label merged ∉ out := by
  intro hmem
  have hchild : (linkTo identifier label merged).IsChild t :=
    ⟨_, merged, rfl, rfl, (mem_of_mergeText hmerged htext).mpr ht⟩
  rcases mem_of_below hout hmem with ⟨u, hu, hutext, hres⟩ | ⟨run, hrun⟩
  · have hucs : u ∈ cs := by
      rcases List.mem_cons.mp hu with rfl | hu
      · cases hutext
      · rcases List.mem_append.mp hu with hu | hu
        · exact hu
        · rw [List.mem_singleton.mp hu] at hutext
          cases hutext
    have hkind := field_resolve "type" (by decide) .null hres
    obtain ⟨name, hname, hfree⟩ : ∃ name, u.field "type" .null = .ok (.str name) ∧
        isReserved name = false := by
      cases hplain u hucs with
      | object here _ _ =>
        obtain ⟨name, hlookup, hfree⟩ := here.kind
        exact ⟨name, by rw [Value.field_object, hlookup]; rfl, hfree⟩
    rw [hname] at hkind
    cases hkind
    cases hfree
  · rcases mem_splitReferences hrun with ⟨x, hx⟩ | ⟨r, -, hr⟩
    · have hkind := congrArg Token.kind hx
      simp [linkTo, markedBranch, text, leaf, Token.kind, Value.field_object] at hkind
    · rw [hr] at hchild
      obtain ⟨x, rfl⟩ := isChild_token hchild
      cases htext

/-- Where all of the label is text, the brackets and what stands between them are one run. -/
theorem linked_texts_iff {ss : List String} (hid : IsLabel identifier)
    (hname : trimmed identifier ≠ "") (hknown : Text.lower (trimmed identifier) ∈ known)
    (hw : w = ss.flatMap String.toList) (hbare : Bare w)
    (hmid : below known (labelled s (ss.map text) identifier s') = .ok mid) :
    (∃ label, mid = splitFrom known [] s ++
        linkTo identifier label [text (String.ofList w)] :: splitFrom known [] s') ↔
      (w ≠ [] ∧ w.head? ≠ some '^') ∧ s.getLast? ≠ some '!' ∧ Settled s := by
  rw [below_labelled_texts, ← hw] at hmid
  cases hmid
  constructor
  · rintro ⟨label, hmid⟩
    have hmem : linkTo identifier label [text (String.ofList w)] ∈ splitReferences known
        (String.ofList (s ++ (group w ++ (group identifier ++ s')))) := by
      rw [hmid]
      exact List.mem_append_right _ List.mem_cons_self
    rcases mem_splitReferences hmem with ⟨x, hx⟩ | ⟨r, -, hr⟩
    · have hkind := congrArg Token.kind hx
      simp [linkTo, markedBranch, text, leaf, Token.kind, Value.field_object] at hkind
    · obtain ⟨rfl, hwne⟩ := eq_of_token_linkTo hr.symm
      rw [hr] at hmid
      obtain ⟨hlabel, hlast, hs⟩ := (splitReferences_pair_iff hid hname hknown).mp hmid
      have hne : w ≠ [] := fun hnil => hwne (by rw [hnil])
      exact ⟨⟨hne, hlabel.head⟩, hlast, hs⟩
  · rintro ⟨⟨hne, hhead⟩, hlast, hs⟩
    refine ⟨String.ofList w, ?_⟩
    rw [(splitReferences_pair_iff hid hname hknown).mpr ⟨⟨hbare, hhead⟩, hlast, hs⟩]
    have hwne : String.ofList w ≠ "" := by simpa using hne
    rw [Reference.token, if_neg hwne, linkTo]

theorem linked_iff (hplain : ∀ t ∈ cs, Tree Plain t) (hne : cs ≠ [])
    (hbare : ∀ t ∈ cs, isTextRun t = true → ∃ w : String, t = text w ∧ Bare w.toList)
    (hid : IsLabel identifier) (hname : trimmed identifier ≠ "")
    (hknown : Text.lower (trimmed identifier) ∈ known) (hmerged : mergeText cs = .ok merged)
    (hmid : below known (labelled s cs identifier s') = .ok mid) :
    (∃ label, mid = splitFrom known [] s ++
        linkTo identifier label merged :: splitFrom known [] s') ↔
      (∃ w, merged = [text (String.ofList w)] ∧ w ≠ [] ∧ w.head? ≠ some '^') ∧
        s.getLast? ≠ some '!' ∧ Settled s := by
  by_cases hall : ∀ t ∈ cs, isTextRun t = true
  · obtain ⟨ss, rfl, hss⟩ := exists_texts fun t ht => hbare t ht (hall t ht)
    have hssne : ss ≠ [] := fun hnil => hne (by rw [hnil]; rfl)
    cases (mergeText_texts hssne).symm.trans hmerged
    rw [linked_texts_iff hid hname hknown rfl hss hmid]
    refine and_congr_left fun _ => ⟨fun h => ⟨_, rfl, h⟩, ?_⟩
    rintro ⟨w, hw, h⟩
    have hsame : String.ofList (ss.flatMap String.toList) = String.ofList w := by
      simpa [text, leaf] using hw
    rwa [String.ofList_injective hsame]
  · push Not at hall
    obtain ⟨t, ht, htext⟩ := hall
    have htext : isTextRun t = false := by simpa using htext
    constructor
    · rintro ⟨label, rfl⟩
      exact absurd (List.mem_append_right _ List.mem_cons_self)
        (not_mem_of_formatted hplain hmerged ht htext hmid label)
    · rintro ⟨⟨w, rfl, -⟩, -⟩
      have hmem := (mem_of_mergeText hmerged htext).mpr ht
      rw [List.mem_singleton.mp hmem] at htext
      cases htext

/-- A label of tokens and a known identifier are a link with the label below it exactly if the label
is nothing but text, begins with no caret, and is taken up neither by an exclamation mark before it
nor by a group that waits there. -/
theorem labelled_linked_iff
    (hs : searched token = .ok (before ++ (labelled s cs identifier s' ++ after)))
    (hplain : ∀ t ∈ before ++ (cs ++ after), Tree Plain t)
    (hbefore : ∀ t ∈ before.getLast?, isTextRun t = false)
    (hafter : ∀ t ∈ after.head?, isTextRun t = false)
    (hne : cs ≠ [])
    (hbare : ∀ t ∈ cs, isTextRun t = true → ∃ w : String, t = text w ∧ Bare w.toList)
    (hid : IsLabel identifier) (hname : trimmed identifier ≠ "")
    (hknown : Text.lower (trimmed identifier) ∈ known) :
    ∃ front mid back merged,
      below known before = .ok front ∧ below known after = .ok back ∧
      mergeText cs = .ok merged ∧
      resolve known token = .ok (withChildren (front ++ (mid ++ back)) token) ∧
      ((∃ label, mid = splitFrom known [] s ++
          linkTo identifier label merged :: splitFrom known [] s') ↔
        (∃ w, merged = [text (String.ofList w)] ∧ w ≠ [] ∧ w.head? ≠ some '^') ∧
          s.getLast? ≠ some '!' ∧ Settled s) := by
  obtain ⟨hplainb, hplainc, hplaina⟩ : (∀ t ∈ before, Tree Plain t) ∧ (∀ t ∈ cs, Tree Plain t) ∧
      ∀ t ∈ after, Tree Plain t := by simpa only [List.forall_mem_append] using hplain
  have hlabelled : ∀ t ∈ labelled s cs identifier s', Tree Plain t := by
    refine List.forall_mem_cons.mpr ⟨tree_text _, List.forall_mem_append.mpr ⟨hplainc, ?_⟩⟩
    exact List.forall_mem_singleton.mpr (tree_text _)
  obtain ⟨front, hfront, -⟩ := below_gives known hplainb
  obtain ⟨mid, hmid, -⟩ := below_gives known hlabelled
  obtain ⟨back, hback, -⟩ := below_gives known hplaina
  obtain ⟨merged, hmerged, -⟩ := mergeText_gives fun t ht => (hplainc t ht).flat
  have hright : below known (labelled s cs identifier s' ++ after) = .ok (mid ++ back) :=
    below_append (parted_of_right hafter) hmid hback
  have hwhole : below known (before ++ (labelled s cs identifier s' ++ after)) =
      .ok (front ++ (mid ++ back)) := below_append (parted_of_left hbefore) hfront hright
  refine ⟨front, mid, back, merged, hfront, hback, hmerged, ?_,
    linked_iff hplainc hne hbare hid hname hknown hmerged hmid⟩
  exact resolve_of_below hs (by simp [labelled]) hwhole

/-- A paragraph with a word in brackets and an identifier behind it. -/
def wordLabel : Value := branch "paragraph" (labelled [] [text "a"] ['b'] [])

theorem labelled_linked_word :
    searched wordLabel = .ok ([] ++ (labelled [] [text "a"] ['b'] [] ++ [])) ∧
      IsLabel ['b'] ∧ Settled [] ∧
      ∃ label, resolve ["b"] wordLabel =
        .ok (branch "paragraph" [linkTo ['b'] label [text "a"]]) := by
  have hs : searched wordLabel = .ok ([] ++ (labelled [] [text "a"] ['b'] [] ++ [])) := rfl
  have hid : IsLabel ['b'] := ⟨by decide, by decide⟩
  have hempty : Settled [] := .plain fun h => by cases h.getLast?
  have hname : trimmed ['b'] = "b" := by rfl
  have hlower : Text.lower "b" = "b" := by rfl
  have hknown : Text.lower (trimmed ['b']) ∈ ["b"] := by
    rw [hname, hlower]
    exact List.mem_singleton.mpr rfl
  have hplain : ∀ t ∈ [] ++ ([text "a"] ++ []), Tree Plain t :=
    List.forall_mem_singleton.mpr (tree_text "a")
  have hbare : ∀ t ∈ [text "a"], isTextRun t = true → ∃ w : String, t = text w ∧ Bare w.toList :=
    List.forall_mem_singleton.mpr fun _ => ⟨"a", rfl, by decide⟩
  obtain ⟨front, mid, back, merged, hfront, hback, hmerged, hres, hiff⟩ :=
    labelled_linked_iff hs hplain nofun nofun (List.cons_ne_nil _ _) hbare hid
      (by rw [hname]; decide) hknown
  cases below_nil.symm.trans hfront
  cases below_nil.symm.trans hback
  cases hmerged
  obtain ⟨label, rfl⟩ := hiff.mpr ⟨⟨['a'], rfl, by decide, by decide⟩, by decide, hempty⟩
  refine ⟨hs, hid, hempty, label, ?_⟩
  rw [hres, splitFrom_nil_eq, pieces_nil]
  rfl

end Typeset.Token

namespace Typeset.Source

open Token

/-- A word set strongly in brackets, with the identifier of a definition behind it. -/
def strongLabel : List Char := "[**a**][b]\n\n[b]: /u".toList

theorem splitReferences_bracketAndWord : splitReferences ["b"] "][b]" =
    [Token.text "]", (Reference.target false .shortcut "b" "b").token] := by
  have hbracket : reference? ["b"] (']' :: "[b]".toList) = none := by rfl
  have hword : reference? ["b"] "[b]".toList =
      some (some (.target false .shortcut "b" "b"), []) := by rfl
  have hsplit : splitFrom ["b"] [] "][b]".toList =
      [Token.text "]", (Reference.target false .shortcut "b" "b").token] := by
    rw [splitFrom_nil_eq]
    change assemble [] (pieces ["b"] (']' :: "[b]".toList)) = _
    rw [pieces_of_none hbracket, pieces_of_some hword, pieces_nil]
    rfl
  rw [splitReferences, hsplit]

theorem below_strongLabel :
    below ["b"] (labelled [] [branch "strong" [Token.text "a"]] ['b'] []) =
      .ok [Token.text "[", branch "strong" [Token.text "a"], Token.text "]",
        (Reference.target false .shortcut "b" "b").token] := by
  have hopening : splitReferences ["b"] "[" = [Token.text "["] := by cbv
  have hword : splitReferences ["b"] "a" = [Token.text "a"] := by cbv
  have hstrong : resolve ["b"] (branch "strong" [Token.text "a"]) =
      .ok (branch "strong" [Token.text "a"]) := by rw [resolve_branch_text ["b"] rfl, hword]
  have heach : List.Forall₂ (Resolved ["b"])
      (labelled [] [branch "strong" [Token.text "a"]] ['b'] [])
      [Token.text "[", branch "strong" [Token.text "a"], Token.text "][b]"] :=
    .cons (resolved_text _ _) (.cons hstrong (.cons (resolved_text _ _) .nil))
  have hparts : [Token.text "[", branch "strong" [Token.text "a"], Token.text "][b]"].mapM
      (splitRun ["b"]) = .ok [splitReferences ["b"] "[", [branch "strong" [Token.text "a"]],
        splitReferences ["b"] "][b]"] := rfl
  rw [hopening, splitReferences_bracketAndWord] at hparts
  exact below_of_parts heach rfl hparts

/-- The word does not become a link: its brackets stay, and the identifier is one by itself. -/
theorem strongLabel_unlinked :
    normalizeAll (Markdown.tokens (liftDefinitions strongLabel).text) =
        .ok [branch "paragraph" (labelled [] [branch "strong" [Token.text "a"]] ['b'] [])] ∧
      Source.tokens strongLabel =
        .ok [branch "paragraph" [Token.text "[", branch "strong" [Token.text "a"], Token.text "]",
            (Reference.target false .shortcut "b" "b").token],
          (LinkDefinition.mk "b" "/u" none).token] := by
  have hfront : splitFrontMatter strongLabel = (none, strongLabel) := by rfl
  have hlifted : liftDefinitions strongLabel =
      ⟨["[**a**][b]".toList, [], []], [⟨"b", "/u", none⟩], []⟩ := by cbv
  have hknown : (liftDefinitions strongLabel).known = ["b"] := by
    rw [hlifted]
    rfl
  have htrees : normalizeAll (Markdown.tokens (liftDefinitions strongLabel).text) =
      .ok [branch "paragraph" (labelled [] [branch "strong" [Token.text "a"]] ['b'] [])] := by
    rw [hlifted]
    cbv
  refine ⟨htrees, ?_⟩
  rw [tokens_of_block hfront (by rw [hlifted]) htrees
    (hknown ▸ resolve_of_below rfl (List.cons_ne_nil _ _) below_strongLabel), hlifted]
  rfl

end Typeset.Source
