import Mathlib
import Typeset.Proofs.Conversion.Total
import Typeset.Proofs.Render.Reference
import Typeset.Proofs.Source.Parts
import Typeset.Proofs.Token.Shortcut

/-! Shortcut references in a whole document: what they name was taken out of it as a definition, so
that they always lead somewhere, and a word in brackets that was not defined stays text. -/

namespace Typeset.Source

open Token Failure

variable {read : List Char → List Value} {source : List Char} {tokens : List Value}
  {lifted : Lifted} {t : Value}

section Definitions

/-- What the token of a definition says. -/
def LinkDefinition.entry (d : LinkDefinition) : Entry :=
  ⟨d.label, .str d.url, .ofText? d.title, .str d.label⟩

theorem entryOf_token (d : LinkDefinition) : entryOf d.token = .ok (some d.entry) := rfl

theorem entriesOf_links (links : List LinkDefinition) (rest : List Value) :
    entriesOf (links.map LinkDefinition.token ++ rest) =
      (links.map LinkDefinition.entry ++ (entriesOf rest).1, (entriesOf rest).2) := by
  induction links with
  | nil => rfl
  | cons d links ih => rw [List.map_cons, List.cons_append, entriesOf, entryOf_token, ih]; rfl

/-- Tokens none of which is a definition, whatever stands below them. -/
def DefinesNothing (tokens : List Value) : Prop :=
  ∀ t ∈ tokens, Token.kind t ≠ .ok (.str "definition")

/-- No token of the text itself defines anything. -/
theorem entryOf_canonical {known : List String} {texts body : List Value}
    (hread : DefinesNothing texts) (h : canonical known texts = .ok body) :
    ∀ t ∈ body, entryOf t = .ok none := by
  obtain ⟨trees, htrees, hres⟩ := exists_of_canonical h
  intro out hout
  obtain ⟨tree, htree, hout⟩ := exists_of_mem_right hres hout
  obtain ⟨fields, rfl, hheaded⟩ := normalizeAll_named htrees tree htree
  have hfield := field_resolve "type" (by decide) .null hout
  rw [Value.field_object] at hfield
  refine entryOf_of_field hfield ?_
  obtain ⟨name, hname, hfree⟩ | ⟨kind, hkind, ⟨t, ht, hk⟩, -⟩ := hheaded.kind
  · rw [hname]
    rintro hdefinition
    cases hdefinition
    simp [isForeign, isReserved] at hfree
  · rw [hkind]
    rintro rfl
    exact hread t ht hk

/-- A document defines what was taken out of it, and nothing else. -/
theorem Assembled.entries (h : Assembled read source tokens)
    (hread : DefinesNothing (read (liftedFrom source).text)) :
    entriesIn (.list tokens) = ((liftedFrom source).links.map LinkDefinition.entry, none) := by
  cases h with
  | @intro front body notes hfront hbody hnotes =>
    have hfront' : ∀ t ∈ front, entryOf t = .ok none := by
      intro t ht
      obtain ⟨raw, rfl⟩ := hfront t ht
      exact entryOf_of_field rfl (by simp)
    have hnotes' : ∀ t ∈ notes, entryOf t = .ok none := by
      intro t ht
      obtain ⟨note, -, children, rfl, -⟩ := exists_of_mem_right hnotes ht
      exact entryOf_of_field rfl (by simp)
    have hend : entriesOf notes = ([], none) := by
      simpa [entriesOf] using entriesOf_append_of_none hnotes' []
    rw [entriesIn]
    change entriesOf _ = _
    rw [entriesOf_append_of_none hfront',
      entriesOf_append_of_none (entryOf_canonical hread hbody), entriesOf_links, hend,
      List.append_nil]

/-- The definitions that a document is rendered with are those by which its text may refer to
them. -/
theorem Assembled.find_isSome_iff (h : Assembled read source tokens)
    (hread : DefinesNothing (read (liftedFrom source).text)) (key : String) :
    ((definitions (.list tokens)).answer.find key).isSome = true ↔
      key ∈ (liftedFrom source).known := by
  obtain ⟨hholds, -⟩ := definitions_of_entries (.list tokens)
  have hkeys : ((liftedFrom source).links.map LinkDefinition.entry).map Entry.key =
      (liftedFrom source).known := by
    rw [List.map_map]
    rfl
  rw [hholds key, h.entries hread, Option.isSome_map, Option.isSome_iff_ne_none, ne_eq,
    lastOf_eq_none_iff, not_not, hkeys]

end Definitions

section Rendered

open Render

variable {env : Environment} {active : List String}

/-- A shortcut that is defined is rendered without a word. -/
theorem issues_of_knownShortcut {image : Bool} {label identifier : String} {d : Definition}
    (hd : env.definitions.find (Text.lower identifier) = some d) :
    (inline env active (Reference.target image .shortcut label identifier).token).issues = [] := by
  cases image with
  | true =>
    have hid : identifierOf (Reference.target true .shortcut label identifier).token =
        .ok identifier := rfl
    rw [inline_imageReference_of_some rfl hid hd]
    exact issues_imageAt d.url
  | false =>
    have hid : identifierOf (Reference.target false .shortcut label identifier).token =
        .ok identifier := rfl
    rw [inline_linkReference_of_some rfl hid rfl hd]
    exact (issues_linkTo d.url _).trans (issues_shownLabel label)

end Rendered

/-- No reader of Markdown makes a definition of a text by itself. -/
theorem definesNothing_of_isReader {read : List Char → List Value} (hread : IsReader read)
    (text : List Char) : DefinesNothing (read text) := by
  intro t ht hkind
  cases hread text t ht with
  | @object fields here list below =>
    obtain ⟨name, hname, -⟩ := here.kind
    rw [Token.kind, Value.field_object, hname] at hkind
    cases hkind
    have hforeign := here.own "definition" hname
    simp [isForeign] at hforeign

/-- A shortcut, if it is one, has the identifier of a definition that was taken out. -/
def NamesDefinition (lifted : Lifted) (token : Value) : Prop :=
  IsShortcut token → KnownShortcut lifted.known token

theorem namesDefinition_of_name (name : String) (hk : Token.kind t = .ok (.str name))
    (hlink : name ≠ "link_reference") (himage : name ≠ "image_reference") :
    NamesDefinition lifted t :=
  fun h => absurd (h.name name hk) (not_or.mpr ⟨hlink, himage⟩)

/-- Wherever a shortcut stands in a document, its identifier is that of a definition. -/
theorem Assembled.everywhere (h : Assembled read source tokens) :
    ∀ t ∈ tokens, t.Everywhere (NamesDefinition (liftedFrom source)) := by
  cases h with
  | @intro front body notes hfront hbody hnotes =>
    refine List.forall_mem_append.mpr ⟨fun t ht => ?_, List.forall_mem_append.mpr
      ⟨canonical_everywhere hbody, List.forall_mem_append.mpr ⟨fun t ht => ?_, fun t ht => ?_⟩⟩⟩
    · obtain ⟨raw, rfl⟩ := hfront t ht
      exact Value.everywhere_leaf
        (namesDefinition_of_name "frontmatter" rfl (by decide) (by decide))
    · obtain ⟨d, -, rfl⟩ := List.mem_map.mp ht
      exact Value.everywhere_marked
        (namesDefinition_of_name "definition" rfl (by decide) (by decide))
    · obtain ⟨note, -, children, rfl, hchildren⟩ := exists_of_mem_right hnotes ht
      exact Value.everywhere_markedBranch
        (namesDefinition_of_name "footnote_definition" rfl (by decide) (by decide))
        (canonical_everywhere hchildren)

/-- Every run of the text of a document stands in its tokens as its text and references. -/
theorem Assembled.exists_within (h : Assembled read source tokens) {text : List Char}
    (htext : text ∈ (liftedFrom source).texts) {trees : List Value} {tree : Value} {run : String}
    (htrees : normalizeAll (read text) = .ok trees) (htree : tree ∈ trees) (hrun : Run tree run)
    (ht : t ∈ splitReferences (liftedFrom source).known run) : ∃ out ∈ tokens, out.Within t := by
  cases h with
  | @intro front body notes hfront hbody hnotes =>
    obtain rfl | htext := List.mem_cons.mp htext
    · obtain ⟨out, hout, hwithin⟩ := exists_within_of_canonical hbody htrees htree hrun ht
      exact ⟨out, by simp [hout], hwithin⟩
    · obtain ⟨note, hnote, rfl⟩ := List.mem_map.mp htext
      obtain ⟨_, hmem, children, rfl, hchildren⟩ := exists_of_mem_left hnotes hnote
      obtain ⟨out, hout, hwithin⟩ := exists_within_of_canonical hchildren htrees htree hrun ht
      refine ⟨note.token children, by simp [hmem], .head ?_ hwithin⟩
      exact ⟨_, children, rfl, rfl, hout⟩

/-- A reference leads to one of the definitions, and is rendered with them without a word. -/
def Leads (found : Targets Definition) (token : Value) : Prop :=
  ∃ identifier d, Render.identifierOf token = .ok identifier ∧
    found.find (Text.lower identifier) = some d ∧
    ∀ env active, env.definitions = found → (Render.inline env active token).issues = []

/-- Shortcut references always resolve: whatever trees the reader of Markdown makes of a document,
each shortcut in its tokens leads to a definition among them, and is rendered without a word; and a
word in brackets without a definition is part of a text. -/
theorem shortcuts_resolve (source : List Char) :
    (∀ read, IsReader read →
      (∃ tokens, tokensBy read source = .ok tokens) ∧ ∀ text, DefinesNothing (read text)) ∧
      ∀ read, DefinesNothing (read (liftedFrom source).text) →
      ∀ tokens, tokensBy read source = .ok tokens →
        (∀ t ∈ tokens, t.Everywhere fun t =>
          IsShortcut t → Leads (definitions (.list tokens)).answer t) ∧
        ∀ text ∈ (liftedFrom source).texts, ∀ trees, normalizeAll (read text) = .ok trees →
          ∀ tree ∈ trees, ∀ run, Run tree run → ∀ before word after,
            run.toList = before ++ (group word ++ after) → StandsAlone before word after →
            (definitions (.list tokens)).answer.find (Text.lower (trimmed word)) = none →
              ∃ out ∈ tokens, ∃ u v,
                out.Within (Token.text (String.ofList (u ++ group word ++ v))) := by
  refine ⟨fun read hread => ⟨?_, definesNothing_of_isReader hread⟩,
    fun read hread tokens htokens => ?_⟩
  · obtain ⟨tokens, htokens, -⟩ := tokensBy_gives hread source
    exact ⟨tokens, htokens⟩
  have hparts := assembled_of_tokensBy htokens
  have hdefined := hparts.find_isSome_iff hread
  constructor
  · intro t ht u hu hshortcut
    obtain ⟨image, label, identifier, rfl, hknown⟩ := hparts.everywhere t ht u hu hshortcut
    obtain ⟨d, hd⟩ := Option.isSome_iff_exists.mp ((hdefined _).mpr hknown)
    refine ⟨identifier, d, by cases image <;> rfl, hd, fun env active henv => ?_⟩
    exact issues_of_knownShortcut (henv ▸ hd)
  · intro text htext trees htrees tree htree run hrun before word after hword halone hnone
    have hunknown : Text.lower (trimmed word) ∉ (liftedFrom source).known := by
      intro hknown
      have hsome := (hdefined _).mpr hknown
      rw [hnone] at hsome
      cases hsome
    obtain ⟨u, v, hmem⟩ := exists_text_of_word halone hunknown
    rw [← hword, String.ofList_toList] at hmem
    obtain ⟨out, hout, hwithin⟩ := hparts.exists_within htext htrees htree hrun hmem
    exact ⟨out, hout, u, v, hwithin⟩

/-- A document with a word that is defined and a word that is not. -/
def twoWords : List Char := "[a] and [b]\n\n[A]: x".toList

/-- Its tokens. -/
def twoWordsTokens : List Value :=
  [branch "paragraph" [(Reference.target false .shortcut "a" "a").token, Token.text " and [b]"],
    (LinkDefinition.mk "A" "x" none).token]

theorem splitReferences_twoWords : splitReferences ["a"] "[a] and [b]" =
    [(Reference.target false .shortcut "a" "a").token, Token.text " and [b]"] := by
  have hlower : Text.lower (trimmed ['b']) ∉ ["a"] := by
    have htrimmed : trimmed ['b'] = "b" := by rfl
    have hsame : Text.lower "b" = "b" := by rfl
    rw [htrimmed, hsame]
    decide
  have hlabel : IsLabel ['b'] := ⟨by decide, by decide⟩
  have hend : unmarked? [] = none := rfl
  have hopening : '[' ∉ " and ".toList := by decide
  obtain ⟨ms, hms, -, hmpieces⟩ := pieces_inert ["a"] (group ['b'] ++ []) hopening (by decide)
  obtain ⟨ns, hns, -, hnpieces⟩ := pieces_word hlabel hend hlower
  have hfirst : reference? ["a"] "[a] and [b]".toList =
      some (some (.target false .shortcut "a" "a"), " and [b]".toList) := by rfl
  refine splitReferences_of_reference hfirst (by decide) ?_
  change targets (pieces ["a"] (" and ".toList ++ (group ['b'] ++ []))) = []
  rw [hmpieces, hnpieces, pieces_nil, targets_append, targets_append, hms, hns]
  rfl

theorem normalizeAll_twoWords : normalizeAll (Markdown.tokens "[a] and [b]\n\n".toList) =
    .ok [branch "paragraph" [Token.text "[a] and [b]"]] := by cbv

theorem tokens_twoWords : Source.tokens twoWords = .ok twoWordsTokens := by
  have hfront : splitFrontMatter twoWords = (none, twoWords) := by rfl
  have hlifted : liftDefinitions twoWords =
      ⟨["[a] and [b]".toList, [], []], [⟨"A", "x", none⟩], []⟩ := by cbv
  have hknown : (liftDefinitions twoWords).known = ["a"] := by
    rw [hlifted]
    rfl
  have htrees : normalizeAll (Markdown.tokens (liftDefinitions twoWords).text) =
      .ok [branch "paragraph" [Token.text "[a] and [b]"]] := by
    rw [hlifted]
    exact normalizeAll_twoWords
  rw [tokens_of_paragraph hfront (by rw [hlifted]) htrees, hknown, splitReferences_twoWords,
    hlifted]
  rfl

theorem shortcuts_resolve_twoWords :
    DefinesNothing (Markdown.tokens (liftedFrom twoWords).text) ∧
      Source.tokens twoWords = .ok twoWordsTokens ∧
      Leads (definitions (.list twoWordsTokens)).answer
        (Reference.target false .shortcut "a" "a").token ∧
      StandsAlone "[a] and ".toList ['b'] [] ∧
      ∃ out ∈ twoWordsTokens, ∃ u v,
        out.Within (Token.text (String.ofList (u ++ group ['b'] ++ v))) := by
  have htext : (liftedFrom twoWords).text = "[a] and [b]\n\n".toList := by cbv
  have halone : StandsAlone "[a] and ".toList ['b'] [] := by
    refine ⟨⟨by decide, by decide⟩, fun h => ?_, rfl⟩
    cases h.getLast?
  have hrun : Run (branch "paragraph" [Token.text "[a] and [b]"]) "[a] and [b]" :=
    .own rfl ⟨_, _, rfl, List.mem_cons_self, rfl, rfl⟩
  have hnone : (definitions (.list twoWordsTokens)).answer.find (Text.lower (trimmed ['b'])) =
      none := by
    have htrimmed : trimmed ['b'] = "b" := by rfl
    have hsame : Text.lower "b" = "b" := by rfl
    have hfound : (definitions (.list twoWordsTokens)).answer =
        [("a", ⟨.str "A", .str "x", .null, .str "A"⟩)] := by rfl
    rw [htrimmed, hsame, hfound]
    rfl
  obtain ⟨hreader, hread⟩ := shortcuts_resolve twoWords
  have hmarkdown := (hreader Markdown.tokens Markdown.tokens_isReader).2
  obtain ⟨hleads, hwords⟩ := hread Markdown.tokens (hmarkdown _) twoWordsTokens tokens_twoWords
  refine ⟨hmarkdown _, tokens_twoWords, ?_, halone, ?_⟩
  · refine hleads _ List.mem_cons_self _ (.single ?_) ⟨.inl rfl, rfl⟩
    exact ⟨_, _, rfl, rfl, List.mem_cons_self⟩
  · have htrees : normalizeAll (Markdown.tokens (liftedFrom twoWords).text) =
        .ok [branch "paragraph" [Token.text "[a] and [b]"]] := by
      rw [htext]
      exact normalizeAll_twoWords
    exact hwords _ List.mem_cons_self _ htrees _ List.mem_cons_self _ hrun _ ['b'] [] rfl halone
      hnone

end Typeset.Source
