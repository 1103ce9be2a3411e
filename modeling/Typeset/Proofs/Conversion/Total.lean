import Typeset.Proofs.Conversion.FrontMatter
import Typeset.Proofs.Conversion.Issues
import Typeset.Proofs.Markdown.Readable
import Typeset.Proofs.Render.Siblings
import Typeset.Conversion.Report

/-! The conversion of a Markdown text comes to an end, unless the loader of its metadata block fails
on what is no fault of the YAML. -/

namespace Typeset

open Failure

namespace Rendering

variable {α β : Type} {P : α → Prop} {Q : β → Prop}

/-- The computation comes to an end, with an answer of this kind. -/
def Ends (P : α → Prop) (r : Rendering α) : Prop := Gives P r.outcome

theorem ends_pure {a : α} (h : P a) : Ends P (pure a : Rendering α) := gives_ok h

theorem ends_lift {x : Except Failure α} (h : Gives P x) : Ends P (liftM x : Rendering α) := h

theorem ends_ofReported {r : Reported α} (h : P r.answer) : Ends P (ofReported r) := gives_ok h

theorem Ends.bind {r : Rendering α} {next : α → Rendering β} (hr : Ends P r)
    (hn : ∀ a, P a → Ends Q (next a)) : Ends Q (r >>= next) := by
  obtain ⟨a, ho, ha⟩ := hr
  rw [bind_of_ok ho]
  exact hn a ha

theorem ends_rescue {r : Rendering α} {handler : Failure → Rendering α} {g : Failure → α}
    (h : ∀ f, (handler f).outcome = .ok (g f)) : Ends (fun _ => True) (r.rescue handler) := by
  obtain ⟨a, ha⟩ := rescue_outcome_ok (r := r) h
  exact ⟨a, ha, trivial⟩

end Rendering

section Source

open Token

theorem flat_linkToken (d : Source.LinkDefinition) : Flat d.token :=
  ⟨_, rfl, plain_of_fits (P := Plain) rfl (List.forall_mem_singleton.mpr (fits_attrs _))⟩

theorem flat_noteToken (note : Source.NoteDefinition) {children : List Value} :
    Flat (note.token children) :=
  ⟨_, rfl, ⟨"footnote_definition", rfl, rfl⟩, by simp⟩

/-- The token of the metadata block of a text, if it has one. -/
def frontTokens (source : List Char) : List Value :=
  ((Source.splitFrontMatter source).1.map fun block =>
    leaf "frontmatter" (String.ofList block)).toList

variable {read : List Char → List Value}

theorem tokensBy_gives (hread : IsReader read) (source : List Char) :
    Gives (fun tokens => ∃ body, tokens = frontTokens source ++ body ∧ ∀ t ∈ body, Flat t)
      (Source.tokensBy read source) := by
  have hblocks (known : List String) (text : List Char) :=
    canonical_gives known (hread text)
  rw [Source.tokensBy, frontTokens]
  obtain ⟨front, rest⟩ := Source.splitFrontMatter source
  refine (hblocks _ _).bind fun body hbody => ?_
  refine (gives_mapM (R := Flat) fun note _ => ?_).bind fun notes hn => ?_
  · exact (hblocks _ _).bind fun children _ => gives_ok (flat_noteToken note)
  · refine gives_ok ⟨_, by rw [List.append_assoc, List.append_assoc], ?_⟩
    refine List.forall_mem_append.mpr ⟨hbody, List.forall_mem_append.mpr ⟨?_, hn⟩⟩
    exact List.forall_mem_map.mpr fun d _ => flat_linkToken d

theorem Token.Flat.type_field {token : Value} (h : Flat token) :
    Gives (fun kind => ∃ name, kind = .str name ∧ isReserved name = false)
      (token.field "type" .null) := by
  obtain ⟨fields, rfl, ⟨name, hname, hfree⟩, -⟩ := h
  rw [Value.field_object, hname]
  exact gives_ok ⟨name, rfl, hfree⟩

theorem Token.Flat.typed {token : Value} (h : Flat token) : Typed token := by
  obtain ⟨fields, rfl, hplain⟩ := h
  obtain ⟨_, hk, name, rfl, -⟩ := hplain.kind_gives
  exact ⟨name, hk⟩

theorem metadataBlock_of_flat {tokens : List Value} (h : ∀ t ∈ tokens, Flat t) :
    metadataBlock tokens = .ok .null := by
  induction tokens with
  | nil => rfl
  | cons token rest ih =>
    obtain ⟨hhere, hmore⟩ := List.forall_mem_cons.mp h
    obtain ⟨_, hk, name, rfl, hfree⟩ := hhere.type_field
    rw [metadataBlock, hk]
    rw [isReserved, Bool.or_eq_false_iff] at hfree
    refine Eq.trans (if_neg ?_) (ih hmore)
    simpa [Value.isText] using hfree.1

theorem metadataBlock_front {block : List Char} (rest : List Value) :
    metadataBlock (leaf "frontmatter" (String.ofList block) :: rest) =
      .ok (.str (String.ofList block)) := rfl

/-- The text of a metadata block as the conversion finds it among its tokens. -/
theorem metadataBlock_tokens {source : List Char} {body : List Value} (h : ∀ t ∈ body, Flat t) :
    metadataBlock (frontTokens source ++ body) =
      .ok (.ofText? ((Source.splitFrontMatter source).1.map String.ofList)) := by
  rw [frontTokens]
  cases (Source.splitFrontMatter source).1 with
  | none => exact metadataBlock_of_flat h
  | some block => exact metadataBlock_front body

end Source

section Merge

open Value

/-- Title and abstract have shapes of their own. -/
structure Metadata.WellTyped (m : Metadata) : Prop where
  title : ∃ s, m.title = .str s
  abstract : IsText? m.abstract

theorem firstPresent_isText? {vs : List Value} (h : ∀ v ∈ vs, IsText? v) :
    IsText? (Metadata.firstPresent vs) := by
  induction vs with
  | nil => exact isText?_null
  | cons v rest ih =>
    obtain ⟨hhere, hmore⟩ := List.forall_mem_cons.mp h
    obtain rfl | ⟨s, rfl⟩ := hhere
    · exact ih hmore
    · exact isText?_str s

theorem firstPresent_pair_isText? {v w : Value} (hv : IsText? v) (hw : IsText? w) :
    IsText? (Metadata.firstPresent [v, w]) :=
  firstPresent_isText? (List.forall_mem_cons.mpr ⟨hv, List.forall_mem_singleton.mpr hw⟩)

theorem authorValues_gives (author : Value) {authors : Value} (h : IsList? authors) :
    Gives (fun _ => True) (Metadata.authorValues author authors) := by
  unfold Metadata.authorValues
  split
  next ht =>
    obtain rfl | ⟨items, rfl⟩ := h
    · cases ht
    · exact ⟨items, rfl, trivial⟩
  next =>
    split
    · exact ⟨_, rfl, trivial⟩
    · exact ⟨_, rfl, trivial⟩
    · exact ⟨_, rfl, trivial⟩

theorem resolveAuthors_gives (author : Value) {authors : Value} (h : IsList? authors) :
    Gives (fun _ => True) (Metadata.resolveAuthors author authors) :=
  (authorValues_gives author h).bind fun _ _ => gives_ok trivial

theorem code_gives (lookup : String → Option String) {v : Value} (h : IsText? v) :
    Gives (fun _ => True) (Metadata.code lookup v) := by
  unfold Metadata.code
  split
  next ht =>
    obtain ⟨s, rfl⟩ := h.exists_of_truthy ht
    exact ⟨_, rfl, trivial⟩
  next => exact gives_ok trivial

theorem isList?_ofList? (items : Option (List Value)) : IsList? (Settings.ofList? items) := by
  cases items with
  | none => exact isList?_null
  | some items => exact isList?_list items

theorem mergeAuthors_gives (settings : Settings) {front : FrontMatter} (hf : front.WellTyped) :
    Gives (fun _ => True) (Metadata.mergeAuthors settings front) := by
  refine (resolveAuthors_gives _ (isList?_ofList? _)).bind fun own _ => ?_
  split
  · exact resolveAuthors_gives _ hf.authors
  · exact gives_ok trivial

theorem merge_gives (settings : Settings) {front : FrontMatter} (hf : front.WellTyped)
    {leadingTitle : Value} (hl : IsText? leadingTitle) (registers : Locale.Registers) :
    Gives Metadata.WellTyped (Metadata.merge settings front leadingTitle registers) := by
  have htitle : IsText?
      (Metadata.firstPresent [.ofText? settings.title, front.title, leadingTitle]) :=
    firstPresent_isText? (by simp [isText?_ofText?, hf.title, hl])
  rw [Metadata.merge]
  refine (mergeAuthors_gives settings hf).bind fun authors _ => ?_
  refine (code_gives _ (firstPresent_pair_isText? (isText?_ofText? _) hf.language)).bind
    fun language _ => ?_
  refine (code_gives _ (firstPresent_pair_isText? (isText?_ofText? _) hf.region)).bind
    fun region _ => ?_
  refine gives_ok ⟨?_, firstPresent_pair_isText? (isText?_ofText? _) hf.abstract⟩
  dsimp only
  rw [Value.orElse]
  split
  next ht => exact htitle.exists_of_truthy ht
  next => exact ⟨"", rfl⟩

end Merge

namespace Render

open Rendering Value

variable {env : Environment} {m : Metadata}

/-- Where the heading that became the title stands, if one did. -/
def IsIndex? (v : Value) : Prop := v = .null ∨ ∃ n : Nat, v = .int n

theorem bodyTokens_gives {P : Value → Prop} (hm : ∃ s, m.title = .str s) {tokens : List Value}
    (h : ∀ t ∈ tokens, P t) {index : Value} (hi : IsIndex? index) :
    Gives (fun body => ∀ t ∈ body, P t) (bodyTokens m (.list tokens) index) := by
  obtain ⟨title, ht⟩ := hm
  obtain rfl | ⟨n, rfl⟩ := hi
  · exact ⟨tokens, rfl, h⟩
  · unfold bodyTokens
    dsimp only
    rw [ht]
    refine Gives.bind (Q := fun s => s = title) (gives_ok rfl) fun _ _ => ?_
    refine Gives.bind (Q := fun all => all = tokens) (gives_ok rfl) ?_
    rintro _ rfl
    split
    · exact gives_ok h
    · refine gives_ok fun t ht => ?_
      obtain ⟨entry, he, rfl⟩ := List.mem_map.mp ht
      exact h _ (List.fst_mem_of_mem_zipIdx (List.mem_filter.mp he).1)

theorem dateAndRule_ends (m : Metadata) : Ends (fun _ => True) (dateAndRule m) := by
  rw [dateAndRule]
  exact ends_rescue (g := fun _ => (none, [])) fun f => rfl

theorem ownDateAndRule_ends (m : Metadata) : Ends (fun _ => True) (ownDateAndRule m) := by
  rw [ownDateAndRule]
  split
  · exact dateAndRule_ends m
  · exact ends_pure trivial

theorem abstractMarkup_gives (h : IsText? m.abstract) :
    Gives (fun _ => True) (abstractMarkup m) := by
  rw [abstractMarkup]
  split
  next ht =>
    obtain ⟨s, hs⟩ := h.exists_of_truthy ht
    rw [hs]
    exact gives_ok trivial
  next => exact gives_ok trivial

theorem bodyText_ends (hm : ∃ s, m.title = .str s) {tokens : List Value}
    (h : ∀ t ∈ tokens, Token.Typed t) {index : Value} (hi : IsIndex? index) :
    Ends (fun _ => True) (bodyText env m (.list tokens) index) := by
  refine (ends_lift (bodyTokens_gives hm h hi)).bind fun body hb => ?_
  have hparts : Ends (fun _ => True) (blocks env [] body 0) := by
    obtain ⟨parts, hp⟩ := blocks_outcome_ok hb
    exact ⟨parts, hp, trivial⟩
  exact hparts.bind fun parts _ => ends_pure trivial

theorem document_ends {tokens : List Value} (hm : m.WellTyped) (h : ∀ t ∈ tokens, Token.Typed t)
    {index : Value} (hi : IsIndex? index) (metRemoteImage : Bool := false) :
    Ends (fun _ => True) (document env m (.list tokens) index metRemoteImage) := by
  refine Ends.bind (bodyText_ends hm.title h hi) fun text _ => ?_
  refine (ownDateAndRule_ends m).bind fun dated _ => ?_
  exact (ends_lift (abstractMarkup_gives hm.abstract)).bind fun abstract _ => ends_pure trivial

end Render

namespace Converter

open Rendering Value

variable {c : Converter} {source : List Char} {tokens body : List Value} {front : Value}
  {dump : String}

theorem frontTokens_typed (h : ∀ t ∈ body, Token.Flat t) :
    ∀ t ∈ frontTokens source ++ body, Token.Typed t := by
  refine List.forall_mem_append.mpr ⟨fun t ht => ?_, fun t ht => (h t ht).typed⟩
  obtain ⟨block, -, rfl⟩ := Option.map_eq_some_iff.mp (Option.mem_toList.mp ht)
  exact ⟨"frontmatter", rfl⟩

theorem dump_of_off (h : c.settings.dumpTokens.truthy = false) (tokens : List Value) :
    c.dump tokens = .ok "" := by
  rw [dump, if_neg (by simp [h])]

/-- What stands before the metadata is decoded only reports. -/
theorem ofTokens_ends {r : Reported FrontMatter} (hdump : c.dump tokens = .ok dump)
    (hfront : metadataBlock tokens = .ok front)
    (hr : FrontMatter.decodeValue front c.loadYaml = .ok r)
    (hw : r.answer.WellTyped) (h : ∀ t ∈ tokens, Token.Typed t) :
    Ends (fun _ => True) (c.ofTokens tokens) := by
  rw [ofTokens, lift_bind_of_ok hdump]
  refine Ends.bind (P := fun _ => True) (ends_ofReported trivial) fun definitions _ => ?_
  refine Ends.bind (P := fun _ => True) (ends_ofReported trivial) fun footnotes _ => ?_
  rw [lift_bind_of_ok hfront, lift_bind_of_ok hr]
  refine (ends_ofReported hw).bind fun front hf => ?_
  refine Ends.bind (P := fun _ => True) (ends_ofReported trivial) fun leading _ => ?_
  have htitle : IsText? (.ofText? (leading.map (·.title))) := isText?_ofText? _
  have hindex : Render.IsIndex? ((leading.map fun t => Value.int t.index).getD .null) := by
    cases leading with
    | none => exact .inl rfl
    | some found => exact .inr ⟨found.index, rfl⟩
  refine (ends_lift (merge_gives c.settings hf htitle c.registers)).bind fun metadata hm => ?_
  exact (Render.document_ends hm h hindex).bind fun text _ => ends_pure trivial

theorem ofTokens_stops {f : Failure} (hdump : c.dump tokens = .ok dump)
    (hfront : metadataBlock tokens = .ok front)
    (hf : FrontMatter.decodeValue front c.loadYaml = .error f) :
    (c.ofTokens tokens).outcome = .error f := by
  rw [ofTokens, lift_bind_of_ok hdump, bind_of_ok rfl, bind_of_ok rfl, lift_bind_of_ok hfront,
    bind_of_error hf]
  rfl

/-- The front matter of a text as it is decoded. -/
def decodeFront (load : Yaml.Loader) (source : List Char) : Except Failure (Reported FrontMatter) :=
  FrontMatter.decodeValue (.ofText? ((Source.splitFrontMatter source).1.map String.ofList)) load

theorem decodeFront_of_split {load : Yaml.Loader} {block : List Char}
    (h : (Source.splitFrontMatter source).1 = some block) :
    decodeFront load source = FrontMatter.decode (String.ofList block) load := by
  rw [decodeFront, h]
  exact FrontMatter.decodeValue_str _ load

theorem decodeFront_of_unsplit {load : Yaml.Loader}
    (h : (Source.splitFrontMatter source).1 = none) : decodeFront load source = .ok ⟨{}, []⟩ := by
  rw [decodeFront, h]
  rfl

section Markdown

variable {read : List Char → List Value} (hread : Token.IsReader read)
  (hc : c.read = Source.tokensBy read) (hdump : c.settings.dumpTokens.truthy = false)

include hread hc in
/-- The tokens of a text, and the front matter that is decoded of them. -/
theorem tokensOf_markdown (source : String) :
    ∃ tokens, c.tokensOf (.markdown source) = .ok tokens ∧ (∀ t ∈ tokens, Token.Typed t) ∧
      metadataBlock tokens =
        .ok (.ofText? ((Source.splitFrontMatter source.toList).1.map String.ofList)) := by
  obtain ⟨tokens, htokens, body, rfl, hflat⟩ := tokensBy_gives hread source.toList
  refine ⟨_, ?_, frontTokens_typed hflat, metadataBlock_tokens hflat⟩
  rw [tokensOf, hc]
  exact htokens

include hread hc hdump

theorem run_markdown_stops {source : String} {f : Failure}
    (hf : decodeFront c.loadYaml source.toList = .error f) :
    (c.run (.markdown source)).outcome = (stopConverting (α := Converted) f).outcome := by
  obtain ⟨tokens, htokens, -, hfront⟩ := tokensOf_markdown hread hc source
  have hstop := ofTokens_stops (dump_of_off hdump tokens) hfront hf
  rw [run, htokens]
  dsimp only
  rw [rescue, hstop]
  rfl

theorem run_markdown_ends {source : String} {r : Reported FrontMatter}
    (hr : decodeFront c.loadYaml source.toList = .ok r) :
    (∃ document, (c.run (.markdown source)).outcome = .ok document) ∧
      blockIssues (c.run (.markdown source)).issues = blockIssues r.issues := by
  obtain ⟨tokens, htokens, htyped, hfront⟩ := tokensOf_markdown hread hc source
  have hdumped := dump_of_off hdump tokens
  obtain ⟨document, hdocument, -⟩ :=
    ofTokens_ends hdumped hfront hr (FrontMatter.decodeValue_wellTyped hr) htyped
  have hissues := ofTokens_blockIssues hdumped hfront hr
  rw [run, htokens]
  dsimp only
  rw [rescue, hdocument]
  exact ⟨⟨document, hdocument⟩, hissues⟩

/-- Whether the conversion of a text ends turns on its metadata block alone. -/
theorem run_markdown_ok_iff (source : String) :
    (∃ document, (c.run (.markdown source)).outcome = .ok document) ↔
      ∀ block, (Source.splitFrontMatter source.toList).1 = some block →
        FrontMatter.Loads c.loadYaml (String.ofList block) := by
  constructor
  · rintro ⟨document, hdocument⟩ block hblock
    refine FrontMatter.decode_ok_iff.mp ?_
    cases hd : FrontMatter.decode (String.ofList block) c.loadYaml with
    | ok r => exact ⟨r, rfl⟩
    | error f =>
      have hstop := run_markdown_stops hread hc hdump ((decodeFront_of_split hblock).trans hd)
      cases hdocument.symm.trans hstop
  · intro h
    cases hblock : (Source.splitFrontMatter source.toList).1 with
    | none => exact (run_markdown_ends hread hc hdump (decodeFront_of_unsplit hblock)).1
    | some block =>
      obtain ⟨r, hr⟩ := FrontMatter.decode_of_loads (h block hblock)
      exact (run_markdown_ends hread hc hdump ((decodeFront_of_split hblock).trans hr)).1

/-- Front matter is decoded, and a text converted, exactly if the loader of YAML raises nothing that
is no fault of the YAML, on the block or on that of the text. A block that cannot be used is then no
more than one warning; anything else that is raised ends the conversion. -/
theorem frontMatter_stops_iff (callback : Option Callback) (raw source : String) :
    let report := c.convert callback (.markdown source) none
    ((∃ r, FrontMatter.decode raw c.loadYaml = .ok r) ↔ FrontMatter.Loads c.loadYaml raw) ∧
    (FrontMatter.Unusable c.loadYaml raw → ∃ warning,
      FrontMatter.decode raw c.loadYaml = .ok ⟨{}, [warning]⟩ ∧ warning.severity = .warning ∧
        warning.code = .invalidFrontmatter) ∧
    ((∃ document, report.outcome = .ok document) ↔
      ∀ block, (Source.splitFrontMatter source.toList).1 = some block →
        FrontMatter.Loads c.loadYaml (String.ofList block)) ∧
    ∀ block, (Source.splitFrontMatter source.toList).1 = some block →
      (FrontMatter.Unusable c.loadYaml (String.ofList block) → ∃ warning,
        blockIssues report.issues = [warning] ∧ warning.severity = .warning) ∧
      ∀ kind words, Text.isBlankText (String.ofList block) = false →
        c.loadYaml (String.ofList block) = .error (.raised kind words) →
          report.outcome = (stopConverting (α := Converted) (.foreign kind words)).outcome := by
  intro report
  refine ⟨FrontMatter.decode_ok_iff, FrontMatter.decode_of_unusable,
    run_markdown_ok_iff hread hc hdump source, fun block hblock => ⟨fun hu => ?_, ?_⟩⟩
  · obtain ⟨warning, hdecode, hseverity, hcode⟩ := FrontMatter.decode_of_unusable hu
    have hissues :=
      (run_markdown_ends hread hc hdump ((decodeFront_of_split hblock).trans hdecode)).2
    refine ⟨warning, hissues.trans ?_, hseverity⟩
    simp [blockIssues, hcode]
  · intro kind words hblank hraised
    exact run_markdown_stops hread hc hdump
      ((decodeFront_of_split hblock).trans (FrontMatter.decode_of_raised hblank hraised))

end Markdown

section Concrete

variable {α : Type} {x : Except Failure α}

theorem eq_badNumber (h : (x matches .error .badNumber) = true) : x = .error .badNumber := by
  cases x with
  | ok a => cases h
  | error f => cases f <;> first | rfl | cases h

theorem eq_yamlSyntax (h : (x matches .error .yamlSyntax) = true) : x = .error .yamlSyntax := by
  cases x with
  | ok a => cases h
  | error f => cases f <;> first | rfl | cases h

theorem load_badNumber :
    Yaml.load "title: 0b_\n" = .error (.raised "ValueError" "<cause>") := by
  have h : Yaml.Block.ofText "title: 0b_\n" = .error .badNumber := eq_badNumber (by decide +kernel)
  rw [Yaml.load, h]
  rfl

theorem load_openList :
    Yaml.load "title: [\n" = .error (.malformed "YAMLError" "<cause>") := by
  have h : Yaml.Block.ofText "title: [\n" = .error .yamlSyntax := eq_yamlSyntax (by decide +kernel)
  rw [Yaml.load, h]
  rfl

theorem split_badNumber :
    (Source.splitFrontMatter "---\ntitle: 0b_\n---\n".toList).1 = some "title: 0b_\n".toList := by
  decide +kernel

theorem not_loads_badNumber : ¬ FrontMatter.Loads Yaml.load "title: 0b_\n" :=
  FrontMatter.not_loads_iff.mpr ⟨by decide +kernel, _, _, load_badNumber⟩

theorem unusable_openList : FrontMatter.Unusable Yaml.load "title: [\n" :=
  ⟨by decide +kernel, .inl ⟨_, _, load_openList⟩⟩

end Concrete

/-- A binary number without a digit stops the reading; a list that is left open is a warning. -/
theorem frontMatter_stops_iff_badNumber :
    (¬ ∃ r, FrontMatter.decode "title: 0b_\n" = .ok r) ∧
    (∃ warning, FrontMatter.decode "title: [\n" = .ok ⟨{}, [warning]⟩ ∧
      warning.severity = .warning ∧ warning.code = .invalidFrontmatter) ∧
    (convert {} none (.markdown "---\ntitle: 0b_\n---\n") none).outcome =
      (stopConverting (α := Converted) (.foreign "ValueError" "<cause>")).outcome := by
  obtain ⟨hdecode, -, -, hrun⟩ := frontMatter_stops_iff (c := {}) Markdown.tokens_isReader rfl rfl
    none "title: 0b_\n" "---\ntitle: 0b_\n---\n"
  obtain ⟨-, hwarn, -⟩ := frontMatter_stops_iff (c := {}) Markdown.tokens_isReader rfl rfl
    none "title: [\n" ""
  refine ⟨fun h => not_loads_badNumber (hdecode.mp h), hwarn unusable_openList, ?_⟩
  refine (hrun _ split_badNumber).2 "ValueError" "<cause>" (by decide +kernel) ?_
  dsimp only
  rw [String.ofList_toList, load_badNumber]

/-- So front matter does abort conversions. -/
theorem badNumber_aborts :
    ¬ (∀ raw, ∃ r, FrontMatter.decode raw = .ok r) ∧
      ¬ ∀ source, ∃ document, (run {} (.markdown source)).outcome = .ok document := by
  constructor
  · intro h
    exact not_loads_badNumber (FrontMatter.decode_ok_iff.mp (h "title: 0b_\n"))
  · intro h
    have hall := (run_markdown_ok_iff (c := {}) Markdown.tokens_isReader rfl rfl _).mp
      (h "---\ntitle: 0b_\n---\n")
    have hloads := hall _ split_badNumber
    rw [String.ofList_toList] at hloads
    exact not_loads_badNumber hloads

end Converter

end Typeset
