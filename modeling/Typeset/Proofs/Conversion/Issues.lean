import Typeset.Proofs.Footnote.Guarded
import Typeset.Conversion.Basic

/-! What the stages of a conversion report around its renderers, and that no stage reports that the
conversion cannot go on. -/

namespace Typeset

/-- The issue is none that a conversion ends with. -/
def Issue.Ordinary (issue : Issue) : Prop := issue.code ≠ .fatal

/-- The codes that the stages of a conversion report under, apart from the renderers and from the
reading of a metadata block as a whole. -/
def IssueCode.isOuter : IssueCode → Bool
  | .duplicateDefinition | .duplicateFootnote | .collectionFailed | .titleExtractionFailed
  | .invalidMetadataField | .invalidDate | .metadataRenderError => true
  | _ => false

/-- An issue that is reported before the renderers begin, or after them, and not of a metadata
block as a whole. -/
def Issue.Outer (issue : Issue) : Prop := issue.code.isOuter = true

/-- An issue that is reported before the renderers begin, or after them. -/
def Issue.Peripheral (issue : Issue) : Prop :=
  issue.Outer ∨ issue.code = .invalidFrontmatter

theorem Issue.Outer.code_ne {issue : Issue} (h : issue.Outer) :
    issue.code ≠ .invalidFrontmatter := by
  intro hcode
  rw [Outer, hcode] at h
  cases h

theorem Issue.Peripheral.ordinary {issue : Issue} (h : issue.Peripheral) : issue.Ordinary := by
  intro hcode
  rw [Peripheral, Outer, hcode] at h
  obtain h | h := h <;> cases h

/-- All issues of an answer are outer ones. -/
def Reported.Outer {α : Type} (r : Reported α) : Prop := ∀ issue ∈ r.issues, issue.Outer

/-- All issues of an answer are peripheral. -/
def Reported.Peripheral {α : Type} (r : Reported α) : Prop :=
  ∀ issue ∈ r.issues, issue.Peripheral

theorem Rendering.reports_ofReported {α : Type} {R : Issue → Prop} {r : Reported α}
    (h : ∀ issue ∈ r.issues, R issue) : Reports R (ofReported r) := h

namespace Token

variable {α : Type}

theorem searchFrom_outer {step : Value → α → Except Failure (α × List Issue)}
    (h : ∀ token found found' issues, step token found = .ok (found', issues) →
      ∀ issue ∈ issues, issue.Outer) (found : α) (tokens : List Value) :
    ∀ issue ∈ (searchFrom step found tokens).issues, issue.Outer := by
  induction tokens generalizing found with
  | nil => exact List.forall_mem_nil _
  | cons token rest ih =>
    rw [searchFrom]
    cases hs : step token found with
    | error f => exact List.forall_mem_nil _
    | ok next =>
      obtain ⟨found', issues⟩ := next
      exact List.forall_mem_append.mpr ⟨h token found found' issues hs, ih found'⟩

theorem Search.report_outer {s : Search α} (h : ∀ issue ∈ s.issues, issue.Outer)
    {code : IssueCode} (hc : code.isOuter = true) (severity : Severity) (stage : Stage)
    (doing : String) : (s.report severity code stage doing).Outer := by
  unfold Search.report
  split
  · exact h
  · exact List.forall_mem_append.mpr ⟨h, List.forall_mem_singleton.mpr hc⟩

theorem addDefinition_outer {token : Value} {found found' : Targets Definition}
    {issues : List Issue} (h : addDefinition token found = .ok (found', issues)) :
    ∀ issue ∈ issues, issue.Outer := by
  obtain ⟨kind, -, h⟩ := Failure.exists_of_bind h
  split at h
  · obtain ⟨attrs, -, h⟩ := Failure.exists_of_bind h
    obtain ⟨value, -, h⟩ := Failure.exists_of_bind h
    obtain ⟨identifier, -, h⟩ := Failure.exists_of_bind h
    obtain ⟨url, -, h⟩ := Failure.exists_of_bind h
    obtain ⟨title, -, h⟩ := Failure.exists_of_bind h
    obtain ⟨label, -, h⟩ := Failure.exists_of_bind h
    cases h
    cases found.find (Text.lower identifier) with
    | some earlier => exact List.forall_mem_singleton.mpr rfl
    | none => exact List.forall_mem_nil _
  · cases h
    exact List.forall_mem_nil _

theorem definitions_outer (tokens : Value) : (definitions tokens).Outer := by
  refine Search.report_outer ?_ rfl _ _ _
  unfold search
  split
  next items _ =>
    exact searchFrom_outer (fun _ _ _ _ hs => addDefinition_outer hs) [] items
  next => exact List.forall_mem_nil _

theorem footnoteEntry_outer {token : Value} {found : Targets Footnote}
    {entry : FootnoteEntry} (h : footnoteEntry token found = .ok (some entry)) :
    ∀ issue ∈ entry.issues, issue.Outer := by
  obtain ⟨kind, -, h⟩ := Failure.exists_of_bind h
  split at h
  · obtain ⟨attrs, -, h⟩ := Failure.exists_of_bind h
    obtain ⟨value, -, h⟩ := Failure.exists_of_bind h
    obtain ⟨identifier, -, h⟩ := Failure.exists_of_bind h
    cases h
    dsimp only
    cases found.find (Text.lower identifier) with
    | some earlier => exact List.forall_mem_singleton.mpr rfl
    | none => exact List.forall_mem_nil _
  · cases h

theorem footnotesFrom_outer (found : Targets Footnote) (tokens : List Value) :
    ∀ issue ∈ (footnotesFrom found tokens).issues, issue.Outer := by
  induction tokens generalizing found with
  | nil => exact List.forall_mem_nil _
  | cons token rest ih =>
    rw [footnotesFrom]
    cases he : footnoteEntry token found with
    | error f => exact List.forall_mem_nil _
    | ok answer =>
      cases answer with
      | none => exact ih found
      | some entry =>
        have hentry := footnoteEntry_outer he
        dsimp only
        split
        · exact hentry
        · exact List.forall_mem_append.mpr ⟨hentry, ih _⟩

theorem footnotes_outer (tokens : Value) : (footnotes tokens).Outer := by
  refine Search.report_outer ?_ rfl _ _ _
  split
  next items _ => exact footnotesFrom_outer [] items
  next => exact List.forall_mem_nil _

theorem leadingTitle_outer (definitions : Targets Definition) (tokens : Value) :
    (leadingTitle definitions tokens).Outer := by
  unfold leadingTitle
  split
  · exact List.forall_mem_nil _
  · exact List.forall_mem_singleton.mpr rfl

end Token

namespace FrontMatter

theorem outer_none (v : Value) : (⟨v, []⟩ : Reported Value).Outer := List.forall_mem_nil _

theorem outer_invalidField (v : Value) (key expected kind : String) :
    (⟨v, [invalidField key expected kind]⟩ : Reported Value).Outer :=
  List.forall_mem_singleton.mpr rfl

theorem textField_outer (key : String) (v : Option Yaml.Reading) :
    (textField key v).Outer := by
  unfold textField
  split
  · exact outer_none _
  · exact outer_none _
  · exact outer_none _
  · exact outer_invalidField _ _ _ _

theorem textItems_outer (key : String) (items : List (Option String)) :
    (textItems key items).Outer := by
  unfold textItems
  split
  · exact outer_none _
  · exact outer_invalidField _ _ _ _

theorem textListField_outer (key : String) (v : Option Yaml.Reading) :
    (textListField key v).Outer := by
  unfold textListField
  split
  · exact outer_none _
  · exact outer_none _
  · exact textItems_outer _ _
  · exact outer_invalidField _ _ _ _

theorem authorField_outer (v : Option Yaml.Reading) : (authorField v).Outer := by
  unfold authorField
  split
  · exact outer_none _
  · exact outer_none _
  · exact outer_none _
  · exact textItems_outer _ _
  · exact outer_invalidField _ _ _ _

theorem dateField_outer (v : Option Yaml.Reading) : (dateField v).Outer := by
  unfold dateField
  split
  · exact outer_none _
  · exact outer_none _
  · split
    · exact outer_none _
    · exact outer_none _
  · exact outer_invalidField _ _ _ _

theorem languageField_outer (short long : Option Yaml.Reading) :
    (languageField short long).Outer := by
  have hshort := textField_outer "lang" short
  unfold languageField
  dsimp only
  split
  · exact List.forall_mem_append.mpr ⟨hshort, textField_outer "language" long⟩
  · exact hshort

theorem ofEntries_outer (entries : List (String × Yaml.Reading)) :
    (ofEntries entries).Outer := by
  have happend {xs ys : List Issue} (hx : ∀ i ∈ xs, i.Outer) (hy : ∀ i ∈ ys, i.Outer) :
      ∀ i ∈ xs ++ ys, i.Outer := List.forall_mem_append.mpr ⟨hx, hy⟩
  unfold ofEntries
  refine happend (happend (happend (happend (happend (happend (happend (happend ?_ ?_) ?_) ?_) ?_)
    ?_) ?_) ?_) ?_
  · exact languageField_outer _ _
  · exact textField_outer _ _
  · exact authorField_outer _
  · exact textListField_outer _ _
  · exact textField_outer _ _
  · exact textListField_outer _ _
  · exact dateField_outer _
  · exact textField_outer _ _
  · exact textField_outer _ _

theorem decode_peripheral {load : Yaml.Loader} {raw : String} {r : Reported FrontMatter}
    (h : decode raw load = .ok r) : r.Peripheral := by
  unfold decode at h
  split at h
  · cases h
    exact List.forall_mem_nil _
  · split at h <;> cases h
    · exact List.forall_mem_nil _
    · exact List.forall_mem_singleton.mpr (.inr rfl)
    · exact fun issue hi => .inl (ofEntries_outer _ issue hi)
    · exact List.forall_mem_singleton.mpr (.inr rfl)

theorem decodeValue_peripheral {load : Yaml.Loader} {v : Value} {r : Reported FrontMatter}
    (h : decodeValue v load = .ok r) : r.Peripheral := by
  unfold decodeValue at h
  split at h
  · split at h
    · exact decode_peripheral h
    · cases h
  · cases h
    exact List.forall_mem_nil _

end FrontMatter

theorem Date.parse_outer (value : String) : (Date.parse value).Outer := by
  unfold Date.parse
  dsimp only
  split
  · exact List.forall_mem_nil _
  · split
    · split
      · exact List.forall_mem_nil _
      · exact List.forall_mem_singleton.mpr rfl
    · exact List.forall_mem_singleton.mpr rfl

namespace Render

open Rendering

variable {env : Environment} {R : Issue → Prop} {tokens body : List Value} {index t : Value}
  (m : Metadata)

theorem mem_of_bodyTokens (h : bodyTokens m (.list tokens) index = .ok body) (ht : t ∈ body) :
    t ∈ tokens := by
  unfold bodyTokens at h
  split at h
  · cases h
    exact ht
  · obtain ⟨title, -, h⟩ := Failure.exists_of_bind h
    obtain ⟨all, hall, h⟩ := Failure.exists_of_bind h
    cases hall
    split at h
    · cases h
      exact ht
    · cases h
      obtain ⟨⟨u, i⟩, hu, rfl⟩ := List.mem_map.mp ht
      exact (List.mem_zipIdx' (List.mem_of_mem_filter hu)).2 ▸ List.getElem_mem _

theorem documentDate_outer : Reports Issue.Outer (documentDate m) := by
  unfold documentDate
  split
  · refine (reports_lift _).bind fun value _ => ?_
    refine Reports.bind (reports_ofReported (Date.parse_outer value)) fun date _ => ?_
    exact reports_pure _
  · exact reports_pure _

theorem reports_brokenMetadata {α : Type} (cause : Failure) (a : α) :
    Reports Issue.Outer (do report (brokenMetadata cause); pure a : Rendering α) :=
  (reports_report (show (brokenMetadata cause).Outer from rfl)).bind fun _ _ => reports_pure _

theorem dateAndRule_outer : Reports Issue.Outer (dateAndRule m) := by
  refine Reports.rescue ?_ fun cause => reports_brokenMetadata cause _
  refine (documentDate_outer m).bind fun date _ => ?_
  refine Reports.rescue ?_ fun cause => reports_brokenMetadata cause _
  exact (reports_lift _).bind fun rule _ => reports_pure _

theorem ownDateAndRule_outer : Reports Issue.Outer (ownDateAndRule m) := by
  unfold ownDateAndRule
  split
  · exact dateAndRule_outer m
  · exact reports_pure _

theorem document_reports (hr : ∀ issue : Issue, issue.Outer → R issue)
    (hblocks : ∀ body, (∀ t ∈ body, t ∈ tokens) → Reports R (blocks env [] body 0)) :
    Reports R (document env m (.list tokens) index) := by
  have hbody : Reports R (bodyText env m (.list tokens) index) := by
    refine (reports_lift _).bind fun body hb => ?_
    refine (hblocks body fun t ht => mem_of_bodyTokens m hb ht).bind fun parts _ => ?_
    exact reports_pure _
  refine Reports.bind hbody fun text _ => ?_
  refine Reports.bind (fun issue hi => hr issue (ownDateAndRule_outer m issue hi))
    fun dated _ => ?_
  exact (reports_lift _).bind fun abstract _ => reports_pure _

/-- The renderers report under no code but their own. -/
theorem guarded_of_foreign_code (env : Environment) {code : IssueCode}
    (hcode : code ∉ Footnote.codes) (hcycle : code ≠ .footnoteCycle) :
    Footnote.Guarded env (fun issue => issue.code ≠ code) fun _ _ => True where
  child _ _ := trivial
  enter _ _ _ _ _ := trivial
  cycle _ _ _ := hcycle.symm
  issue hm hc := hcode (hc ▸ hm)

theorem blocks_code_ne (env : Environment) (code : IssueCode) (hcode : code ∉ Footnote.codes)
    (hcycle : code ≠ .footnoteCycle) (body : List Value) :
    Reports (fun issue => issue.code ≠ code) (blocks env [] body 0) :=
  (guarded_of_foreign_code env hcode hcycle).guarding_inductive.holds.blocks [] body 0
    fun _ _ => trivial

end Render

namespace Converter

open Rendering

variable {R : Issue → Prop} {c : Converter} {tokens : List Value}

theorem leadingTitle_outer (c : Converter) (definitions : Targets Definition)
    (tokens : Value) : (c.leadingTitle definitions tokens).Outer := by
  unfold leadingTitle
  split
  · exact Token.leadingTitle_outer definitions tokens
  · exact List.forall_mem_nil _

/-- What the renderers report of the blocks of a document, and what is reported around them, is all
that its conversion reports. -/
theorem ofTokens_reports (hr : ∀ issue : Issue, issue.Peripheral → R issue)
    (hblocks : ∀ env body, (∀ t ∈ body, t ∈ tokens) → Reports R (Render.blocks env [] body 0)) :
    Reports R (c.ofTokens tokens) := by
  have houter {issues : List Issue} (h : ∀ issue ∈ issues, issue.Outer) :
      ∀ issue ∈ issues, R issue := fun issue hi => hr issue (.inl (h issue hi))
  unfold ofTokens
  refine (reports_lift _).bind fun dump _ => ?_
  refine Reports.bind (reports_ofReported (houter (Token.definitions_outer _)))
    fun definitions _ => ?_
  refine Reports.bind (reports_ofReported (houter (Token.footnotes_outer _)))
    fun footnotes _ => ?_
  refine (reports_lift _).bind fun block _ => ?_
  refine (reports_lift _).bind fun front hfront => ?_
  refine Reports.bind (reports_ofReported fun issue hi =>
    hr issue (FrontMatter.decodeValue_peripheral hfront issue hi)) fun front _ => ?_
  refine Reports.bind (reports_ofReported (houter (c.leadingTitle_outer _ _))) fun leading _ => ?_
  refine (reports_lift _).bind fun metadata _ => ?_
  refine (Render.document_reports metadata (fun issue h => hr issue (.inl h)) (hblocks _)).bind
    fun text _ => reports_pure _

/-- Whatever the tokens are, the stages of a conversion only report ordinary issues. -/
theorem ofTokens_ordinary (c : Converter) (tokens : List Value) :
    Reports Issue.Ordinary (c.ofTokens tokens) :=
  ofTokens_reports (fun _ h => h.ordinary) fun env body _ =>
    Render.blocks_code_ne env .fatal (by decide) nofun body

section BlockIssues

/-- The issues about a metadata block as a whole. -/
def blockIssues (issues : List Issue) : List Issue :=
  issues.filter fun issue => issue.code == .invalidFrontmatter

theorem blockIssues_append (xs ys : List Issue) :
    blockIssues (xs ++ ys) = blockIssues xs ++ blockIssues ys := List.filter_append xs ys

theorem blockIssues_eq_nil {issues : List Issue}
    (h : ∀ issue ∈ issues, issue.code ≠ .invalidFrontmatter) : blockIssues issues = [] :=
  List.filter_eq_nil_iff.mpr fun issue hi => by simpa using h issue hi

theorem blockIssues_outer {issues : List Issue} (h : ∀ issue ∈ issues, issue.Outer) :
    blockIssues issues = [] := blockIssues_eq_nil fun issue hi => (h issue hi).code_ne

/-- Only the reading of the metadata block reports on it as a whole. -/
theorem ofTokens_blockIssues {block : Value} {front : Reported FrontMatter} {dump : String}
    (hdump : c.dump tokens = .ok dump) (hblock : metadataBlock tokens = .ok block)
    (hfront : FrontMatter.decodeValue block c.loadYaml = .ok front) :
    blockIssues (c.ofTokens tokens).issues = blockIssues front.issues := by
  unfold ofTokens
  rw [lift_bind_of_ok hdump, bind_of_ok rfl, bind_of_ok rfl, lift_bind_of_ok hblock,
    lift_bind_of_ok hfront, bind_of_ok rfl]
  dsimp only [after, ofReported]
  rw [blockIssues_append, blockIssues_append, blockIssues_append,
    blockIssues_outer (Token.definitions_outer _), blockIssues_outer (Token.footnotes_outer _)]
  refine (congrArg (blockIssues front.issues ++ ·) (blockIssues_eq_nil ?_)).trans
    (List.append_nil _)
  refine Reports.bind (reports_ofReported fun issue hi =>
    (c.leadingTitle_outer _ _ issue hi).code_ne) fun leading _ => ?_
  refine (reports_lift _).bind fun metadata _ => ?_
  refine (Render.document_reports metadata (fun _ h => h.code_ne) fun body _ =>
    Render.blocks_code_ne _ .invalidFrontmatter (by decide) nofun body).bind
      fun text _ => reports_pure _

end BlockIssues

end Converter

end Typeset
