import Typeset.Proofs.Conversion.Course
import Typeset.Proofs.Conversion.Issues

/-! How a conversion ends: with a document and no word of a failure, or with a failure of its own
that is the last thing reported. -/

namespace Typeset

open Rendering

namespace Report

/-- There is a document, and no issue says that there is none. -/
def Succeeds (r : Report) : Prop :=
  (∃ document, r.outcome = .ok document) ∧ ∀ issue ∈ r.issues, issue.code ≠ .fatal

/-- There is a failure of the conversion as a whole. The last issue is an error that tells of it,
and no other issue does. -/
def Stops (cls : FailureClass) (r : Report) : Prop :=
  ∃ code message context cause before last,
    r.outcome = .error (.reported cls code message context (some cause)) ∧
      r.issues = before ++ [last] ∧ (∀ issue ∈ before, issue.code ≠ .fatal) ∧
        last.code = .fatal ∧ last.severity = .error ∧ last.message = message ∧
          last.cause = some cause

theorem not_stops_of_succeeds {r : Report} (h : r.Succeeds) (cls : FailureClass) :
    ¬ r.Stops cls := by
  rintro ⟨code, message, context, cause, before, last, hstop, -⟩
  obtain ⟨⟨document, hdoc⟩, -⟩ := h
  cases hdoc.symm.trans hstop

end Report

/-- The counts of issues of a severity, unless there are none. -/
def severityMetric (issues : List Issue) (severity : Severity) : List Metric :=
  let amount := (issues.filter fun issue => issue.severity == severity).length
  if amount = 0 then [] else [.count "typstify.conversion_issues_total" amount (some severity)]

theorem issueMetric_eq (issues : List Issue) (severity : Severity) :
    issueMetric issues severity = severityMetric issues severity := by
  rw [issueMetric, severityMetric, countOf, List.countP_eq_length_filter]
  split
  next h => rw [if_pos h]
  next n h => rw [if_neg h]

namespace Converter

variable (c : Converter)

/-- The class of the failure that a conversion of some input can end in. -/
def endClass (input : Input) : FailureClass :=
  match c.tokensOf input with
  | .ok _ => .conversion
  | .error _ => .parse

/-- The stages after the reading leave behind a document, or a failure told of last. -/
theorem run_of_tokens {input : Input} {tokens : List Value} (ht : c.tokensOf input = .ok tokens) :
    ((∃ document, (c.run input).outcome = .ok document) ∧
      (c.run input).issues = (c.ofTokens tokens).issues) ∨
    ∃ f, c.run input = (c.ofTokens tokens).after (stopConverting f) := by
  rw [run, ht]
  dsimp only
  cases ho : (c.ofTokens tokens).outcome with
  | ok document =>
    refine .inl ⟨⟨document, ?_⟩, ?_⟩
    · rw [rescue, ho, ho]
    · rw [rescue, ho]
  | error f =>
    refine .inr ⟨f, ?_⟩
    rw [rescue, ho]

theorem run_of_unread {input : Input} {cause : Failure} (ht : c.tokensOf input = .error cause) :
    c.run input = stopReading input cause := by
  rw [run, ht]

/-- A collector that fails on no metric. -/
def Quiet (collector : Option Collector) : Prop :=
  ∀ hook ∈ collector, ∀ told metric, hook told metric = none

section Convert

variable {collector : Option Collector} (callback : Option Callback) (input : Input)

theorem collect_of_quiet {hook : Collector} (h : ∀ told metric, hook told metric = none)
    (told metrics : List Metric) : hook.collect told metrics = (told ++ metrics, .ok ()) := by
  induction metrics generalizing told with
  | nil => rw [Collector.collect, List.append_nil]
  | cons metric rest ih =>
    rw [Collector.collect, h told metric]
    dsimp only
    rw [ih, List.append_assoc, List.singleton_append]

/-- A quiet collector is told of everything, and so is none. -/
theorem collected_of_quiet (h : Quiet collector) (told metrics : List Metric) :
    collected collector told metrics = (told ++ metrics, .ok ()) := by
  cases collector with
  | none => rfl
  | some hook => exact collect_of_quiet (h hook rfl) told metrics

variable {c} (hq : Quiet collector)

include hq in
theorem convert_outcome : (c.convert callback input collector).outcome = (c.run input).outcome := by
  unfold convert
  dsimp only
  rw [collected_of_quiet hq]
  rfl

include hq in
theorem convert_metrics :
    (c.convert callback input collector).metrics = metricsOf (c.run input).issues := by
  unfold convert
  dsimp only
  rw [collected_of_quiet hq]
  rfl

theorem convert_calls :
    (c.convert callback input collector).calls = callsOf callback [] (c.run input).issues := by
  cases callback <;> rfl

include hq in
theorem convert_ends_or_stops :
    (c.convert callback input collector).Succeeds ∨
      (c.convert callback input collector).Stops (c.endClass input) := by
  have hissues : (c.convert callback input collector).issues = (c.run input).issues := rfl
  rw [Report.Succeeds, Report.Stops, convert_outcome callback input hq, hissues, endClass]
  cases ht : c.tokensOf input with
  | error cause =>
    rw [c.run_of_unread ht]
    exact .inr ⟨_, _, _, cause, [], _, rfl, rfl, List.forall_mem_nil _, rfl, rfl, rfl, rfl⟩
  | ok tokens =>
    have hordinary := c.ofTokens_ordinary tokens
    obtain ⟨hdoc, hsame⟩ | ⟨f, hrun⟩ := c.run_of_tokens ht
    · rw [hsame]
      exact .inl ⟨hdoc, hordinary⟩
    · rw [hrun]
      exact .inr ⟨_, _, _, f, _, _, rfl, rfl, hordinary, rfl, rfl, rfl, rfl⟩

end Convert

/-- Either there is a document and no issue is fatal, or the conversion fails, with a class of its
own if the text could not be read, and one fatal issue comes last. A caller is told of the issues in
order, when they come up, and changes nothing by failing on them; and a collector that does not fail
is told the counts of the issues, one after the other. -/
theorem convert_protocol (callback : Option Callback) (collector : Option Collector)
    (hquiet : Quiet collector) (input : Input) :
    let report := c.convert callback input collector
    let silent := c.convert none input collector
    (report.Succeeds ∨ report.Stops (c.endClass input)) ∧
      ¬ (report.Succeeds ∧ report.Stops (c.endClass input)) ∧
      report.calls.map Call.issue = (if callback.isSome then report.issues else []) ∧
      report.outcome = silent.outcome ∧ report.issues = silent.issues ∧
      report.metrics = [.count "typstify.conversions_total" 1 none] ++
        severityMetric report.issues .warning ++ severityMetric report.issues .error ++
          [.duration "typstify.conversion_duration_ms"] ∧
      (Course.whole c callback collector input).run {} =
        (report.outcome, ⟨report.issues, report.calls, report.metrics⟩) := by
  intro report silent
  have houtcome : report.outcome = (c.run input).outcome := convert_outcome callback input hquiet
  have hcalls : report.calls = callsOf callback [] (c.run input).issues :=
    convert_calls callback input
  refine ⟨convert_ends_or_stops callback input hquiet, ?_, ?_, ?_, rfl, ?_, ?_⟩
  · rintro ⟨hdoc, hstop⟩
    exact Report.not_stops_of_succeeds hdoc _ hstop
  · cases callback with
    | none => rfl
    | some callback => exact tell_issue callback [] _
  · rw [houtcome, convert_outcome none input hquiet]
  · rw [show report.metrics = _ from convert_metrics callback input hquiet, metricsOf,
      issueMetric_eq, issueMetric_eq]
    rfl
  · rw [Course.whole_run, hcalls]

/-- A token that is no object stops the conversion, the caller who fails on each issue is told of
all three, and the collector of the counts. -/
theorem convert_protocol_malformed :
    let report := convert {} (some fun _ _ => some .noMember) (.tokens [.null])
      (some fun _ _ => none)
    Quiet (some fun _ _ => none) ∧ report.Stops .conversion ∧
      (report.calls.map Call.issue).map Issue.code =
        [.collectionFailed, .collectionFailed, .fatal] ∧
      report.metrics = [.count "typstify.conversions_total" 1 none,
        .count "typstify.conversion_issues_total" 3 (some .error),
        .duration "typstify.conversion_duration_ms"] := by
  intro report
  have hquiet : Quiet (some fun _ _ => none) := by
    rintro hook hhook told metric
    obtain rfl := Option.some.inj hhook
    rfl
  obtain ⟨hends, -, hcalls, -, -, hmetrics, -⟩ :=
    convert_protocol {} (some fun _ _ => some .noMember) (some fun _ _ => none) hquiet
      (.tokens [.null])
  refine ⟨hquiet, hends.resolve_left ?_, ?_, ?_⟩
  · rintro ⟨⟨document, hdoc⟩, -⟩
    cases hdoc
  · rw [hcalls]
    rfl
  · exact hmetrics

end Converter

end Typeset
