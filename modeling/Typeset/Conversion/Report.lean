import Typeset.Conversion.Basic
import Typeset.Log.Record

/-! What a conversion leaves behind besides its document: the issues told to the caller, counts, and
records for the log. None of them changes the document. -/

namespace Typeset

/-- What the caller does on being told of an issue, by the issues told before: go on, or fail. -/
abbrev Callback := List Issue → Issue → Option Failure

/-- An issue that was told to the caller, and how the caller failed on it. -/
structure Call where
  issue : Issue
  raised : Option Failure := none

/-- The caller told of issues, one after the other. A caller that fails is told of the next one all
the same. -/
def tell (callback : Callback) (told : List Issue) : List Issue → List Call
  | [] => []
  | issue :: rest => ⟨issue, callback told issue⟩ :: tell callback (told ++ [issue]) rest

theorem tell_issue (callback : Callback) (told issues : List Issue) :
    (tell callback told issues).map (·.issue) = issues := by
  induction issues generalizing told with
  | nil => rfl
  | cons issue rest ih => simp [tell, ih]

/-- Something that is counted or timed. -/
inductive Metric
  | count (name : String) (amount : Nat) (severity : Option Severity)
  | duration (name : String)
  deriving DecidableEq, Repr

/-- How many issues are of a severity. -/
def countOf (severity : Severity) (issues : List Issue) : Nat :=
  issues.countP fun issue => issue.severity == severity

/-- The count of the issues of a severity, if there are any. -/
def issueMetric (issues : List Issue) (severity : Severity) : List Metric :=
  match countOf severity issues with
  | 0 => []
  | n => [.count "typstify.conversion_issues_total" n (some severity)]

/-- The counts of a conversion, and last its duration. -/
def metricsOf (issues : List Issue) : List Metric :=
  .count "typstify.conversions_total" 1 none ::
    (issueMetric issues .warning ++ issueMetric issues .error ++
      [.duration "typstify.conversion_duration_ms"])

/-- What a collector does on being told of a metric, by the metrics told before: go on, or fail. -/
abbrev Collector := List Metric → Metric → Option Failure

/-- A collector told of metrics, one after the other, after those told before. It is told of none
behind one that it fails on. -/
def Collector.collect (collector : Collector) (told : List Metric) :
    List Metric → List Metric × Except Failure Unit
  | [] => (told, .ok ())
  | metric :: rest =>
    match collector told metric with
    | some f => (told ++ [metric], .error f)
    | none => collector.collect (told ++ [metric]) rest

/-- Metrics told to the collector, if there is one, after those told before. -/
def collected (collector : Option Collector) (told metrics : List Metric) :
    List Metric × Except Failure Unit :=
  match collector with
  | some collector => collector.collect told metrics
  | none => (told ++ metrics, .ok ())

/-- A plain value in the place of a collector fails on the first metric; one that counts as absent
stands for none. -/
def Settings.collector? (settings : Settings) : Option Collector :=
  if settings.metrics.truthy then some fun _ _ => some .noMember else none

/-- The logger of conversions. -/
def conversionLogger : String := "typstify.converter"

/-- A record with the failure that it is about. -/
def failureRecord (level : Int) (message : String) (extra : List (String × Value))
    (cause : Failure) : Log.Record where
  level := level
  logger := conversionLogger
  message := message
  extra := extra
  exception := some (Log.exceptionText cause.kind cause.text)

/-- The records of an issue: one of its own, and one if the caller failed on it. -/
def Call.records (call : Call) : List Log.Record :=
  { level := Log.debugLevel, logger := conversionLogger
    message := "conversion issue: " ++ call.issue.message
    issue := some (.ofIssue call.issue) } ::
  (call.raised.map (failureRecord Log.warningLevel "on_error callback raised"
    [("code", .str call.issue.code.name)])).toList

/-- The record of the end of a conversion that cannot go on. -/
def endRecords : Except Failure Converted → List Log.Record
  | .error (.reported .parse _ _ _ (some cause)) =>
    endRecord "markdown parsing" .markdownParsing cause
  | .error (.reported _ _ _ _ (some cause)) => endRecord "conversion" .conversion cause
  | _ => []
where
  endRecord (doing : String) (stage : Stage) (cause : Failure) : List Log.Record :=
    [failureRecord Log.errorLevel (doing ++ " failed: " ++ cause.text)
      [("stage", .str stage.name)] cause]

/-- All that a conversion does. -/
structure Report where
  outcome : Except Failure Converted
  issues : List Issue := []
  calls : List Call := []
  metrics : List Metric := []
  records : List Log.Record := []
  dump : String := ""

/-- The report of a conversion, for a caller who wants to be told of issues or not, and with a
collector of metrics or none. The metrics come last: a collector that fails takes the place of
whatever the conversion came to. -/
def Converter.convert (c : Converter) (callback : Option Callback) (input : Input)
    (collector : Option Collector := c.settings.collector?) : Report :=
  let r := c.run input
  let calls := match callback with
    | some callback => tell callback [] r.issues
    | none => []
  let told := if callback.isSome then calls else r.issues.map fun issue => { issue }
  let counts := collected collector [] (metricsOf r.issues)
  { outcome := do counts.2; r.outcome
    issues := r.issues
    calls
    metrics := counts.1
    records := told.flatMap Call.records ++ endRecords r.outcome
    dump := match c.tokensOf input >>= c.dump with
      | .ok text => text
      | .error _ => "" }

/-- The report of a conversion of any value. A value that no conversion starts from is refused
before anything else happens. -/
def Converter.convertValue (c : Converter) (callback : Option Callback) (v : Value)
    (collector : Option Collector := c.settings.collector?) : Report :=
  match Input.ofValue v with
  | .ok input => c.convert callback input collector
  | .error f => { outcome := .error f }

end Typeset
