import Typeset.Proofs.Conversion.Failures
import Typeset.Conversion.Report

/-! A conversion as it takes its course: each issue is taken down and told to the caller when it
comes up, a failure is dealt with where it is met, and the counts are taken at the end in any
case. -/

namespace Typeset

/-- What a conversion has done so far. -/
structure Progress where
  issues : List Issue := []
  calls : List Call := []
  metrics : List Metric := []

/-- A part of a conversion: it may stop, and what it has done stays. -/
abbrev Course (α : Type) := ExceptT Failure (StateM Progress) α

variable {α β : Type} {callback : Option Callback}

section Tell

/-- What the caller is told, if there is one who wants to be. -/
def callsOf (callback : Option Callback) (told issues : List Issue) : List Call :=
  match callback with
  | some callback => tell callback told issues
  | none => []

theorem tell_append (callback : Callback) (told xs ys : List Issue) :
    tell callback told (xs ++ ys) = tell callback told xs ++ tell callback (told ++ xs) ys := by
  induction xs generalizing told with
  | nil => simp [tell]
  | cons x rest ih => simp [tell, ih]

theorem callsOf_append (callback : Option Callback) (told xs ys : List Issue) :
    callsOf callback told (xs ++ ys) =
      callsOf callback told xs ++ callsOf callback (told ++ xs) ys := by
  cases callback with
  | none => rfl
  | some callback => exact tell_append callback told xs ys

/-- Progress after some issues. -/
def Progress.told (callback : Option Callback) (p : Progress) (issues : List Issue) : Progress :=
  { p with
    issues := p.issues ++ issues
    calls := p.calls ++ callsOf callback p.issues issues }

theorem Progress.told_nil (p : Progress) : p.told callback [] = p := by
  cases callback <;> simp [told, callsOf, tell]

theorem Progress.told_append (p : Progress) (xs ys : List Issue) :
    p.told callback (xs ++ ys) = (p.told callback xs).told callback ys := by
  simp [told, callsOf_append]

end Tell

namespace Course

/-- Takes down an issue and tells the caller. A caller who fails on it is not heeded. -/
def note (callback : Option Callback) (issue : Issue) : Course Unit :=
  modify fun p =>
    let raised := callback.map fun callback => callback p.issues issue
    { p with
      issues := p.issues ++ [issue]
      calls := p.calls ++ (raised.map fun raised => ⟨issue, raised⟩).toList }

/-- A computation carried out: its issues, one after the other, and then its outcome. -/
def perform (callback : Option Callback) (r : Rendering α) : Course α := do
  r.issues.forM (note callback)
  liftExcept r.outcome

section Run

variable (p : Progress)

theorem liftExcept_run (x : Except Failure α) : (liftExcept x : Course α).run p = (x, p) := by
  cases x <;> rfl

theorem bind_run (x : Course α) (next : α → Course β) :
    (x >>= next).run p =
      match x.run p with
      | (.ok a, q) => (next a).run q
      | (.error f, q) => (.error f, q) := by
  simp only [ExceptT.run, bind, ExceptT.bind, ExceptT.mk, StateT.bind, ExceptT.bindCont]
  rcases x p with ⟨f | a, q⟩
  · rfl
  · rfl

theorem tryCatch_run (x : Course α) (handler : Failure → Course α) :
    (tryCatch x handler).run p =
      match x.run p with
      | (.ok a, q) => (.ok a, q)
      | (.error f, q) => (handler f).run q := by
  simp only [tryCatch, tryCatchThe, MonadExceptOf.tryCatch, ExceptT.tryCatch, ExceptT.run,
    ExceptT.mk, bind, StateT.bind]
  rcases x p with ⟨f | a, q⟩
  · rfl
  · rfl

theorem note_run (issue : Issue) :
    (note callback issue).run p = (.ok (), p.told callback [issue]) := by
  cases callback <;> rfl

theorem forM_note_run (issues : List Issue) :
    (issues.forM (note callback)).run p = (.ok (), p.told callback issues) := by
  induction issues generalizing p with
  | nil => rw [p.told_nil]; rfl
  | cons issue rest ih =>
    rw [List.forM_eq_forM, List.forM_cons, bind_run, note_run]
    dsimp only
    rw [← List.forM_eq_forM, ih, ← p.told_append]
    rfl

/-- Only the order counts in which issues are told. -/
theorem perform_run (r : Rendering α) :
    (perform callback r).run p = (r.outcome, p.told callback r.issues) := by
  rw [perform, bind_run, forM_note_run]
  exact liftExcept_run _ _

end Run

theorem course_ext {x y : Course α} (h : ∀ p, x.run p = y.run p) : x = y := funext h

theorem perform_pure (a : α) : perform callback (pure a) = (pure a : Course α) := rfl

theorem perform_lift (x : Except Failure α) :
    perform callback (liftM x) = (liftExcept x : Course α) := by
  refine course_ext fun p => ?_
  rw [perform_run, liftExcept_run]
  exact Prod.ext rfl p.told_nil

/-- To carry out one computation after another is to carry out the whole. -/
theorem perform_bind (r : Rendering α) (next : α → Rendering β) :
    perform callback (r >>= next) = perform callback r >>= fun a => perform callback (next a) := by
  refine course_ext fun p => ?_
  rw [bind_run, perform_run, perform_run]
  cases ho : r.outcome with
  | error f =>
    rw [Rendering.bind_of_error ho]
    rfl
  | ok a =>
    rw [Rendering.bind_of_ok ho]
    dsimp only
    rw [perform_run, Rendering.after, p.told_append]

theorem perform_rescue (r : Rendering α) (handler : Failure → Rendering α) :
    perform callback (r.rescue handler) =
      tryCatch (perform callback r) fun f => perform callback (handler f) := by
  refine course_ext fun p => ?_
  rw [tryCatch_run, perform_run, perform_run]
  cases ho : r.outcome with
  | ok a => rw [Rendering.rescue, ho, ho]
  | error f =>
    rw [Rendering.rescue, ho]
    dsimp only
    rw [perform_run, Rendering.after, p.told_append]

/-- The tokens of some input. Text that cannot be read is reported here. -/
def tokens (c : Converter) (callback : Option Callback) (input : Input) : Course (List Value) :=
  match input with
  | .tokens items => pure items
  | .markdown text =>
    tryCatch (liftExcept (c.read text.toList)) fun cause =>
      perform callback (Converter.stopReading input cause)

/-- The stages after the reading, each with its own boundary or none. -/
def stages (c : Converter) (callback : Option Callback) (tokens : List Value) :
    Course Converted := do
  let _ ← liftExcept (c.dump tokens)
  let definitions ← perform callback (Rendering.ofReported (Token.definitions (.list tokens)))
  let footnotes ← perform callback (Rendering.ofReported (Token.footnotes (.list tokens)))
  let block ← liftExcept (metadataBlock tokens)
  let front ← liftExcept (FrontMatter.decodeValue block c.loadYaml)
  let front ← perform callback (Rendering.ofReported front)
  let leading ← perform callback (Rendering.ofReported (c.leadingTitle definitions (.list tokens)))
  let title := leading.map (·.title)
  let index := (leading.map fun t => Value.int t.index).getD .null
  let metadata ← liftExcept (Metadata.merge c.settings front (.ofText? title) c.registers)
  let text ← perform callback
    (Render.document (c.environment definitions footnotes) metadata (.list tokens) index)
  pure { text, metadata }

/-- Whether a failure is that of a text that could not be read. -/
def isReading : Failure → Bool
  | .reported .parse .. => true
  | _ => false

/-- Tells the collector of a metric, if there is one. A collector that fails ends the telling. -/
def record (collector : Option Collector) (metric : Metric) : Course Unit := do
  let p ← get
  set { p with metrics := p.metrics ++ [metric] }
  match collector.bind fun collector => collector p.metrics metric with
  | some f => throw f
  | none => pure ()

/-- A course, and then its counts, whatever the outcome was. A failure to count takes the place of
the outcome. -/
def counted (collector : Option Collector) (x : Course α) : Course α := ExceptT.mk do
  let outcome ← x.run
  let p ← get
  let counts ← ((metricsOf p.issues).forM (record collector)).run
  return do
    counts
    outcome

/-- The whole course. What could not be read has been reported already; any other failure is
reported in the end, and then the counts are taken. -/
def whole (c : Converter) (callback : Option Callback) (collector : Option Collector)
    (input : Input) : Course Converted :=
  counted collector <| tryCatch (do stages c callback (← tokens c callback input)) fun f =>
    if isReading f then throw f else perform callback (Converter.stopConverting f)

theorem stages_eq (c : Converter) (tokens : List Value) :
    stages c callback tokens = perform callback (c.ofTokens tokens) := by
  simp only [stages, Converter.ofTokens, perform_bind, perform_lift, perform_pure]

section Count

variable {collector : Option Collector} (p : Progress)

theorem record_run (metric : Metric) :
    (record collector metric).run p =
      ((collected collector p.metrics [metric]).2,
        { p with metrics := (collected collector p.metrics [metric]).1 }) := by
  cases collector with
  | none => rfl
  | some collector =>
    rw [collected, Collector.collect]
    change (match collector p.metrics metric with
      | some f => (throw f : Course Unit)
      | none => pure ()).run { p with metrics := p.metrics ++ [metric] } = _
    cases collector p.metrics metric with
    | some f => rfl
    | none => rfl

/-- To tell of metrics one after the other is to tell of them all. -/
theorem collected_cons (told : List Metric) (metric : Metric) (rest : List Metric) :
    collected collector told (metric :: rest) =
      match collected collector told [metric] with
      | (told, .ok ()) => collected collector told rest
      | (told, .error f) => (told, .error f) := by
  cases collector with
  | none => simp [collected]
  | some collector =>
    simp only [collected, Collector.collect]
    cases collector told metric with
    | some f => rfl
    | none => rfl

theorem forM_record_run (metrics : List Metric) :
    (metrics.forM (record collector)).run p =
      ((collected collector p.metrics metrics).2,
        { p with metrics := (collected collector p.metrics metrics).1 }) := by
  induction metrics generalizing p with
  | nil => cases collector <;> simp [collected, Collector.collect] <;> rfl
  | cons metric rest ih =>
    rw [List.forM_eq_forM, List.forM_cons, bind_run, record_run,
      collected_cons p.metrics metric rest]
    obtain ⟨told, outcome⟩ := collected collector p.metrics [metric]
    cases outcome with
    | error f => rfl
    | ok _ => exact ih { p with metrics := told }

theorem counted_run (x : Course α) {p q : Progress} {outcome : Except Failure α}
    (h : x.run p = (outcome, q)) :
    (counted collector x).run p =
      (do (collected collector q.metrics (metricsOf q.issues)).2; outcome,
        { q with metrics := (collected collector q.metrics (metricsOf q.issues)).1 }) := by
  have hcounts : ((metricsOf q.issues).forM (record collector)).run q = _ :=
    forM_record_run q (metricsOf q.issues)
  simp only [counted, ExceptT.run, ExceptT.mk, bind, StateT.bind] at h hcounts ⊢
  rw [h]
  dsimp only [get, getThe, MonadStateOf.get, StateT.get, pure]
  rw [hcounts]
  rfl

end Count

theorem isReading_of_inner {f : Failure} (h : f.Inner) : isReading f = false := by
  cases f with
  | reported cls code message context cause => cases h
  | _ => rfl

variable (c : Converter)

theorem tokens_run (p : Progress) (input : Input) :
    (tokens c callback input).run p =
      match c.tokensOf input with
      | .ok items => (.ok items, p)
      | .error cause =>
        (perform callback (Converter.stopReading (α := List Value) input cause)).run p := by
  cases input with
  | tokens items => rfl
  | markdown text =>
    rw [tokens, tryCatch_run, liftExcept_run]
    change _ = match c.read text.toList with | .ok items => _ | .error cause => _
    cases c.read text.toList with
    | ok items => rfl
    | error cause => rfl

/-- The stages, with their boundary around them. -/
theorem caught_run (input : Input) (p : Progress) :
    (tryCatch (do stages c callback (← tokens c callback input)) fun f =>
        if isReading f then throw f else perform callback (Converter.stopConverting f)).run p =
      (perform callback (c.run input)).run p := by
  rw [tryCatch_run, bind_run, tokens_run, Converter.run]
  cases ht : c.tokensOf input with
  | error cause =>
    dsimp only
    rw [perform_run, perform_run]
    rfl
  | ok items =>
    dsimp only
    rw [stages_eq, perform_rescue, tryCatch_run, perform_run]
    cases ho : (c.ofTokens items).outcome with
    | ok converted => rfl
    | error f =>
      have hinner : isReading f = false := isReading_of_inner (c.ofTokens_inner items f ho)
      dsimp only
      rw [hinner, if_neg Bool.false_ne_true]

/-- A conversion that takes its course does what its report says. -/
theorem whole_run (collector : Option Collector) (input : Input) :
    (whole c callback collector input).run {} =
      ((c.convert callback input collector).outcome,
        { issues := (c.convert callback input collector).issues
          calls := callsOf callback [] (c.run input).issues
          metrics := (c.convert callback input collector).metrics }) := by
  rw [whole, counted_run _ ((caught_run c input {}).trans (perform_run {} _))]
  rfl

end Course

end Typeset
