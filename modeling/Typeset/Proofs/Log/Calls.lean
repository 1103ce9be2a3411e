import Typeset.Log.Calls
import Typeset.Proofs.Log.Fields
import Typeset.Proofs.Log.Lineage

/-! Calls for loggers and calls to loggers, one after the other: the first call for a name that is
not refused settles its logger, and a call to a logger writes at most one line. -/

namespace Typeset.Log

variable {name : String} {level : Value} {sink : Sink} {start reg : Registry} {calls : List Call}
  {s : State} {names : List String}

section Registry

theorem loggerName_eq_iff (h : loggerName name ≠ rootName) (other : String) :
    loggerName other = loggerName name ↔ other = name := by
  constructor
  · intro heq
    have hother : loggerName other ≠ rootName := heq ▸ h
    rwa [loggerName_of_ne_root h, loggerName_of_ne_root hother] at heq
  · rintro rfl
    rfl

/-- What is said of the tree alone holds where the tree is the same. -/
theorem Wired.of_same {reg' : Registry} (h : Wired reg) (hparents : reg'.parents = reg.parents)
    (hwaiting : reg'.waiting = reg.waiting) : Wired reg' := by
  have hhas (name : String) : reg'.has name = reg.has name := by
    rw [Registry.has, hparents, Registry.has]
  have hparent (name : String) : reg'.parent name = reg.parent name := by
    rw [Registry.parent, hparents, Registry.parent]
  obtain ⟨hroot, hup, hwaits, hnearest⟩ := h
  simp only [← hhas, ← hparent, ← hwaiting] at hroot hup hwaits hnearest
  exact ⟨hroot, hup, hwaits, hnearest⟩

end Registry

section Setup

/-- What a call sets a name up with: a level and a sink, unless the level is refused. -/
def Call.setup? (name : String) : Call → Option (Int × Sink)
  | .get n level sink =>
    if n = name then (level? level).toOption.map fun l => (l, sink) else none
  | .log .. => none

/-- The first setup of a name. -/
def firstSetup (calls : List Call) (name : String) : Option (Int × Sink) :=
  calls.findSome? (Call.setup? name)

/-- The logger of a name after some calls: as the first setup has it, or as it was. -/
def loggerAfter (start : Registry) (calls : List Call) (name : String) : Logger :=
  match firstSetup calls name with
  | some (level, sink) => { level, propagates := false, sinks := [sink] }
  | none => start.logger name

/-- No logger was asked for yet, and none has a sink. -/
structure Fresh (reg : Registry) : Prop where
  configured : reg.configured = []
  sinks : ∀ name, (reg.logger name).sinks = []
  propagates : ∀ name, (reg.logger name).propagates = true
  wired : Wired reg

/-- No call is for the logger at the top. -/
def Rootless (calls : List Call) : Prop :=
  ∀ name level sink, .get name level sink ∈ calls → loggerName name ≠ rootName

theorem Rootless.of_append {more : List Call} (h : Rootless (calls ++ more)) : Rootless calls :=
  fun name level sink hmem => h name level sink (List.mem_append_left _ hmem)

theorem firstSetup_concat (calls : List Call) (call : Call) (name : String) :
    firstSetup (calls ++ [call]) name = (firstSetup calls name).or (call.setup? name) := by
  rw [firstSetup, List.findSome?_append, firstSetup]
  congr 1
  cases h : call.setup? name <;> simp [List.findSome?, h]

/-- The loggers are those that the calls leave behind. -/
structure Accords (start : Registry) (calls : List Call) (reg : Registry) : Prop where
  logger : ∀ name, reg.logger name = loggerAfter start calls name
  configured : ∀ name, name ∈ reg.configured ↔ (firstSetup calls name).isSome
  made : ∀ name, (firstSetup calls name).isSome → reg.has name = true
  wired : Wired reg

/-- Making a logger leaves the loggers in accord. -/
theorem Accords.found (h : Accords start calls reg) (name : String) :
    Accords start calls (reg.found name) where
  logger other := by rw [found_logger, h.logger]
  configured other := by rw [(found_loggers reg name).2, h.configured]
  made other hsome := by
    by_cases hname : loggerName name = rootName
    · rw [found_of_root hname]
      exact h.made other hsome
    · exact (h.wired.has_found hname).mpr (.inr (h.made other hsome))
  wired := h.wired.found name

/-- A call that sets up nothing new leaves the loggers in accord. -/
theorem Accords.keep {call : Call} (h : Accords start calls reg)
    (hcall : ∀ name, firstSetup calls name = none → call.setup? name = none) :
    Accords start (calls ++ [call]) reg := by
  have hsame (name : String) : firstSetup (calls ++ [call]) name = firstSetup calls name := by
    rw [firstSetup_concat]
    cases hfirst : firstSetup calls name with
    | some setup => rfl
    | none => rw [hcall name hfirst]; rfl
  exact ⟨fun name => by rw [h.logger, loggerAfter, loggerAfter, hsame],
    fun name => by rw [h.configured, hsame], fun name => by rw [hsame]; exact h.made name, h.wired⟩

/-- The loggers after a call that sets one up. -/
theorem Accords.set (hstart : Fresh start) (h : Accords start calls reg) {reg' : Registry} {n : Int}
    (hname : loggerName name ≠ rootName) (hthere : reg.has name = true)
    (hfirst : firstSetup calls name = none) (hlevel : level? level = .ok n)
    (hconfigured : reg'.configured = name :: reg.configured)
    (hparents : reg'.parents = reg.parents) (hwaiting : reg'.waiting = reg.waiting)
    (hloggers : ∀ other, reg'.logger other = if loggerName other = loggerName name then
      { level := n, propagates := false, sinks := (reg.logger name).sinks ++ [sink] }
      else reg.logger other) :
    Accords start (calls ++ [.get name level sink]) reg' := by
  have hsetup (other : String) : firstSetup (calls ++ [.get name level sink]) other =
      if other = name then some (n, sink) else firstSetup calls other := by
    rw [firstSetup_concat, Call.setup?, hlevel]
    by_cases hother : other = name
    · rw [hother, hfirst, if_pos rfl, if_pos rfl]
      rfl
    · rw [if_neg (Ne.symm hother), if_neg hother, Option.or_none]
  refine ⟨fun other => ?_, fun other => ?_, fun other hsome => ?_,
    h.wired.of_same hparents hwaiting⟩
  · rw [hloggers, loggerAfter, hsetup]
    by_cases hother : other = name
    · have hold : (reg.logger name).sinks = [] := by
        rw [h.logger, loggerAfter, hfirst]
        exact hstart.sinks name
      rw [hother, if_pos rfl, if_pos rfl, hold]
      rfl
    · rw [if_neg (mt (loggerName_eq_iff hname other).mp hother), if_neg hother]
      exact h.logger other
  · rw [hconfigured, List.mem_cons, h.configured, hsetup]
    by_cases hother : other = name <;> simp [hother]
  · rw [Registry.has, hparents, ← Registry.has]
    rw [hsetup] at hsome
    split at hsome
    next hother => rwa [hother]
    next => exact h.made other hsome

theorem run_concat (s : State) (calls : List Call) (call : Call) :
    run s (calls ++ [call]) = (step (run s calls) call).1 := by
  rw [run, List.foldl_concat, run]

end Setup

section Line

open Failure (exists_of_bind)
open Json (Reals Spelled)

/-- The values that an entry brings to its line. -/
def Entry.values (e : Entry) : List Value :=
  e.issue.toList.flatMap (fun note => [note.code, note.severity, note.stage, note.details]) ++
    e.extra.map (·.2) ++ [e.stack]

end Line

/-! Which loggers on the way up were set up, and what their records are written to. -/

section Nearest

end Nearest

section Calls

section Accords

variable (hstart : Fresh start) (h : Accords start calls s.registry)

include h

include hstart

end Accords

section Sinks

variable (hstart : Fresh start) (h : Accords start calls reg)

include hstart h

end Sinks

section Texts

variable {e : Entry} {r : Record} {line : String}

end Texts

end Calls

end Typeset.Log
