import Typeset.Log.Message
import Typeset.Log.Registry

/-! Calls for loggers and calls to loggers, and what they write. -/

namespace Typeset.Log

/-- What a call to a logger says. -/
structure Entry where
  level : Int
  format : Value
  arguments : List Value := []
  issue : Option IssueNote := none
  extra : List (String × Value) := []
  exception : Option String := none
  stack : Value := .null
  created : Value := .int 0

/-- The record of an entry, unless the arguments do not fit the format. -/
def Entry.record (e : Entry) (name : String) : Except Failure Record := do
  let message ← message e.format e.arguments
  return { created := e.created, level := e.level, logger := loggerName name, message
           issue := e.issue, extra := e.extra, exception := e.exception, stack := e.stack }

/-- A call for a logger, or one to a logger. -/
inductive Call
  | get (name : String) (level : Value) (sink : Sink)
  | log (name : String) (entry : Entry)

/-- The loggers, and the texts that were written, each to its sink. -/
structure State where
  registry : Registry
  written : List (Sink × String) := []

/-- What an entry writes that a logger takes: its line to each sink on the way up. Where there is no
sink, the words of a warning are written on the error stream. An entry without a line is not
written; the report about that is left out. -/
def Entry.texts (e : Entry) (reg : Registry) (name : String) : List (Sink × String) :=
  match reg.sinks name with
  | [] =>
    match e.record name with
    | .ok r => if warningLevel ≤ e.level then [(.errors, r.words)] else []
    | .error _ => []
  | sinks =>
    match e.record name >>= Record.line with
    | .ok line => sinks.map fun sink => (sink, line)
    | .error _ => []

/-- One call, and what it raises. Either kind of call makes the logger first. A level that is taken
must be one that can be shown. -/
def step (s : State) (call : Call) : State × Option Failure :=
  match call with
  | .get name level sink =>
    let reg := s.registry.found name
    match reg.get name level sink with
    | .ok registry => ({ s with registry }, none)
    | .error f => ({ s with registry := reg }, some f)
  | .log name e =>
    let s := { s with registry := s.registry.found name }
    if !s.registry.takes name e.level then (s, none)
    else if !Text.isWritable e.level then (s, some .badNumber)
    else ({ s with written := s.written ++ e.texts s.registry name }, none)

def run (s : State) (calls : List Call) : State := calls.foldl (fun s call => (step s call).1) s

end Typeset.Log
