import Typeset.Failure
import Typeset.Issue
import Typeset.Json.Printer
import Typeset.Log.Timestamp
import Typeset.Text.Case
import Typeset.Text.Quoted

/-! How grave log records are: a number, and for some numbers a name. -/

namespace Typeset.Log

section Level

/-- The levels that have a name. -/
def namedLevels : List (Int × String) :=
  [(50, "CRITICAL"), (40, "ERROR"), (30, "WARNING"), (20, "INFO"), (10, "DEBUG"), (0, "NOTSET")]

/-- The level of records that help to follow what happens. -/
def debugLevel : Int := 10

/-- The level from which records count unless a logger says otherwise. -/
def warningLevel : Int := 30

/-- The level of records about something that could not be done. -/
def errorLevel : Int := 40

/-- How a level is shown. -/
def levelName (level : Int) : String :=
  (namedLevels.lookup level).getD ("Level " ++ Text.decimal level)

/-- The level of a name in capitals. Two levels have a second name. -/
def levelOf? (name : String) : Option Int :=
  match name with
  | "FATAL" => some 50
  | "WARN" => some 30
  | _ => (namedLevels.find? fun named => named.2 == name).map Prod.fst

/-- The level that a value asks for: a number, or a name in letters of any case. -/
def level? (v : Value) : Except Failure Int :=
  match v with
  | .int n => .ok n
  | .bool b => .ok (if b then 1 else 0)
  | .str name =>
    match levelOf? (Text.upper name) with
    | some level => .ok level
    | none => .error (.refusedValue ("Unknown level: " ++ Text.quote ("Level " ++ Text.upper name)))
  | _ => .error .mismatch

end Level

/-! Log records, and the JSON object that a record is on its line. -/

section Record

/-- What a record says of an issue. -/
structure IssueNote where
  code : Value
  severity : Value
  stage : Value
  details : Value := .null
  /-- The kind and the words of the cause. -/
  cause : Option (String × String) := none

/-- What a record says of an issue of a conversion. -/
def IssueNote.ofIssue (issue : Issue) : IssueNote where
  code := .str issue.code.name
  severity := .str issue.severity.name
  stage := .str issue.stage.name
  details := .object issue.details
  cause := issue.cause.map fun f => (f.kind, f.text)

/-- The fields of an issue. Details are left out where there are none. -/
def IssueNote.fields (note : IssueNote) : List (String × Value) :=
  [("code", note.code), ("severity", note.severity), ("stage", note.stage)] ++
    (if note.details.truthy then [("details", note.details)] else []) ++
    (note.cause.map fun cause => ("cause", Value.str (cause.1 ++ ": " ++ cause.2))).toList

/-- A record of a log. -/
structure Record where
  /-- Seconds since 1970. -/
  created : Value := .int 0
  level : Int
  logger : String
  message : String
  issue : Option IssueNote := none
  /-- Further fields, which override those of the issue and of the record. -/
  extra : List (String × Value) := []
  exception : Option String := none
  stack : Value := .null

/-- The fields of a record, in order, for a time of its own. -/
def Record.fields (r : Record) (time : String) : List (String × Value) :=
  let base := [("ts", Value.str time), ("level", .str (levelName r.level)),
    ("logger", .str r.logger), ("message", .str r.message)]
  let noted := Value.override base ((r.issue.map IssueNote.fields).getD [])
  let extended := Value.override noted r.extra
  let exception := (r.exception.map fun text => ("exception", Value.str text)).toList
  let raised := Value.override extended exception
  if r.stack.truthy then Value.setField "stack_info" r.stack raised else raised

/-- The line of a record, if its time is one that can be shown and its numbers are not too long. -/
def Record.line (r : Record) : Except Failure String := do
  let time ← timestamp r.created
  Json.dumps (.object (r.fields time))

/-- Text with more text on a line of its own. -/
def addLine (text more : String) : String :=
  if more = "" then text else if text.endsWith "\n" then text ++ more else text ++ "\n" ++ more

/-- The words of a record alone, which are what is shown where nobody set up how. -/
def Record.words (r : Record) : String :=
  addLine (addLine r.message (r.exception.getD "")) (r.stack.str?.getD "")

/-- How an exception of one kind is shown: with its words, if it has any. -/
def exceptionText (kind words : String) : String :=
  if words = "" then kind else kind ++ ": " ++ words

end Record

end Typeset.Log
