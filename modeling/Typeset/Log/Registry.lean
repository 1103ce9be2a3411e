import Typeset.Log.Record

/-! Loggers by name. Names with dots in them form a tree: a logger without a level of its own takes
its parent's, and records go up the tree until a logger keeps them. -/

namespace Typeset.Log

/-- Where lines are written: on the error stream, or on one of those that were handed over. -/
inductive Sink
  | errors
  | given (number : Nat)
  deriving DecidableEq

/-- A logger. -/
structure Logger where
  level : Int := 0
  propagates : Bool := true
  sinks : List Sink := []

/-- The loggers so far. -/
structure Registry where
  /-- The loggers that something was set on. -/
  loggers : List (String × Logger) := []
  /-- The names that were asked for and got a sink. -/
  configured : List String := []
  /-- The names of all loggers but the one at the top, each with the name of its parent. -/
  parents : List (String × String) := []
  /-- Names that no logger had when a logger below came to be, each with that logger. -/
  waiting : List (String × String) := []

/-- Entries with one of them set: in its place if it is there, else at the end. -/
def setEntry {α : Type} (key : String) (a : α) : List (String × α) → List (String × α)
  | [] => [(key, a)]
  | (k, b) :: rest => if k = key then (k, a) :: rest else (k, b) :: setEntry key a rest

/-- The name of the logger at the top. -/
def rootName : String := "root"

/-- The name that a logger is kept under. -/
def loggerName (name : String) : String := if name = "" then rootName else name

/-- A logger that nothing was set on. -/
def freshLogger (name : String) : Logger :=
  if name = rootName then { level := warningLevel } else {}

/-- The logger of a name. -/
def Registry.logger (reg : Registry) (name : String) : Logger :=
  (reg.loggers.lookup (loggerName name)).getD (freshLogger (loggerName name))

section Tree

/-- What stands before the dots of a text that is given from its last character to its first,
longest first. The search for the next dot leaves out the character before the last one that was
found, so the second of two dots hides the first; and what stands before a dot is not empty. -/
def beforeDots : List Char → List String
  | [] => []
  | [_] => []
  | c :: d :: rest =>
    if c = '.' then String.ofList (d :: rest).reverse :: beforeDots rest else beforeDots (d :: rest)

/-- The names above a name in the tree, nearest first and without the root. -/
def namesAbove (name : String) : List String := beforeDots name.toList.reverse

/-- Whether there is a logger of a name. -/
def Registry.has (reg : Registry) (name : String) : Bool := (reg.parents.lookup name).isSome

/-- The parent of a logger, which is the one at the top unless there is a nearer one. -/
def Registry.parent (reg : Registry) (name : String) : String :=
  (reg.parents.lookup name).getD rootName

/-- Whether a text begins with another one. -/
def beginsWith (text start : String) : Bool := start.toList.isPrefixOf text.toList

/-- The loggers that a new one becomes the parent of: those that wait for its name, but for any with
a parent whose name begins with it. -/
def Registry.orphans (reg : Registry) (name : String) : List String :=
  ((reg.waiting.filter (·.1 = name)).map (·.2)).filter fun child =>
    !beginsWith (reg.parent child) name

/-- The loggers with one of a name, which is made if there is none. Its parent is the nearest logger
of the names above. -/
def Registry.found (reg : Registry) (name : String) : Registry :=
  if loggerName name = rootName || reg.has name then reg
  else
    let above := namesAbove name
    let adopted := (reg.orphans name).foldl (fun parents child => setEntry child name parents)
      reg.parents
    { reg with
      parents := setEntry name ((above.find? reg.has).getD rootName) adopted
      waiting := reg.waiting ++ (above.takeWhile fun n => !reg.has n).map fun n => (n, name) }

/-- A logger and those above it, as far as the steps go. -/
def Registry.climb (reg : Registry) : Nat → String → List String
  | 0, _ => [rootName]
  | steps + 1, name =>
    if name = rootName then [rootName] else name :: reg.climb steps (reg.parent name)

/-- A logger and those above it, up to the root. Each name on the way is shorter than the one
before. -/
def Registry.lineage (reg : Registry) (name : String) : List String :=
  reg.climb (name.length + 1) (loggerName name)

end Tree

section Call

/-- The first call for a name: its logger gets a level and a sink, and keeps its records. A logger
that was asked for before stays as it is, and so does one whose level is refused. -/
def Registry.get (reg : Registry) (name : String) (level : Value) (sink : Sink) :
    Except Failure Registry :=
  if reg.configured.contains name then .ok reg
  else do
    let level ← level? level
    let old := reg.logger name
    let new := { level, propagates := false, sinks := old.sinks ++ [sink] : Logger }
    .ok { reg with
          loggers := setEntry (loggerName name) new reg.loggers
          configured := name :: reg.configured }

/-- The level from which a logger takes records: the first that is set on the way up. -/
def Registry.threshold (reg : Registry) (name : String) : Int :=
  (((reg.lineage name).map fun n => (reg.logger n).level).find? (· != 0)).getD 0

/-- Whether a logger takes records of a level. None takes records below level one. -/
def Registry.takes (reg : Registry) (name : String) (level : Int) : Bool :=
  0 < level && reg.threshold name ≤ level

/-- The sinks of loggers on the way up, as far as records go. -/
def sinksUp : List Logger → List Sink
  | [] => []
  | l :: above => l.sinks ++ if l.propagates then sinksUp above else []

/-- The sinks that the records of a logger go to. -/
def Registry.sinks (reg : Registry) (name : String) : List Sink :=
  sinksUp ((reg.lineage name).map reg.logger)

end Call

end Typeset.Log
