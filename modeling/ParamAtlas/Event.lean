/-
# Events

The records that are logged; specification, section 8.

What a run tells about itself on the way, in the order in which it happens.
Events are values: nothing is printed where they arise.
-/
import ParamAtlas.Failure
import ParamAtlas.ParameterTable
import ParamAtlas.Forest.Walk
import ParamAtlas.Dwarf.Fault

namespace ParamAtlas

/-- How much an event matters. -/
inductive Severity where
  | debug
  | info
  | warn
  deriving DecidableEq, Repr, Inhabited

/-- The word for a severity. -/
def Severity.word : Severity → String
  | .debug => "DEBUG"
  | .info => "INFO"
  | .warn => "WARN"

/-- Something worth telling. -/
inductive Event where
  | symbolTable (kept ignored : Nat)
  | unitsStopped (cause : Dwarf.Fault)
  | entriesCut (start : Nat) (cause : Dwarf.Fault)
  | unitSkipped (start : Nat) (cause : Dwarf.Fault)
  | unitsLoaded (count : Nat)
  | rootlessUnit (index : Nat) (info : UnitInfo)
  | unitWalked (index : Nat) (info : UnitInfo) (stats : WalkStats)
  | unreadableTags (count : Nat)
  | noParameters (path : String) (failure : Failure)
  | summary (path : String) (symbols units addresses matched : Nat)
  | contested (collisions : Nat) (policy : DuplicatePolicy)
  deriving DecidableEq, Repr, Inhabited

/-- The name of a policy in an event. -/
def DuplicatePolicy.title : DuplicatePolicy → String
  | .firstWins => "FirstWins"
  | .lastWins => "LastWins"

namespace Event

/-- How much an event matters: faults are warnings, the closing summary is
information, all else is detail. -/
def severity : Event → Severity
  | unitsStopped _ | entriesCut .. | unitSkipped .. | noParameters .. => .warn
  | summary .. => .info
  | symbolTable .. | unitsLoaded _ | rootlessUnit .. | unitWalked .. | unreadableTags _
  | contested .. => .debug

/-- The text of an event. -/
def message : Event → String
  | symbolTable kept ignored =>
    s!"symbol table: {kept} function symbols kept, {ignored} entries ignored"
  | unitsStopped cause => "stopping compile unit enumeration: " ++ cause.message
  | entriesCut start cause =>
    "unit at " ++ Hex.marked start ++ ": DIE list ends early: " ++ cause.message
  | unitSkipped start cause =>
    "skipping compile unit at " ++ Hex.marked start ++ ": " ++ cause.message
  | unitsLoaded count => s!"loaded {count} compile units"
  | rootlessUnit index info => s!"compile unit {index} at {info.offset.text} has no root DIE"
  | unitWalked index info stats =>
    s!"unit {index} at {info.offset.text} (DWARF {info.version}, " ++
      s!"{info.addressSize}-byte addresses): {stats.visited} DIEs, " ++
      s!"{stats.subprograms} subprograms"
  | unreadableTags count => s!"{count} DIEs with unreadable tags were skipped"
  | noParameters path failure =>
    path ++ ": " ++ failure.message ++ "; no parameters will be reported"
  | summary path symbols units addresses matched =>
    s!"{path}: {symbols} function symbols, {units} compile units, " ++
      s!"{addresses} subprogram addresses, {matched} matched"
  | contested collisions policy =>
    s!"{collisions} entry addresses were claimed more than once ({policy.title})"

/-- One line of a log. -/
def line (e : Event) : String := e.severity.word ++ " " ++ e.message

end Event
end ParamAtlas
