/-
# Harvesting a forest

`CompileUnits` and `collect_parameters`; specification, section 4.2.

Units are taken in order of their index.  One without header information is
passed over in silence, one without a root entry with an event, and every
other one is walked; each subprogram that the walk visits is committed to the
table, in visiting order.
-/
import ParamAtlas.Forest.Origin
import ParamAtlas.Event

namespace ParamAtlas

/-- A unit ready to be walked. -/
structure CompileUnit (ε : Type) where
  index : Nat
  info : UnitInfo
  root : ε

/-- What is found at an index: no header information, no root entry, or a unit
ready to be walked. -/
inductive UnitSlot (ε : Type) where
  | blank
  | rootless (index : Nat) (info : UnitInfo)
  | unit (u : CompileUnit ε)

/-- What a harvest yields: the table, the number of units walked, the counts of
their walks together, and what was told on the way. -/
structure Harvest where
  table : ParameterTable
  units : Nat
  stats : WalkStats
  events : Array Event

namespace UnitSlot

variable {ε : Type}

/-- The unit at an index, if it can be walked. -/
def unit? : UnitSlot ε → Option (CompileUnit ε)
  | blank => none
  | rootless .. => none
  | unit u => some u

/-- What looking at an index has to tell. -/
def event? : UnitSlot ε → Option Event
  | blank => none
  | rootless index info => some (.rootlessUnit index info)
  | unit _ => none

end UnitSlot

namespace Forest

variable {ε : Type}

/-- Looks at one index. -/
def unitSlot (F : Forest ε) (index : Nat) : UnitSlot ε :=
  match F.unitInfo index with
  | none => .blank
  | some info =>
    match F.unitRoot index with
    | none => .rootless index info
    | some root => .unit ⟨index, info, root⟩

/-- All indexes in order. -/
def unitSlots (F : Forest ε) : List (UnitSlot ε) := (List.range F.unitCount).map F.unitSlot

/-- The units that can be walked, in order. -/
def compileUnits (F : Forest ε) : List (CompileUnit ε) := F.unitSlots.filterMap (·.unit?)

/-- The visitor of a harvest: it commits what it is given to the table. -/
def commitTo (F : Forest ε) (t : ParameterTable) (e : ε) : ParameterTable :=
  (t.commit (F.subprogram e)).1

/-- Adds what one index yields to a harvest. -/
def gather (F : Forest ε) (h : Harvest) : UnitSlot ε → Harvest
  | .blank => h
  | .rootless index info => { h with events := h.events.push (.rootlessUnit index info) }
  | .unit u =>
    let (stats, table) := F.walk F.commitTo h.table u.root
    { table := table
      units := h.units + 1
      stats := h.stats + stats
      events := h.events.push (.unitWalked u.index u.info stats) }

/-- Commits every subprogram of every unit to a table. -/
def harvest (F : Forest ε) (table : ParameterTable) : Harvest :=
  F.unitSlots.foldl F.gather ⟨table, 0, .zero, #[]⟩

end Forest
end ParamAtlas
