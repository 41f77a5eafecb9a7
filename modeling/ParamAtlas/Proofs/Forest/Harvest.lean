/-
# Which subprogram an address goes to

A harvest walks one unit after another and commits every subprogram that a walk
reaches.  Its table is therefore that of one history of commits, the
subprograms of all units in order of the index and, within a unit, of the walk
(`Forest.reached`, `table_harvest`).  The entries of that list with a certain
entry address are its claimants, and the address goes to the first or the last
of them (`get?_harvest`).
-/

import ParamAtlas.Forest.Harvest
import ParamAtlas.Proofs.Forest.Walk
import ParamAtlas.Proofs.ParameterTable

namespace ParamAtlas
namespace Forest

variable {ε : Type}

/-- The subprograms that the walk of a unit reaches, in order: none without
header information or without a root. -/
def reachedIn (F : Forest ε) (i : Nat) : List ε :=
  match F.unitInfo i, F.unitRoot i with
  | some _, some root => F.subprogramsOf (F.visits root)
  | _, _ => []

/-- All subprograms that a harvest reaches: unit after unit, each in order of
its walk. -/
def reached (F : Forest ε) : List ε := (List.range F.unitCount).flatMap F.reachedIn

/-- The subprograms reached whose entry address is `a`, in order. -/
def claimants (F : Forest ε) (a : Address) : List ε :=
  F.reached.filter (F.address · .lowPc = some a)

/-- **Walking a unit** commits the subprograms that are visited, in order, and counts
the entries visited. -/
theorem gather_unit (F : Forest ε) (h : Harvest) (u : CompileUnit ε) :
    F.gather h (.unit u) =
      { table := h.table.commitAll ((F.subprogramsOf (F.visits u.root)).map F.subprogram)
        units := h.units + 1
        stats := h.stats + F.statsOf (F.visits u.root)
        events := h.events.push (.unitWalked u.index u.info (F.statsOf (F.visits u.root))) } := by
  rw [gather, walk_eq, ParameterTable.commitAll, List.foldl_map]
  rfl

/-- Taking in one unit commits the subprograms reached in it. -/
theorem table_gather (F : Forest ε) (h : Harvest) (i : Nat) :
    (F.gather h (F.unitSlot i)).table = h.table.commitAll ((F.reachedIn i).map F.subprogram) := by
  unfold unitSlot reachedIn
  cases F.unitInfo i with
  | none => rfl
  | some info =>
    cases F.unitRoot i with
    | none => rfl
    | some root => exact congrArg Harvest.table (F.gather_unit h ⟨i, info, root⟩)

/-- Taking in units one after another commits all that is reached in them. -/
theorem table_foldl_gather (F : Forest ε) (h : Harvest) (indices : List Nat) :
    ((indices.map F.unitSlot).foldl F.gather h).table =
      h.table.commitAll ((indices.flatMap F.reachedIn).map F.subprogram) := by
  induction indices generalizing h with
  | nil => rfl
  | cons i rest ih =>
    rw [List.map_cons, List.foldl_cons, ih, table_gather, List.flatMap_cons, List.map_append,
      ParameterTable.commitAll_append]

/-- **A harvest is one history of commits.** -/
theorem table_harvest (F : Forest ε) (t : ParameterTable) :
    (F.harvest t).table = t.commitAll (F.reached.map F.subprogram) :=
  F.table_foldl_gather _ _

/-- Among the subprograms reached, those that claim a nonzero address are the
ones whose entry address it is: an absent address counts as 0. -/
theorem filter_subprogram_reached (F : Forest ε) {a : Address} (ha : a ≠ 0) :
    (F.reached.map F.subprogram).filter (·.address = a) = (F.claimants a).map F.subprogram := by
  rw [List.filter_map, claimants]
  congr 1
  refine List.filter_congr fun e _ => ?_
  rw [Function.comp_apply, decide_eq_decide]
  cases h : F.address e .lowPc with
  | none => simp [subprogram, h, Ne.symm ha]
  | some b => simp [subprogram, h]

/-- **An address goes to the winner of its claimants**, and address 0 to none. -/
theorem get?_harvest (F : Forest ε) (p : DuplicatePolicy) (a : Address) :
    (F.harvest (.empty p)).table.get? a =
      if a = 0 then none
      else (p.winner? (F.claimants a)).map fun e => (F.parameterEntries e).map F.parameter := by
  rw [table_harvest, ParameterTable.get?_commitAll_empty]
  refine ite_congr rfl (fun _ => rfl) fun ha => ?_
  rw [filter_subprogram_reached F ha, DuplicatePolicy.winner?_map, Option.map_map]
  rfl

end Forest
end ParamAtlas
