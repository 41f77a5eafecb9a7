/-
# What the section of line programs decides

Nothing that is told of an entry comes from the section of line programs
(`Store.forest_congr`), and line programs are not run.  Yet a unit is passed over
if the line program that its root points to has a header that cannot be read, so
what that section holds does decide which units are loaded.

Two stores that differ in that section only (`withLine`) yield the same
extraction exactly if the headers to which units point (`PointsTo`) can be read
in both or in neither (`sameExtraction_withLine_iff`).  Units have different
starts, so a unit that is loaded from one of them alone shows.
-/

import ParamAtlas.Forest.Harvest
import ParamAtlas.Proofs.Dwarf.Loading

namespace ParamAtlas
namespace Dwarf
namespace Sections

/-- The same sections with another one of line programs. -/
def withLine (S : Sections) (line : Bytes) : Sections := { S with line := line }

/-- Two stores have the same units, and the same is gathered from them, whatever
was in the table before: parameters, number of units, counts of the walks. -/
structure SameExtraction (A B : Sections) : Prop where
  units : A.load.units = B.load.units
  harvest : ∀ t, (Store.ofSections A).forest.harvest t = (Store.ofSections B).forest.harvest t

/-- The header of a line program can be read. -/
def LineReadable (S : Sections) (o : Nat) : Prop :=
  ((Reader.lineHeader S.order).value? S.line o).isSome

instance (S : Sections) (o : Nat) : Decidable (S.LineReadable o) :=
  inferInstanceAs (Decidable (_ = true))

/-- The root of a unit points to a line program, and nothing else keeps the unit
from being loaded. -/
def PointsTo (S : Sections) (raw : RawUnit) (o : Nat) : Prop :=
  ∃ list values, S.rootValues raw = .ok (list, values) ∧
    S.checkEntryAddress list.encoding.addressSize (addressBase values) values = .ok () ∧
    lastOffset? [AttributeCode.lineProgram] values = some o

/-- A line program is in order if the root names none, or one whose header can be read. -/
theorem checkLineProgram_eq_ok_iff (S : Sections) (values : List (AttributeCode × Value)) :
    S.checkLineProgram values = .ok () ↔
      ∀ o, lastOffset? [AttributeCode.lineProgram] values = some o → S.LineReadable o := by
  unfold checkLineProgram LineReadable Reader.value?
  cases lastOffset? [AttributeCode.lineProgram] values with
  | none => simp
  | some o => cases hrun : (Reader.lineHeader S.order).run S.line o <;> simp [hrun]

/-- A unit that points to a line program is loaded exactly if the header there
can be read. -/
theorem PointsTo.isSome_loadUnit?_iff {S : Sections} {raw : RawUnit} {o : Nat}
    (h : S.PointsTo raw o) : (S.loadUnit? raw).isSome ↔ S.LineReadable o := by
  obtain ⟨list, values, hroot, haddress, ho⟩ := h
  rw [Option.isSome_iff_exists]
  constructor
  · rintro ⟨u, hu⟩
    obtain ⟨list', values', hroot', hline, -, -⟩ := (S.loadUnit?_eq_some_iff raw u).1 hu
    cases hroot.symm.trans hroot'
    exact (S.checkLineProgram_eq_ok_iff values).1 hline o ho
  · intro hread
    refine ⟨_, (S.loadUnit?_eq_some_iff raw _).2 ⟨list, values, hroot, ?_, haddress, rfl⟩⟩
    refine (S.checkLineProgram_eq_ok_iff values).2 fun o' ho' => ?_
    cases ho.symm.trans ho'
    exact hread

/-! ## Another section of line programs -/

/-- Raw units do not depend on the line section. -/
theorem rawUnitsFrom_withLine (S : Sections) (line : Bytes) (start : Nat) :
    (S.withLine line).rawUnitsFrom start = S.rawUnitsFrom start := by
  fun_induction S.rawUnitsFrom start with
  | case1 start hlt f hraw => exact rawUnitsFrom_fault hraw
  | case2 start hlt raw hraw ih =>
    rw [← ih]
    exact rawUnitsFrom_unit hraw
  | case3 start hlt => exact rawUnitsFrom_end (Nat.le_of_not_lt hlt)

/-- Neither do those from the start on. -/
theorem rawUnits_withLine (S : Sections) (line : Bytes) :
    (S.withLine line).rawUnits = S.rawUnits :=
  S.rawUnitsFrom_withLine line 0

/-- A unit that is loaded stays loaded, as the same, if the header to which it
points can still be read. -/
theorem loadUnit?_withLine {S : Sections} {line line' : Bytes} {raw : RawUnit} {u : LoadedUnit}
    (h : ∀ o, S.PointsTo raw o →
      (S.withLine line).LineReadable o → (S.withLine line').LineReadable o)
    (hu : (S.withLine line).loadUnit? raw = some u) :
    (S.withLine line').loadUnit? raw = some u := by
  obtain ⟨list, values, hroot, hline, haddress, hassembled⟩ :=
    (loadUnit?_eq_some_iff _ raw u).1 hu
  refine (loadUnit?_eq_some_iff _ raw u).2 ⟨list, values, hroot, ?_, haddress, hassembled⟩
  rw [checkLineProgram_eq_ok_iff] at hline ⊢
  exact fun o ho => h o ⟨list, values, hroot, haddress, ho⟩ (hline o ho)

/-- **Where the same units are loaded the same is extracted.** -/
theorem sameExtraction_of_units {S : Sections} {line line' : Bytes}
    (h : (S.withLine line).load.units = (S.withLine line').load.units) :
    SameExtraction (S.withLine line) (S.withLine line') where
  units := h
  harvest t := by
    rw [Store.ofSections, Store.ofSections, h,
      Store.forest_congr (A := S.withLine line) (B := S.withLine line') rfl rfl rfl rfl rfl]

/-- **What the section of line programs decides.**  Two stores that differ in it
only yield the same extraction exactly if each header to which a unit points can
be read in both or in neither. -/
theorem sameExtraction_withLine_iff (S : Sections) (line line' : Bytes) :
    SameExtraction (S.withLine line) (S.withLine line') ↔
      ∀ raw ∈ S.rawUnits, ∀ o, S.PointsTo raw o →
        ((S.withLine line).LineReadable o ↔ (S.withLine line').LineReadable o) := by
  constructor
  · intro h raw hraw o ho
    have hleft : (S.withLine line).PointsTo raw o := ho
    have hright : (S.withLine line').PointsTo raw o := ho
    rw [← hleft.isSome_loadUnit?_iff, ← hright.isSome_loadUnit?_iff,
      isSome_loadUnit?_iff (S.rawUnits_withLine line ▸ hraw),
      isSome_loadUnit?_iff (S.rawUnits_withLine line' ▸ hraw), h.units]
  · intro h
    refine sameExtraction_of_units (Array.toList_inj.1 ?_)
    rw [toList_units_load, toList_units_load, rawUnits_withLine, rawUnits_withLine]
    refine List.filterMap_congr fun raw hraw => Option.ext fun u => ?_
    exact ⟨loadUnit?_withLine fun o ho => (h raw hraw o ho).1,
      loadUnit?_withLine fun o ho => (h raw hraw o ho).2⟩

/-- Without a line program the one unit is passed over. -/
theorem loadUnit?_oneUnit_empty : (oneUnit #[]).loadUnit? oneRawUnit = none := by
  have hpoints : (oneUnit #[]).PointsTo oneRawUnit 0 := ⟨_, _, rootValues_oneUnit #[], rfl, rfl⟩
  have hunread : ¬(oneUnit #[]).LineReadable 0 := by decide
  exact Option.not_isSome_iff_eq_none.1 (mt hpoints.isSome_loadUnit?_iff.1 hunread)

/-- **The section of line programs is not without influence:** a unit is loaded
with a bare header there and passed over with nothing there. -/
theorem not_forall_sameExtraction_withLine :
    ¬∀ (S : Sections) (line line' : Bytes),
      SameExtraction (S.withLine line) (S.withLine line') := by
  intro hall
  have hunits : (oneUnit bareLine).load.units = (oneUnit #[]).load.units :=
    (hall (oneUnit #[]) bareLine #[]).units
  have hleft := toList_units_oneUnit lineHeader_bareLine
  rw [hunits, toList_units_load, rawUnits_oneUnit, List.filterMap_cons,
    loadUnit?_oneUnit_empty] at hleft
  cases hleft

end Sections
end Dwarf
end ParamAtlas
