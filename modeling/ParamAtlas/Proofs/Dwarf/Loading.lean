/-
# Which units are loaded

Headers are read one behind another, up to the first that cannot be read
(`Sections.rawUnits`), and each unit is loaded or passed over on its own, so the
units of a store are those of that list that can be loaded, in the same order
(`toList_units_load`).  They do not overlap (`separated_rawUnits`), so their
starts rise, and whether one of them was loaded shows in the store
(`isSome_loadUnit?_iff`).

Whether a unit can be loaded depends on the values of its root entry
(`rootValues`) and on two checks of them, one of the line program and one of
the entry address.  What is loaded then depends on the entries and these values
alone (`assembled`, `loadUnit?_eq_some_iff`).

Once units are loaded, the sections of entries and of line programs are not read
again (`forest_congr`).
-/

import Mathlib.Data.List.Nodup
import ParamAtlas.Dwarf.Store
import ParamAtlas.Proofs.Dwarf.Scan

namespace ParamAtlas
namespace Dwarf

/-- Two steps go well exactly if each of them does. -/
theorem except_bind_eq_ok {φ α β : Type} {x : Except φ α} {f : α → Except φ β} {b : β} :
    (x >>= f) = .ok b ↔ ∃ a, x = .ok a ∧ f a = .ok b := by
  cases x <;> simp [bind, Except.bind]

namespace Reader

/-- A table ends at a reading that gives no abbreviation. -/
theorem abbreviationsFrom_end {b : Bytes} {p q : Nat} {table : Abbreviations}
    (h : abbreviation.run b p = .ok (none, q)) :
    (abbreviationsFrom table).run b p = .ok (table, q) := by
  simp only [abbreviationsFrom, loop]
  rw [loopFrom.eq_def]
  simp [bind, andThen, h, give]

/-- An abbreviation with a new code is added to the table. -/
theorem abbreviationsFrom_entry {b : Bytes} {p q code : Nat} {a : Abbreviation}
    {table : Abbreviations} (h : abbreviation.run b p = .ok (some (code, a), q))
    (hcode : code ∉ table) (hq : p < q ∧ q ≤ b.size) :
    (abbreviationsFrom table).run b p = (abbreviationsFrom (table.insert code a)).run b q := by
  simp only [abbreviationsFrom, loop]
  rw [loopFrom.eq_def]
  simp [bind, andThen, h, give, hcode, hq]

end Reader

namespace Sections

/-! ## Headers one behind another -/

/-- The units from an offset on, up to the first whose header cannot be read. -/
def rawUnitsFrom (S : Sections) (start : Nat) : List RawUnit :=
  if start < S.info.size then
    match _ : S.rawUnit start with
    | .error _ => []
    | .ok raw => raw :: S.rawUnitsFrom (start + raw.bytes.size)
  else []
termination_by S.info.size - start
decreasing_by have := S.lt_rawUnit_end _ _ ‹_›; omega

/-- The units up to the first whose header cannot be read. -/
def rawUnits (S : Sections) : List RawUnit := S.rawUnitsFrom 0

/-- The unit that is loaded, if it can be. -/
def loadUnit? (S : Sections) (raw : RawUnit) : Option LoadedUnit :=
  match S.loadUnit raw with
  | .ok (u, _) => some u
  | .error _ => none

/-- **When a unit is loaded, and as what.** -/
theorem loadUnit?_eq_some_iff (S : Sections) (raw : RawUnit) (u : LoadedUnit) :
    S.loadUnit? raw = some u ↔
      ∃ list values, S.rootValues raw = .ok (list, values) ∧
        S.checkLineProgram values = .ok () ∧
        S.checkEntryAddress list.encoding.addressSize (addressBase values) values = .ok () ∧
        u = (assembled raw.start list values).1 := by
  have hload : S.loadUnit? raw = some u ↔ ∃ f, S.loadUnit raw = .ok (u, f) := by
    unfold loadUnit?
    split <;> simp_all
  simp only [hload, loadUnit, except_bind_eq_ok]
  constructor
  · rintro ⟨f, ⟨list, values⟩, hroot, ⟨⟩, hline, ⟨⟩, haddress, heq⟩
    exact ⟨list, values, hroot, hline, haddress, (congrArg Prod.fst (Except.ok.inj heq)).symm⟩
  · rintro ⟨list, values, hroot, hline, haddress, rfl⟩
    exact ⟨_, (list, values), hroot, (), hline, (), haddress, rfl⟩

/-- Behind the section there is no unit. -/
theorem rawUnitsFrom_end {S : Sections} {start : Nat} (h : S.info.size ≤ start) :
    S.rawUnitsFrom start = [] := by
  rw [rawUnitsFrom, if_neg (by omega)]

/-- A header that cannot be read ends the units. -/
theorem rawUnitsFrom_fault {S : Sections} {start : Nat} {f : Fault}
    (h : S.rawUnit start = .error f) : S.rawUnitsFrom start = [] := by
  rw [rawUnitsFrom]
  split
  · split <;> simp_all
  · rfl

/-- A unit that can be read is followed by those from its end on. -/
theorem rawUnitsFrom_unit {S : Sections} {start : Nat} {raw : RawUnit}
    (h : S.rawUnit start = .ok raw) :
    S.rawUnitsFrom start = raw :: S.rawUnitsFrom (start + raw.bytes.size) := by
  have := S.lt_rawUnit_end _ _ h
  rw [rawUnitsFrom, if_pos (by omega)]
  split <;> simp_all

/-- A raw unit adds the unit that it can be loaded as, if it can. -/
theorem toList_units_add (l : Loading) (start : Nat) (S : Sections) (raw : RawUnit) :
    (l.add start (S.loadUnit raw)).units.toList =
      l.units.toList ++ (S.loadUnit? raw).toList := by
  unfold loadUnit?
  rcases S.loadUnit raw with f | ⟨u, _ | f⟩ <;> simp [Loading.add]

/-- **The units loaded are the raw ones that can be loaded,** in their order. -/
theorem toList_units_loadFrom (S : Sections) (l : Loading) (start : Nat) :
    (S.loadFrom l start).units.toList =
      l.units.toList ++ (S.rawUnitsFrom start).filterMap S.loadUnit? := by
  fun_induction S.loadFrom l start with
  | case1 l start hlt f hraw => simp [rawUnitsFrom_fault hraw]
  | case2 l start hlt raw hraw ih =>
    rw [ih, rawUnitsFrom_unit hraw, toList_units_add, List.append_assoc]
    cases h : S.loadUnit? raw <;> simp [h]
  | case3 l start hlt => simp [rawUnitsFrom_end (Nat.le_of_not_lt hlt)]

/-- **The units of a store** are those of the units in a row that can be loaded. -/
theorem toList_units_load (S : Sections) :
    S.load.units.toList = S.rawUnits.filterMap S.loadUnit? := by
  rw [load, toList_units_loadFrom]
  rfl

/-- A unit of a store is one of those loaded. -/
theorem mem_load_of_getElem? {S : Sections} {i : Nat} {u : LoadedUnit}
    (hu : (Store.ofSections S).units[i]? = some u) : u ∈ S.load.units.toList :=
  Array.mem_toList_iff.2 (Array.mem_of_getElem? hu)

/-- How a unit is read: its length, its bytes, and the rest of its header within them. -/
theorem rawUnit_eq_ok_iff {S : Sections} {start : Nat} {raw : RawUnit} :
    S.rawUnit start = .ok raw ↔ ∃ length format p,
      (Reader.initialLength S.order).run S.info start = .ok ((length, format), p) ∧
        S.info.slice? start (p - start + length) = some raw.bytes ∧
        (Reader.unitHeader S.order format).run raw.bytes (p - start) =
          .ok (raw.header, raw.headerSize) ∧
        raw.start = start := by
  unfold rawUnit
  constructor
  · intro h
    split at h
    · cases h
    · rename_i length format p hlength
      split at h
      · cases h
      · rename_i bytes hbytes
        split at h
        · cases h
        · rename_i header size hheader
          cases h
          exact ⟨length, format, p, hlength, hbytes, hheader, rfl⟩
  · rintro ⟨length, format, p, hlength, hbytes, hheader, rfl⟩
    simp only [hlength, hbytes, hheader]

/-- A raw unit knows where it starts. -/
theorem start_rawUnit {S : Sections} {start : Nat} {raw : RawUnit}
    (h : S.rawUnit start = .ok raw) : raw.start = start := by
  obtain ⟨-, -, -, -, -, -, hstart⟩ := rawUnit_eq_ok_iff.1 h
  exact hstart

/-- Raw units lie in the section, behind where reading starts, and none is empty. -/
theorem bounds_rawUnitsFrom (S : Sections) (start : Nat) :
    ∀ raw ∈ S.rawUnitsFrom start, start ≤ raw.start ∧ raw.start < raw.start + raw.bytes.size ∧
      raw.start + raw.bytes.size ≤ S.info.size := by
  fun_induction S.rawUnitsFrom start with
  | case1 => simp
  | case2 start hlt raw hraw ih =>
    have hend := S.lt_rawUnit_end _ _ hraw
    intro r hr
    rcases List.mem_cons.1 hr with rfl | hr
    · rw [start_rawUnit hraw]
      exact ⟨Nat.le_refl _, hend⟩
    · have := ih r hr
      omega
  | case3 => simp

/-- **Units in a row do not overlap.** -/
theorem separated_rawUnits (S : Sections) :
    S.rawUnits.Pairwise fun a b => a.start + a.bytes.size ≤ b.start := by
  unfold rawUnits
  fun_induction S.rawUnitsFrom 0 with
  | case1 => exact .nil
  | case2 start hlt raw hraw ih =>
    refine .cons (fun r hr => ?_) ih
    rw [start_rawUnit hraw]
    exact (S.bounds_rawUnitsFrom _ r hr).1
  | case3 => exact .nil

/-- **The starts of units in a row rise.** -/
theorem ascending_rawUnits (S : Sections) : S.rawUnits.Pairwise (·.start < ·.start) :=
  S.separated_rawUnits.imp_of_mem fun ha _ hab =>
    Nat.lt_of_lt_of_le (S.bounds_rawUnitsFrom _ _ ha).2.1 hab

/-- **A unit stays where it was** when it is loaded: it keeps its start, its bytes and
where its header ends. -/
theorem places_of_loadUnit? {S : Sections} {raw : RawUnit} {u : LoadedUnit}
    (h : S.loadUnit? raw = some u) :
    u.start = raw.start ∧ u.bytes = raw.bytes ∧ u.headerSize = raw.headerSize := by
  obtain ⟨list, values, hroot, -, -, rfl⟩ := (S.loadUnit?_eq_some_iff raw u).1 h
  simp only [rootValues, except_bind_eq_ok] at hroot
  obtain ⟨_, _, _, _, _, _, heq⟩ := hroot
  cases heq
  exact ⟨rfl, rfl, rfl⟩

/-- A loaded unit ends within the section of entries. -/
theorem end_le_of_mem_load {S : Sections} {u : LoadedUnit} (hu : u ∈ S.load.units.toList) :
    u.start + u.bytes.size ≤ S.info.size := by
  rw [toList_units_load] at hu
  obtain ⟨raw, hraw, hload⟩ := List.mem_filterMap.1 hu
  obtain ⟨hstart, hbytes, -⟩ := places_of_loadUnit? hload
  rw [hstart, hbytes]
  exact (S.bounds_rawUnitsFrom _ raw hraw).2.2

/-- **Loaded units do not overlap.** -/
theorem separated_load (S : Sections) :
    S.load.units.toList.Pairwise fun u v => u.start + u.bytes.size ≤ v.start := by
  rw [toList_units_load]
  refine List.Pairwise.filterMap _ (fun a b hab u hu v hv => ?_) S.separated_rawUnits
  obtain ⟨hstart, hbytes, -⟩ := places_of_loadUnit? hu
  rw [hstart, hbytes, (places_of_loadUnit? hv).1]
  exact hab

/-- **Whether a unit was loaded shows in the starts** of the units loaded. -/
theorem isSome_loadUnit?_iff {S : Sections} {raw : RawUnit} (h : raw ∈ S.rawUnits) :
    (S.loadUnit? raw).isSome ↔ ∃ u ∈ S.load.units.toList, u.start = raw.start := by
  rw [toList_units_load]
  constructor
  · intro hload
    obtain ⟨u, hu⟩ := Option.isSome_iff_exists.1 hload
    exact ⟨u, List.mem_filterMap.2 ⟨raw, h, hu⟩, (places_of_loadUnit? hu).1⟩
  · rintro ⟨u, hmem, hstart⟩
    obtain ⟨raw', hraw', hu⟩ := List.mem_filterMap.1 hmem
    have hnodup : (S.rawUnits.map (·.start)).Nodup :=
      List.pairwise_map.2 (S.ascending_rawUnits.imp Nat.ne_of_lt)
    have := List.inj_on_of_nodup_map hnodup hraw' h ((places_of_loadUnit? hu).1.symm.trans hstart)
    rw [← this, hu]
    rfl

end Sections

namespace Store

/-- Which unit starts last before an offset is a matter of the units alone. -/
theorem lastStarting_congr (A B : Sections) (units : Array LoadedUnit) (o n : Nat) :
    (Store.mk A units).lastStarting o n = (Store.mk B units).lastStarting o n := by
  induction n with
  | zero => rfl
  | succ n ih => simp only [lastStarting, ih]

/-- **What a store answers** comes from its units and from the sections that the values
of attributes point into. -/
theorem forest_congr {A B : Sections} (horder : A.order = B.order) (htext : A.text = B.text)
    (hlineText : A.lineText = B.lineText) (htextOffsets : A.textOffsets = B.textOffsets)
    (haddresses : A.addresses = B.addresses) (units : Array LoadedUnit) :
    (Store.mk A units).forest = (Store.mk B units).forest := by
  have hentryAt : (Store.mk A units).entryAt? = (Store.mk B units).entryAt? := by
    funext r
    simp only [entryAt?, lastStarting_congr A B]
  cases A
  cases B
  subst horder htext hlineText htextOffsets haddresses
  unfold forest
  congr 1

end Store

namespace Sections

/-! ## A store of one unit

A table of abbreviations is a hash map, which does not evaluate inside a proof, so
this unit is loaded step by step, and each entry of its table is found by lemma. -/

/-- One unit, in which a subprogram at address 16 stands below a root that points
to a line program. -/
def oneUnit (line : Bytes) : Sections where
  order := .little
  info := #[22, 0, 0, 0, 4, 0, 0, 0, 0, 0, 8, 1, 0, 0, 0, 0, 2, 16, 0, 0, 0, 0, 0, 0, 0, 0]
  abbreviations := #[1, 17, 1, 16, 23, 0, 0, 2, 46, 0, 17, 1, 0, 0, 0]
  text := #[]
  lineText := #[]
  textOffsets := #[]
  addresses := #[]
  line := line

/-- That unit before it is loaded. -/
def oneRawUnit : RawUnit := ⟨0, (oneUnit #[]).info, ⟨⟨.little, .bits32, 4, 8⟩, 0⟩, 11⟩

/-- The entries of that unit. -/
def oneEntryList : EntryList where
  encoding := oneRawUnit.header.encoding
  abbreviations := ((∅ : Abbreviations).insert 1 ⟨0x11, true, [⟨0x10, 0x17, false⟩]⟩).insert 2
    ⟨0x2e, false, [⟨0x11, 0x01, false⟩]⟩
  bytes := oneRawUnit.bytes
  headerSize := oneRawUnit.headerSize

/-- The section has one raw unit. -/
theorem rawUnits_oneUnit (line : Bytes) : (oneUnit line).rawUnits = [oneRawUnit] := by
  have hraw : (oneUnit line).rawUnit 0 = .ok oneRawUnit := by cbv
  rw [rawUnits, rawUnitsFrom_unit hraw, rawUnitsFrom_end (by simp [oneUnit, oneRawUnit])]

/-- Its abbreviations can be read. -/
theorem abbreviations_oneUnit (line : Bytes) :
    Reader.abbreviations.run (oneUnit line).abbreviations 0 =
      .ok (oneEntryList.abbreviations, 15) := by
  have h₁ : Reader.abbreviation.run (oneUnit line).abbreviations 0 =
      .ok (some (1, ⟨0x11, true, [⟨0x10, 0x17, false⟩]⟩), 7) := by cbv
  have h₂ : Reader.abbreviation.run (oneUnit line).abbreviations 7 =
      .ok (some (2, ⟨0x2e, false, [⟨0x11, 0x01, false⟩]⟩), 14) := by cbv
  have h₃ : Reader.abbreviation.run (oneUnit line).abbreviations 14 = .ok (none, 15) := by cbv
  refine (Reader.abbreviationsFrom_entry h₁ (by simp) (by simp [oneUnit])).trans ?_
  rw [Reader.abbreviationsFrom_entry h₂ (by simp) (by simp [oneUnit]),
    Reader.abbreviationsFrom_end h₃]
  rfl

/-- Its root is behind its header, has children and one attribute. -/
theorem headAt?_oneEntryList :
    oneEntryList.headAt? oneEntryList.headerSize =
      some ⟨⟨0x11, true, [⟨0x10, 0x17, false⟩]⟩, 12⟩ := by
  have hcode : Reader.unsigned.run oneEntryList.bytes oneEntryList.headerSize = .ok (1, 12) := by
    cbv
  refine EntryList.headAt?_eq_some_iff.2 ⟨Nat.le_refl _, by decide, ?_⟩
  exact EntryList.code_of_getElem? hcode (by decide) (by grind [oneEntryList])

/-- The root refers to the start of the line section. -/
theorem rootValues_oneUnit (line : Bytes) :
    (oneUnit line).rootValues oneRawUnit =
      .ok (oneEntryList, [(AttributeCode.lineProgram, .sectionOffset 0)]) := by
  have hroot := EntryList.root_of_headAt? headAt?_oneEntryList
  have hvalues : (Reader.values oneEntryList.encoding [⟨0x10, 0x17, false⟩]).run
      oneEntryList.bytes 12 = .ok ([(AttributeCode.lineProgram, .sectionOffset 0)], 16) := by cbv
  simp only [rootValues, except_bind_eq_ok]
  exact ⟨_, abbreviations_oneUnit line, _, hroot, _, hvalues, rfl⟩

/-- That unit, ready for use. -/
def oneLoadedUnit : LoadedUnit :=
  (assembled 0 oneEntryList [(AttributeCode.lineProgram, .sectionOffset 0)]).1

/-- The unit is loaded if its line program has a header that can be read. -/
theorem toList_units_oneUnit {line : Bytes} {q : Nat}
    (hline : (Reader.lineHeader .little).run line 0 = .ok ((), q)) :
    (oneUnit line).load.units.toList = [oneLoadedUnit] := by
  have hcheck : (oneUnit line).checkLineProgram [(AttributeCode.lineProgram, .sectionOffset 0)] =
      .ok () := by
    rw [checkLineProgram, show lastOffset? [AttributeCode.lineProgram]
      [(AttributeCode.lineProgram, .sectionOffset 0)] = some 0 from rfl]
    simp only [show (oneUnit line).order = .little from rfl,
      show (oneUnit line).line = line from rfl, hline]
  have hload := (loadUnit?_eq_some_iff (oneUnit line) oneRawUnit _).2
    ⟨_, _, rootValues_oneUnit line, hcheck, rfl, rfl⟩
  rw [toList_units_load, rawUnits_oneUnit, List.filterMap_cons, hload]
  rfl

/-- A line program with a header, and nothing in it. -/
def bareLine : Bytes := #[14, 0, 0, 0, 4, 0, 8, 0, 0, 0, 1, 1, 0, 0, 1, 1, 0, 0]

/-- The line program there has a header that can be read. -/
theorem lineHeader_bareLine : (Reader.lineHeader .little).run bareLine 0 = .ok ((), 18) := by
  cbv

end Sections
end Dwarf
end ParamAtlas
