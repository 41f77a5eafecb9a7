/-
# What stands at an offset

Any offset may be looked up, also one that no entry was handed out for.  It finds
an entry exactly if some loaded unit has a code for it (`HasEntryAt`): behind the
header of the unit, before its end, and with a code there that is in the table of
the unit.  Codes 0 end a list, so they are no entries.

Loaded units do not overlap, so there is one such unit at most, and what is found
belongs to it and stands at that very offset (`entryAt_iff`).  The lookup knows the
starts of the loaded units only, and asks the last unit that starts at or before the
offset (`lastStarting_eq_countP`).  For an offset outside all loaded units that unit
ends too early, and for one in a header its entries begin too late:

| offset (`Vacant`) | why nothing is found |
| --- | --- |
| in the header of a unit | it is before the entries of that unit |
| in a unit that was passed over | the unit before it ends where this one starts, or earlier |
| in no unit | every unit ends before it or starts behind it |
| behind the section | no unit reaches so far |
-/

import Mathlib.Data.List.Pairwise
import ParamAtlas.Proofs.Dwarf.Decoding
import ParamAtlas.Proofs.Dwarf.LineProgram
import ParamAtlas.Proofs.Dwarf.Lookup

namespace ParamAtlas
namespace Dwarf

namespace EntryList

/-- A code with an abbreviation is a number other than 0 that the table has. -/
theorem code_eq_some_iff {u : EntryList} {o q : Nat} {a : Abbreviation} :
    u.code.run u.bytes o = .ok (some a, q) ↔
      ∃ c, Reader.unsigned.run u.bytes o = .ok (c, q) ∧ c ≠ 0 ∧ u.abbreviations[c]? = some a := by
  constructor
  · intro h
    obtain ⟨c, p, hc, h⟩ := Reader.run_bind_eq_ok.1 h
    split at h
    · cases h
    · rename_i hzero
      split at h
      · cases h
      · rename_i hfound
        cases h
        exact ⟨c, hc, hzero, hfound⟩
  · rintro ⟨c, hc, hzero, hfound⟩
    exact code_of_getElem? hc hzero hfound

end EntryList

/-- An entry of the unit can be read at this offset in the section: it lies behind the
header of the unit and before its end, and a code of the unit's table stands there. -/
def LoadedUnit.HasEntryAt (u : LoadedUnit) (o : Nat) : Prop :=
  u.start + u.headerSize ≤ o ∧ o < u.start + u.bytes.size ∧
    ∃ c q, Reader.unsigned.run u.bytes (o - u.start) = .ok (c, q) ∧ c ≠ 0 ∧ c ∈ u.abbreviations

/-- An entry stands at an offset if one can be read there, counted from the start of the
unit. -/
theorem LoadedUnit.hasEntryAt_iff {u : LoadedUnit} {o : Nat} :
    u.HasEntryAt o ↔ u.start ≤ o ∧ (u.headAt? (o - u.start)).isSome := by
  rw [Option.isSome_iff_exists]
  constructor
  · rintro ⟨hheader, hend, c, q, hcode, hzero, hknown⟩
    obtain ⟨a, ha⟩ := Option.isSome_iff_exists.1 (Std.HashMap.isSome_getElem?_iff_mem.2 hknown)
    refine ⟨by omega, ⟨a, q⟩, EntryList.headAt?_eq_some_iff.2 ⟨by omega, by omega, ?_⟩⟩
    exact EntryList.code_eq_some_iff.2 ⟨c, hcode, hzero, ha⟩
  · rintro ⟨hstart, head, hhead⟩
    obtain ⟨hheader, hend, hrun⟩ := EntryList.headAt?_eq_some_iff.1 hhead
    obtain ⟨c, hcode, hzero, ha⟩ := EntryList.code_eq_some_iff.1 hrun
    refine ⟨by omega, by omega, c, _, hcode, hzero, ?_⟩
    exact Std.HashMap.isSome_getElem?_iff_mem.1 (Option.isSome_of_eq_some ha)

namespace Sections

/-- The offset lies in this unit, its header included. -/
def RawUnit.Spans (raw : RawUnit) (o : Nat) : Prop :=
  raw.start ≤ o ∧ o < raw.start + raw.bytes.size

variable {S : Sections} {raw raw' : RawUnit} {u : LoadedUnit} {o : Nat}

/-- Offsets at which no entry can stand. -/
inductive Vacant (S : Sections) (o : Nat) : Prop
  | header {raw : RawUnit} (hraw : raw ∈ S.rawUnits) (hstart : raw.start ≤ o)
      (hheader : o < raw.start + raw.headerSize)
  | skipped {raw : RawUnit} (hraw : raw ∈ S.rawUnits) (hskipped : S.loadUnit? raw = none)
      (hspans : raw.Spans o)
  | outside (h : ∀ raw ∈ S.rawUnits, ¬raw.Spans o)
  | beyond (h : S.info.size ≤ o)

/-- Units in a row share no offset. -/
theorem eq_of_spans (hraw : raw ∈ S.rawUnits) (hraw' : raw' ∈ S.rawUnits) (h : raw.Spans o)
    (h' : raw'.Spans o) : raw = raw' := by
  have hapart : S.rawUnits.Pairwise fun a b => ¬(a.Spans o ∧ b.Spans o) :=
    S.separated_rawUnits.imp fun hab ⟨ha, hb⟩ => by
      have := ha.2
      have := hb.1
      omega
  by_contra hne
  have hsymm : Std.Symm fun a b : RawUnit => ¬(a.Spans o ∧ b.Spans o) :=
    ⟨fun a b hab hba => hab hba.symm⟩
  exact hapart.forall hraw hraw' hne ⟨h, h'⟩

/-- A raw unit can be read where it starts. -/
theorem rawUnit_of_mem_rawUnitsFrom (S : Sections) (start : Nat) :
    ∀ raw ∈ S.rawUnitsFrom start, S.rawUnit raw.start = .ok raw := by
  fun_induction S.rawUnitsFrom start with
  | case1 => simp
  | case2 start hlt raw hraw ih =>
    intro r hr
    rcases List.mem_cons.1 hr with rfl | hr
    · rw [start_rawUnit hraw, hraw]
    · exact ih r hr
  | case3 => simp

/-- A header ends within its unit. -/
theorem headerSize_le_of_mem_rawUnits (hraw : raw ∈ S.rawUnits) :
    raw.headerSize ≤ raw.bytes.size := by
  obtain ⟨length, format, p, -, hbytes, hheader, -⟩ :=
    rawUnit_eq_ok_iff.1 (S.rawUnit_of_mem_rawUnitsFrom 0 raw hraw)
  have hsize : p - raw.start ≤ raw.bytes.size := by
    rw [Bytes.size_of_slice? hbytes]
    exact Nat.le_add_right _ _
  exact ((Reader.unitHeader S.order format).forward _ _ _ _ hheader).2 hsize

/-- **At a vacant offset** no loaded unit has an entry. -/
theorem Vacant.not_hasEntryAt (h : S.Vacant o) (hu : u ∈ S.load.units.toList) :
    ¬u.HasEntryAt o := by
  rintro ⟨hheader, hend, -⟩
  rw [toList_units_load] at hu
  obtain ⟨raw, hraw, hload⟩ := List.mem_filterMap.1 hu
  obtain ⟨hstart, hbytes, hsize⟩ := places_of_loadUnit? hload
  rw [hstart, hsize] at hheader
  rw [hstart, hbytes] at hend
  have hspans : raw.Spans o := ⟨by omega, hend⟩
  cases h with
  | @header raw' hraw' hstart' hheader' =>
    have := headerSize_le_of_mem_rawUnits hraw'
    obtain rfl := eq_of_spans hraw hraw' hspans ⟨hstart', by omega⟩
    omega
  | skipped hraw' hskipped hspans' =>
    obtain rfl := eq_of_spans hraw hraw' hspans hspans'
    cases hload.symm.trans hskipped
  | outside houtside => exact houtside raw hraw hspans
  | beyond hbeyond =>
    have := (S.bounds_rawUnitsFrom _ raw hraw).2.2
    omega

end Sections

namespace Store

variable {S : Sections} {r : EntryRef}

/-- All units before one that starts at or before an offset do so too. -/
theorem countP_take_of_start_le {n o : Nat} {u : LoadedUnit}
    (hu : (ofSections S).units.toList[n]? = some u) (hstart : u.start ≤ o) :
    ((ofSections S).units.toList.take n).countP (·.start ≤ o) = n := by
  have hlength : ((ofSections S).units.toList.take n).length = n :=
    List.length_take_of_le (Nat.le_of_lt (List.getElem?_eq_some_iff.1 hu).1)
  rw [List.countP_eq_length.2 fun v hmem => ?_, hlength]
  obtain ⟨j, hj, rfl⟩ := List.mem_take_iff_getElem.1 hmem
  have hv := List.getElem?_eq_getElem (Nat.lt_of_lt_of_le hj (Nat.min_le_right _ _))
  rw [Array.getElem?_toList] at hu hv
  have := end_le_start (Nat.lt_of_lt_of_le hj (Nat.min_le_left _ _)) hv hu
  rw [decide_eq_true_eq]
  omega

/-- **The unit to ask** is the one before the place at which the offset would stand among
the starts, so it can be searched for by halves, as starts rise. -/
theorem lastStarting_eq_countP (S : Sections) (o n : Nat) :
    (ofSections S).lastStarting o n =
      match ((ofSections S).units.toList.take n).countP (·.start ≤ o) with
      | 0 => none
      | k + 1 => some k := by
  induction n with
  | zero => rfl
  | succ n ih =>
    rw [lastStarting, List.take_add_one, List.countP_append, ← Array.getElem?_toList]
    cases hu : (ofSections S).units.toList[n]? with
    | none => simpa using ih
    | some u =>
      dsimp only [Option.toList]
      split
      · rename_i hstart
        simp [countP_take_of_start_le hu hstart, hstart]
      · rename_i hstart
        simp [ih, hstart]

/-- Only one of the loaded units has an entry at an offset. -/
theorem unit_eq_of_hasEntryAt {i j o : Nat} {u v : LoadedUnit}
    (hu : (ofSections S).units[i]? = some u) (hv : (ofSections S).units[j]? = some v)
    (h : u.HasEntryAt o) (h' : v.HasEntryAt o) : i = j := by
  obtain ⟨hu₁, hu₂, -⟩ := h
  obtain ⟨hv₁, hv₂, -⟩ := h'
  rcases Nat.lt_trichotomy i j with hij | hij | hij
  · have := end_le_start hij hu hv
    omega
  · exact hij
  · have := end_le_start hij hv hu
    omega

/-- An entry is found at an offset exactly if one of its unit stands there. -/
theorem entryAt?_eq_some_iff_hasEntryAt {e : Entry} :
    (ofSections S).entryAt? r = some e ↔
      ∃ u, (ofSections S).units[e.unit]? = some u ∧ u.HasEntryAt r.offset.toNat ∧
        u.start + e.offset = r.offset.toNat := by
  rw [entryAt?_eq_some_iff]
  refine exists_congr fun u => and_congr_right fun _ => and_congr_left fun hoffset => ?_
  rw [LoadedUnit.hasEntryAt_iff, show r.offset.toNat - u.start = e.offset by omega]
  exact ⟨fun h => ⟨by omega, h⟩, And.right⟩

/-- **What is found at an offset.**  A lookup succeeds exactly if some loaded unit has an
entry there; what it finds stands at that offset and belongs to that unit, the only one of
its kind; and at vacant offsets nothing is found. -/
theorem entryAt_iff (S : Sections) (r : EntryRef) :
    (((ofSections S).forest.entryAt r).isSome ↔
        ∃ (i : Nat) (u : LoadedUnit),
          (ofSections S).units[i]? = some u ∧ u.HasEntryAt r.offset.toNat) ∧
      (∀ e, (ofSections S).forest.entryAt r = some e → (ofSections S).forest.ref e = r ∧
        ∀ i u, (ofSections S).units[i]? = some u →
          (u.HasEntryAt r.offset.toNat ↔ i = e.unit)) ∧
      (S.Vacant r.offset.toNat → (ofSections S).forest.entryAt r = none) := by
  have hsome : ((ofSections S).forest.entryAt r).isSome ↔
      ∃ (i : Nat) (u : LoadedUnit),
        (ofSections S).units[i]? = some u ∧ u.HasEntryAt r.offset.toNat := by
    rw [Option.isSome_iff_exists]
    constructor
    · rintro ⟨e, he⟩
      obtain ⟨u, hu, hentry, -⟩ := entryAt?_eq_some_iff_hasEntryAt.1 he
      exact ⟨e.unit, u, hu, hentry⟩
    · rintro ⟨i, u, hu, hentry⟩
      refine ⟨⟨i, r.offset.toNat - u.start⟩, entryAt?_eq_some_iff_hasEntryAt.2 ⟨u, hu, hentry, ?_⟩⟩
      have := hentry.1
      dsimp only
      omega
  refine ⟨hsome, fun e he => ?_, fun hvacant => ?_⟩
  · obtain ⟨u, hu, hentry, hoffset⟩ := entryAt?_eq_some_iff_hasEntryAt.1 he
    refine ⟨?_, fun i v hv => ⟨fun hentry' => unit_eq_of_hasEntryAt hv hu hentry' hentry, ?_⟩⟩
    · change (ofSections S).ref e = r
      rw [ref, hu, Option.map_some, Option.getD_some, hoffset]
      simp
    · rintro rfl
      cases hu.symm.trans hv
      exact hentry
  · rw [← Option.not_isSome_iff_eq_none, hsome]
    rintro ⟨i, u, hu, hentry⟩
    exact hvacant.not_hasEntryAt (Sections.mem_load_of_getElem? hu) hentry

/-- The child of the root stands at its offset. -/
theorem hasEntryAt_oneUnit : Sections.oneLoadedUnit.HasEntryAt 16 := by
  have hcode : Reader.unsigned.run Sections.oneEntryList.bytes 16 = .ok (2, 17) := by cbv
  have hknown : 2 ∈ Sections.oneEntryList.abbreviations := by simp [Sections.oneEntryList]
  exact ⟨by decide, by decide, 2, 17, hcode, by decide, hknown⟩

/-- The subprogram of the one unit is found at its offset, unless the unit is passed over. -/
theorem entryAt_iff_oneUnit :
    ((ofSections (.oneUnit Sections.bareLine)).forest.entryAt ⟨16⟩).isSome ∧
      (Sections.oneUnit #[]).Vacant 16 ∧
      (ofSections (.oneUnit #[])).forest.entryAt ⟨16⟩ = none := by
  have hraw : Sections.oneRawUnit ∈ (Sections.oneUnit #[]).rawUnits := by
    rw [Sections.rawUnits_oneUnit]
    exact List.mem_singleton_self _
  have hvacant : (Sections.oneUnit #[]).Vacant 16 :=
    .skipped hraw Sections.loadUnit?_oneUnit_empty ⟨by decide, by decide⟩
  exact ⟨(entryAt_iff _ ⟨16⟩).1.2 ⟨0, _, units_oneUnit, hasEntryAt_oneUnit⟩, hvacant,
    (entryAt_iff _ ⟨16⟩).2.2 hvacant⟩

end Store
end Dwarf
end ParamAtlas
