/-
# Entries and their offsets

An entry is looked up by its offset in the whole section: the last unit that
starts at or before the offset is asked for an entry there.  Loaded units do
not overlap, so an entry is found exactly at the start of its unit plus its
offset in the unit (`entryAt?_eq_some_iff`), whatever units were passed over.

Entries are handed out by four questions: for the root of a unit, for a first
child, for a next sibling, and for what stands at an offset (`HandedOut`).  Each
of them finds entries in a way of its own:

| question | finds |
| --- | --- |
| root | the first code of the unit that is not 0 |
| first child | the code right behind the values of the parent |
| next sibling | an offset noted when the unit was loaded |
| offset | any place in a unit where a known code can be read |

All of them hand out places where an entry can be read (`HandedOut.holds`), and
nothing else is asked of an entry when it is looked up.  So every entry handed
out has a tag and is found again at its own offset, and a walk meets no entry
whose tag is unreadable (`found_of_handedOut`).
-/

import Mathlib.Algebra.Group.Nat.Defs
import ParamAtlas.Proofs.Dwarf.Loading
import ParamAtlas.Proofs.Forest.Walk

namespace ParamAtlas
namespace Dwarf

/-- Every offset into the section of entries is a 64-bit word, as it is for bytes
that are held in memory. -/
def Sections.Addressable (S : Sections) : Prop := S.info.size ≤ 2 ^ 64

namespace Store

/-- An entry can be read at this place. -/
def Holds (s : Store) (e : Entry) : Prop :=
  ∃ u, s.units[e.unit]? = some u ∧ (u.headAt? e.offset).isSome

/-! ## Looking up an offset -/

/-- The unit that starts last before an offset starts before it. -/
theorem start_le_of_lastStarting {s : Store} {o n i : Nat} (h : s.lastStarting o n = some i) :
    ∃ u, s.units[i]? = some u ∧ u.start ≤ o := by
  induction n with
  | zero => cases h
  | succ n ih =>
    rw [lastStarting] at h
    split at h
    · rename_i u hu
      split at h
      · rename_i hstart
        cases h
        exact ⟨u, hu, hstart⟩
      · exact ih h
    · exact ih h

/-- A unit that starts at or before an offset is the last one to do so if all
later ones start behind the offset. -/
theorem lastStarting_eq_some {s : Store} {o n i : Nat} {u : LoadedUnit} (hi : i < n)
    (hu : s.units[i]? = some u) (hstart : u.start ≤ o)
    (hlater : ∀ j v, i < j → s.units[j]? = some v → o < v.start) :
    s.lastStarting o n = some i := by
  induction n with
  | zero => omega
  | succ n ih =>
    rw [lastStarting]
    rcases Nat.lt_succ_iff_lt_or_eq.1 hi with hlt | rfl
    · rw [ih hlt]
      split
      · rename_i v hv
        rw [if_neg (Nat.not_le_of_lt (hlater n v hlt hv))]
      · rfl
    · simp only [hu, hstart, if_true]

variable {S : Sections}

/-- A unit ends before any later one starts. -/
theorem end_le_start {i j : Nat} {u v : LoadedUnit} (hij : i < j)
    (hu : (ofSections S).units[i]? = some u) (hv : (ofSections S).units[j]? = some v) :
    u.start + u.bytes.size ≤ v.start := by
  rw [← Array.getElem?_toList] at hu hv
  obtain ⟨hi, rfl⟩ := List.getElem?_eq_some_iff.1 hu
  obtain ⟨hj, rfl⟩ := List.getElem?_eq_some_iff.1 hv
  exact List.pairwise_iff_getElem.1 S.separated_load i j hi hj hij

/-- **What stands at an offset** is the entry whose unit starts that far before
it as the entry stands in the unit. -/
theorem entryAt?_eq_some_iff {r : EntryRef} {e : Entry} :
    (ofSections S).entryAt? r = some e ↔
      ∃ u, (ofSections S).units[e.unit]? = some u ∧ (u.headAt? e.offset).isSome ∧
        u.start + e.offset = r.offset.toNat := by
  obtain ⟨i, o⟩ := e
  dsimp only
  constructor
  · intro h
    unfold entryAt? at h
    dsimp only at h
    split at h
    · cases h
    · rename_i j hj
      obtain ⟨u, hu, hstart⟩ := start_le_of_lastStarting hj
      rw [hu] at h
      dsimp only at h
      split at h
      · rename_i hsome
        cases h
        exact ⟨u, hu, hsome, Nat.add_sub_cancel' hstart⟩
      · cases h
  · rintro ⟨u, hu, hsome, hoffset⟩
    obtain ⟨head, hhead⟩ := Option.isSome_iff_exists.1 hsome
    obtain ⟨-, hlt, -⟩ := EntryList.headAt?_eq_some_iff.1 hhead
    have hi : i < (ofSections S).units.size := (Array.getElem?_eq_some_iff.1 hu).1
    have hlast : (ofSections S).lastStarting r.offset.toNat (ofSections S).units.size = some i :=
      lastStarting_eq_some hi hu (by omega) fun j v hij hv => by
        have := end_le_start hij hu hv
        omega
    have ho : r.offset.toNat - u.start = o := by omega
    simp only [entryAt?, hlast, hu, ho, hsome, if_true]

/-- The offset of an entry counts from the start of its unit. -/
theorem toNat_ref (hS : S.Addressable) {e : Entry} {u : LoadedUnit}
    (hu : (ofSections S).units[e.unit]? = some u) (hlt : e.offset < u.bytes.size) :
    ((ofSections S).ref e).offset.toNat = u.start + e.offset := by
  have := Sections.end_le_of_mem_load (Sections.mem_load_of_getElem? hu)
  have hS : S.info.size ≤ 2 ^ 64 := hS
  rw [ref, hu]
  exact UInt64.toNat_ofNat_of_lt' (by simp [UInt64.size]; omega)

/-! ## Entries handed out -/

/-- The entries that a store hands out, by any sequence of questions. -/
inductive HandedOut (s : Store) : Entry → Prop
  | root {i : Nat} {e : Entry} (h : s.forest.unitRoot i = some e) : HandedOut s e
  | firstChild {e c : Entry} (he : HandedOut s e) (h : s.forest.firstChild e = some c) :
      HandedOut s c
  | nextSibling {e n : Entry} (he : HandedOut s e) (h : s.forest.nextSibling e = some n) :
      HandedOut s n
  | entryAt {r : EntryRef} {e : Entry} (h : s.forest.entryAt r = some e) : HandedOut s e

/-- The root of a unit is an entry of that unit. -/
theorem exists_unit_of_root? {s : Store} {i : Nat} {e : Entry} (h : s.root? i = some e) :
    e.unit = i ∧ ∃ u head, s.units[i]? = some u ∧ u.root = .ok (e.offset, head) := by
  unfold root? at h
  split at h
  · cases h
  · rename_i u hu
    split at h
    · rename_i o head hroot
      cases h
      exact ⟨rfl, u, head, hu, hroot⟩
    · cases h

/-- A root is held. -/
theorem holds_of_root? {s : Store} {i : Nat} {e : Entry} (h : s.root? i = some e) : s.Holds e := by
  obtain ⟨rfl, u, head, hu, hroot⟩ := exists_unit_of_root? h
  exact ⟨u, hu, Option.isSome_of_eq_some (EntryList.headAt?_of_rootFrom (Nat.le_refl _) hroot)⟩

/-- So is a first child. -/
theorem holds_of_firstChild? {s : Store} {e c : Entry} (h : s.firstChild? e = some c) :
    s.Holds c := by
  obtain ⟨o, ho, rfl⟩ := Option.map_eq_some_iff.1 h
  unfold ask at ho
  split at ho
  · cases ho
  · rename_i u hu
    exact ⟨u, hu, EntryList.isSome_headAt?_of_firstChild? ho⟩

/-- So is a next sibling. -/
theorem holds_of_nextSibling? {e n : Entry} (h : (ofSections S).nextSibling? e = some n) :
    (ofSections S).Holds n := by
  obtain ⟨o, ho, rfl⟩ := Option.map_eq_some_iff.1 h
  unfold ask at ho
  split at ho
  · cases ho
  · rename_i u hu
    dsimp only at ho
    rw [u.siblings_eq] at ho
    have hmem := mem_of_getElem?_siblingLinks ho
    rw [EntryList.scan_entries] at hmem
    obtain ⟨entry, hentry, rfl⟩ := List.mem_map.1 hmem
    exact ⟨u, hu, EntryList.isSome_headAt?_of_mem_entriesFrom hentry⟩

/-- **What is handed out can be read.** -/
theorem HandedOut.holds {e : Entry} (h : (ofSections S).HandedOut e) : (ofSections S).Holds e := by
  cases h with
  | root h => exact holds_of_root? h
  | firstChild _ h => exact holds_of_firstChild? h
  | nextSibling _ h => exact holds_of_nextSibling? h
  | entryAt h =>
    obtain ⟨u, hu, hsome, -⟩ := entryAt?_eq_some_iff.1 h
    exact ⟨u, hu, hsome⟩

/-- What is held has a tag. -/
theorem Holds.isSome_tag {s : Store} {e : Entry} (h : s.Holds e) : (s.forest.tag e).isSome := by
  obtain ⟨u, hu, hsome⟩ := h
  simp only [forest, ask, hu, Option.isSome_map, hsome]

/-- A walk that starts at an entry handed out skips nothing. -/
theorem HandedOut.skipped_visits {e : Entry} (h : (ofSections S).HandedOut e) :
    ((ofSections S).forest.statsOf ((ofSections S).forest.visits e)).skipped = 0 := by
  refine List.countP_eq_zero.2 fun d hd => ?_
  have hvisited : (ofSections S).HandedOut d :=
    Forest.forall_mem_visits (fun _ _ he hs => he.nextSibling hs)
      (fun _ _ he hc => he.firstChild (Forest.firstChild_of_entered hc)) h d hd
  simpa [Option.isSome_iff_ne_none] using hvisited.holds.isSome_tag

/-- **Entries handed out are found again.**  Every entry that a store hands out
has a tag, stands among the entries of a loaded unit, and is what the store
finds at the offset of the entry; a walk from it skips nothing. -/
theorem found_of_handedOut (hS : S.Addressable) {e : Entry} (h : (ofSections S).HandedOut e) :
    ((ofSections S).forest.tag e).isSome ∧
      (ofSections S).forest.entryAt ((ofSections S).forest.ref e) = some e ∧
      (∃ u, (ofSections S).units[e.unit]? = some u ∧
        u.start + u.headerSize ≤ ((ofSections S).forest.ref e).offset.toNat ∧
        ((ofSections S).forest.ref e).offset.toNat < u.start + u.bytes.size) ∧
      ((ofSections S).forest.statsOf ((ofSections S).forest.visits e)).skipped = 0 := by
  obtain ⟨u, hu, hsome⟩ := h.holds
  obtain ⟨head, hhead⟩ := Option.isSome_iff_exists.1 hsome
  obtain ⟨hle, hlt, -⟩ := EntryList.headAt?_eq_some_iff.1 hhead
  have href : ((ofSections S).forest.ref e).offset.toNat = u.start + e.offset := toNat_ref hS hu hlt
  refine ⟨h.holds.isSome_tag, ?_, ⟨u, hu, by omega, by omega⟩, h.skipped_visits⟩
  exact entryAt?_eq_some_iff.2 ⟨u, hu, hsome, href.symm⟩

/-- The unit is loaded. -/
theorem units_oneUnit :
    (ofSections (.oneUnit Sections.bareLine)).units[0]? = some Sections.oneLoadedUnit := by
  rw [ofSections, ← Array.getElem?_toList,
    Sections.toList_units_oneUnit Sections.lineHeader_bareLine]
  rfl

/-- Its root is behind its header. -/
theorem root?_oneUnit :
    (ofSections (.oneUnit Sections.bareLine)).root? 0 = some ⟨0, 11⟩ := by
  simp only [root?, units_oneUnit]
  rw [show Sections.oneLoadedUnit.root = _ from
    EntryList.root_of_headAt? Sections.headAt?_oneEntryList]
  rfl

/-- The subprogram of the one unit, which stands below its root. -/
theorem handedOut_oneUnit : (ofSections (.oneUnit Sections.bareLine)).HandedOut ⟨0, 16⟩ := by
  have hend : Sections.oneEntryList.valuesEnd? ⟨⟨0x11, true, [⟨0x10, 0x17, false⟩]⟩, 12⟩ =
      .ok 16 := by cbv
  have hcode : Reader.unsigned.run Sections.oneEntryList.bytes 16 = .ok (2, 17) := by cbv
  have hhead : Sections.oneEntryList.headAt? 16 =
      some ⟨⟨0x2e, false, [⟨0x11, 0x01, false⟩]⟩, 17⟩ :=
    EntryList.headAt?_eq_some_iff.2 ⟨by decide, by decide,
      EntryList.code_of_getElem? hcode (by decide) (by simp [Sections.oneEntryList])⟩
  have hchild : (ofSections (.oneUnit Sections.bareLine)).firstChild? ⟨0, 11⟩ =
      some ⟨0, 16⟩ := by
    have hfirst : Sections.oneEntryList.firstChild? 11 = some 16 := by
      rw [EntryList.firstChild?, show (11 : Nat) = Sections.oneEntryList.headerSize from rfl,
        Sections.headAt?_oneEntryList]
      simp only [if_true, hend, hhead, Option.isSome_some]
    simp only [firstChild?, ask, units_oneUnit]
    rw [show Sections.oneLoadedUnit.firstChild? 11 = some 16 from hfirst]
    rfl
  exact .firstChild (.root root?_oneUnit) hchild

/-- The root's child is handed out, and found by its offset. -/
theorem found_of_handedOut_oneUnit :
    (Sections.oneUnit Sections.bareLine).Addressable ∧
      (ofSections (.oneUnit Sections.bareLine)).HandedOut ⟨0, 16⟩ ∧
      ((ofSections (.oneUnit Sections.bareLine)).forest.tag ⟨0, 16⟩).isSome ∧
      (ofSections (.oneUnit Sections.bareLine)).forest.entryAt
        ((ofSections (.oneUnit Sections.bareLine)).forest.ref ⟨0, 16⟩) = some ⟨0, 16⟩ ∧
      (∃ u, (ofSections (.oneUnit Sections.bareLine)).units[0]? = some u ∧
        u.start + u.headerSize ≤
          ((ofSections (.oneUnit Sections.bareLine)).forest.ref ⟨0, 16⟩).offset.toNat ∧
        ((ofSections (.oneUnit Sections.bareLine)).forest.ref ⟨0, 16⟩).offset.toNat <
          u.start + u.bytes.size) ∧
      ((ofSections (.oneUnit Sections.bareLine)).forest.statsOf
        ((ofSections (.oneUnit Sections.bareLine)).forest.visits ⟨0, 16⟩)).skipped = 0 := by
  have hsize : (Sections.oneUnit Sections.bareLine).Addressable := by
    simp [Sections.Addressable, Sections.oneUnit]
  exact ⟨hsize, handedOut_oneUnit, found_of_handedOut hsize handedOut_oneUnit⟩

end Store
end Dwarf
end ParamAtlas
