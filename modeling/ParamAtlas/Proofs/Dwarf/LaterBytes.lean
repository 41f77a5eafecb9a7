/-
# Bytes behind complete units

A unit is found from its first bytes and from its length, so what stands behind it does
not matter (`rawUnit_append`), and what stands before it only moves it
(`rawUnit_append_left`).  Where complete units fill the section of entries, more bytes
behind them add no more than the units that they hold on their own, moved
(`rawUnitsFrom_append`):

| bytes behind | units loaded |
| --- | --- |
| any | those from before first (`units_append`) |
| without a header at the start | those from before and no more (`units_append_of_error`) |

What is told of a unit comes from this unit (`sameUnit_of_getElem?`), so it stays in both
cases.  Entries are looked up among all units, and nowhere else.  So in the second case
every answer stays, at offsets among the later bytes as well (`forest_append`).
-/

import ParamAtlas.Proofs.Bytes.Basic
import ParamAtlas.Proofs.Dwarf.Lookup

namespace ParamAtlas

namespace Dwarf
namespace Reader

variable {α β : Type}

/-- A reader that looks at nothing but what it takes: bytes behind that do not matter,
and bytes before it move it. -/
structure Local (r : Reader α) : Prop where
  append : ∀ b more p a q, r.run b p = .ok (a, q) → r.run (b ++ more) p = .ok (a, q)
  append_left : ∀ front b p, r.run (front ++ b) (front.size + p) =
    (r.run b p).map fun (a, q) => (a, front.size + q)

/-- A reader that takes nothing is local. -/
theorem local_give (a : α) : (give a).Local := ⟨fun _ _ _ _ _ h => h, fun _ _ _ => rfl⟩

/-- So is one that fails. -/
theorem local_fault (f : Fault) : (fault f : Reader α).Local :=
  ⟨fun _ _ _ _ _ h => h, fun _ _ _ => rfl⟩

/-- A number is read from its own bytes. -/
theorem local_number (order : ByteOrder) (w : Nat) : (number order w).Local where
  append b more p a q h := by
    simp only [number] at h ⊢
    split at h
    · rename_i hle
      cases h
      rw [Array.size_append, if_pos (by omega), Bytes.number_append b more order hle]
    · cases h
  append_left front b p := by
    simp only [number, Array.size_append, Bytes.number_append_left, Nat.add_assoc,
      Nat.add_le_add_iff_left]
    split <;> rfl

/-- A local reader that is followed by local readers is local together with them. -/
theorem Local.bind {r : Reader α} {f : α → Reader β} (hr : r.Local) (hf : ∀ a, (f a).Local) :
    (r >>= f).Local where
  append b more p c s h := by
    simp only [Bind.bind, andThen] at h ⊢
    split at h
    · cases h
    · rename_i a q hrun
      rw [hr.append b more p a q hrun]
      exact (hf a).append b more q c s h
  append_left front b p := by
    simp only [Bind.bind, andThen, hr.append_left]
    rcases r.run b p with e | ⟨a, q⟩
    · rfl
    · exact (hf a).append_left front b q

/-- An initial length is read from its own bytes. -/
theorem local_initialLength (order : ByteOrder) : (initialLength order).Local := by
  refine (local_number order 4).bind fun n => ?_
  split
  · exact local_give _
  · split
    · exact (local_number order 8).bind fun n => local_give _
    · exact local_fault _

end Reader

namespace Sections

/-- The same sections with other bytes of entries. -/
def withInfo (S : Sections) (info : Bytes) : Sections := { S with info := info }

/-- Where the unit at an offset ends by its length, if it is there in full. -/
def unitEnd? (S : Sections) (start : Nat) : Option Nat :=
  match (Reader.initialLength S.order).run S.info start with
  | .error _ => none
  | .ok ((length, _), p) => if p + length ≤ S.info.size then some (p + length) else none

/-- From an offset on, complete units stand one behind another up to the end. -/
inductive CompleteFrom (S : Sections) : Nat → Prop
  | done : CompleteFrom S S.info.size
  | unit {start stop : Nat} (hstop : S.unitEnd? start = some stop) (rest : CompleteFrom S stop) :
      CompleteFrom S start

/-- **The section of entries is a sequence of complete units.**  Nothing is asked of
their headers but the lengths. -/
def Complete (S : Sections) : Prop := S.CompleteFrom 0

/-- A unit with more bytes before it. -/
def RawUnit.moved (distance : Nat) (raw : RawUnit) : RawUnit :=
  { raw with start := distance + raw.start }

variable {S : Sections} {start stop : Nat}

/-- A unit ends where its length says, if that is in the section. -/
theorem unitEnd?_eq_some_iff : S.unitEnd? start = some stop ↔ ∃ length format p,
    (Reader.initialLength S.order).run S.info start = .ok ((length, format), p) ∧
      p + length ≤ S.info.size ∧ p + length = stop := by
  unfold unitEnd?
  cases (Reader.initialLength S.order).run S.info start with
  | error f => simp
  | ok result =>
    obtain ⟨⟨length, format⟩, p⟩ := result
    simp

/-- The next unit is looked for where the one before ends. -/
theorem end_rawUnit {raw : RawUnit} (hstop : S.unitEnd? start = some stop)
    (hraw : S.rawUnit start = .ok raw) : start + raw.bytes.size = stop := by
  obtain ⟨length, format, p, hlength, hinside, rfl⟩ := unitEnd?_eq_some_iff.1 hstop
  have hforward := ((Reader.initialLength S.order).forward _ _ _ _ hlength).1
  obtain ⟨length', format', p', hlength', hbytes, -, -⟩ := rawUnit_eq_ok_iff.1 hraw
  cases hlength.symm.trans hlength'
  rw [Bytes.size_of_slice? hbytes]
  omega

/-- **A complete unit does not depend on the bytes behind it.** -/
theorem rawUnit_append (hstop : S.unitEnd? start = some stop) (more : Bytes) :
    (S.withInfo (S.info ++ more)).rawUnit start = S.rawUnit start := by
  obtain ⟨length, format, p, hlength, hinside, -⟩ := unitEnd?_eq_some_iff.1 hstop
  have hforward := ((Reader.initialLength S.order).forward _ _ _ _ hlength).1
  have hlength' := (Reader.local_initialLength S.order).append S.info more _ _ _ hlength
  have hbytes := S.info.slice?_append more (p := start) (n := p - start + length) (by omega)
  simp only [rawUnit, withInfo, hlength, hlength', hbytes]

/-- **A unit moves with the bytes before it.** -/
theorem rawUnit_append_left (S : Sections) (front more : Bytes) (start : Nat) :
    (S.withInfo (front ++ more)).rawUnit (front.size + start) =
      ((S.withInfo more).rawUnit start).map (·.moved front.size) := by
  have hlength := (Reader.local_initialLength S.order).append_left front more start
  simp only [rawUnit, withInfo, hlength]
  rcases (Reader.initialLength S.order).run more start with f | ⟨⟨length, format⟩, p⟩
  · rfl
  · simp only [Except.map, Nat.add_sub_add_left, Bytes.slice?_append_left]
    cases more.slice? start (p - start + length) with
    | none => rfl
    | some bytes =>
      dsimp only
      cases (Reader.unitHeader S.order format).run bytes (p - start) <;> rfl

/-- A moved section holds the same units, moved. -/
theorem rawUnitsFrom_append_left (S : Sections) (front more : Bytes) (start : Nat) :
    (S.withInfo (front ++ more)).rawUnitsFrom (front.size + start) =
      ((S.withInfo more).rawUnitsFrom start).map (·.moved front.size) := by
  have hmoved := S.rawUnit_append_left front more
  fun_induction (S.withInfo more).rawUnitsFrom start with
  | case1 start hlt f hraw =>
    rw [rawUnitsFrom_fault (f := f) (by rw [hmoved, hraw]; rfl)]
    rfl
  | case2 start hlt raw hraw ih =>
    have hunit : (S.withInfo (front ++ more)).rawUnit (front.size + start) =
        .ok (raw.moved front.size) := by rw [hmoved, hraw]; rfl
    rw [rawUnitsFrom_unit hunit, List.map_cons, ← ih, ← Nat.add_assoc]
    rfl
  | case3 start hlt =>
    have hsize : (front ++ more).size ≤ front.size + start := by
      rw [Array.size_append]
      exact Nat.add_le_add_left (Nat.le_of_not_lt hlt) _
    rw [rawUnitsFrom_end (show (S.withInfo (front ++ more)).info.size ≤ _ from hsize)]
    rfl

/-- Behind complete units stand at most the units of the bytes that follow, moved.
None of them do if the header of a complete unit cannot be read. -/
theorem rawUnitsFrom_append (hS : S.CompleteFrom start) (more : Bytes) :
    ∃ rest, rest <+: (S.withInfo more).rawUnits.map (·.moved S.info.size) ∧
      (S.withInfo (S.info ++ more)).rawUnitsFrom start = S.rawUnitsFrom start ++ rest := by
  induction hS with
  | done =>
    refine ⟨_, List.prefix_refl _, ?_⟩
    rw [rawUnitsFrom_end (Nat.le_refl S.info.size), List.nil_append]
    exact S.rawUnitsFrom_append_left S.info more 0
  | @unit start stop hstop _ ih =>
    have hsame := rawUnit_append hstop more
    cases hraw : S.rawUnit start with
    | error f =>
      -- The loading ends at this header, so nothing behind it counts.
      rw [hraw] at hsame
      exact ⟨[], List.nil_prefix, by rw [rawUnitsFrom_fault hsame, rawUnitsFrom_fault hraw]; rfl⟩
    | ok raw =>
      rw [hraw] at hsame
      obtain ⟨rest, hrest, heq⟩ := ih
      refine ⟨rest, hrest, ?_⟩
      rw [rawUnitsFrom_unit hsame, rawUnitsFrom_unit hraw, end_rawUnit hstop hraw, heq]
      rfl

/-- How a raw unit is loaded does not depend on the section that it is from. -/
theorem loadUnit?_withInfo (S : Sections) (info : Bytes) :
    (S.withInfo info).loadUnit? = S.loadUnit? := rfl

/-- **The units of complete units are loaded first**, whatever stands behind them. -/
theorem units_append (hS : S.Complete) (more : Bytes) :
    S.load.units.toList <+: (S.withInfo (S.info ++ more)).load.units.toList := by
  obtain ⟨rest, -, heq⟩ := rawUnitsFrom_append hS more
  rw [toList_units_load, toList_units_load, loadUnit?_withInfo]
  exact List.IsPrefix.filterMap _ ⟨rest, heq.symm⟩

/-- **Bytes without a header add no unit** behind complete units. -/
theorem units_append_of_error (hS : S.Complete) {more : Bytes} {f : Fault}
    (hmore : (S.withInfo more).rawUnit 0 = .error f) :
    (S.withInfo (S.info ++ more)).load.units = S.load.units := by
  obtain ⟨rest, hrest, heq⟩ := rawUnitsFrom_append hS more
  have hnone : (S.withInfo more).rawUnits = [] := rawUnitsFrom_fault hmore
  rw [hnone, List.map_nil, List.prefix_nil] at hrest
  rw [hrest, List.append_nil] at heq
  rw [← Array.toList_inj, toList_units_load, toList_units_load, loadUnit?_withInfo]
  exact congrArg _ heq

end Sections

end Dwarf

/-- Two forests tell the same of a unit: its header, its root, and what a walk from the
root visits, with the subprograms among it. -/
structure Forest.SameUnit {ε : Type} (F G : Forest ε) (i : Nat) : Prop where
  info : G.unitInfo i = F.unitInfo i
  root : G.unitRoot i = F.unitRoot i
  visits : ∀ root, F.unitRoot i = some root → G.visits root = F.visits root
  subprograms : ∀ root, F.unitRoot i = some root →
    G.subprogramsOf (G.visits root) = F.subprogramsOf (F.visits root)

namespace Dwarf
namespace Store

/-- The links of a unit stay in it. -/
theorem unit_nextSibling? {s : Store} {e n : Entry} (h : s.nextSibling? e = some n) :
    n.unit = e.unit := by
  obtain ⟨o, -, rfl⟩ := Option.map_eq_some_iff.1 h
  rfl

/-- A child is in the unit of its parent. -/
theorem unit_firstChild? {s : Store} {e c : Entry} (h : s.firstChild? e = some c) :
    c.unit = e.unit := by
  obtain ⟨o, -, rfl⟩ := Option.map_eq_some_iff.1 h
  rfl

/-- A walk stays in the unit that it starts in. -/
theorem unit_of_mem_visits {s : Store} {root : Entry} :
    ∀ e ∈ s.forest.visits root, e.unit = root.unit :=
  Forest.forall_mem_visits (P := fun e : Entry => e.unit = root.unit)
    (fun _ _ he hnext => (unit_nextSibling? hnext).trans he)
    (fun _ _ he hchild => (unit_firstChild? (Forest.firstChild_of_entered hchild)).trans he) rfl

section

variable {s t : Store} {i : Nat} (h : t.units[i]? = s.units[i]?)

include h

/-- **Any question about an entry of the common unit has the same answer.** -/
theorem ask_eq {α : Type} {e : Entry} (he : e.unit = i)
    (question : LoadedUnit → Nat → Option α) : t.ask e question = s.ask e question := by
  rw [ask, ask, he, h]

/-- Its entries have the same tags, -/
theorem tag_eq {e : Entry} (he : e.unit = i) : t.forest.tag e = s.forest.tag e := by
  simp only [forest, ask_eq h he]

/-- the same next siblings, -/
theorem nextSibling_eq {e : Entry} (he : e.unit = i) :
    t.forest.nextSibling e = s.forest.nextSibling e := by
  simp only [forest, nextSibling?, ask_eq h he]

/-- and the same children are entered. -/
theorem entered_eq {e : Entry} (he : e.unit = i) : t.forest.entered e = s.forest.entered e := by
  have hchild : t.forest.firstChild e = s.forest.firstChild e := by
    simp only [forest, firstChild?, ask_eq h he]
  rw [Forest.entered, Forest.entered, tag_eq h he, hchild]

/-- **A walk of the common unit is the same** in both stores. -/
theorem visits_eq {root : Entry} (hroot : root.unit = i) :
    t.forest.visits root = s.forest.visits root := by
  have hsibling : ∀ e : Entry, e.unit = i →
      t.forest.nextSibling (id e) = (s.forest.nextSibling e).map id ∧
        ∀ n, s.forest.nextSibling e = some n → n.unit = i := fun e he =>
    ⟨by rw [Option.map_id]; exact nextSibling_eq h he,
      fun _ hnext => (unit_nextSibling? hnext).trans he⟩
  have hchild : ∀ e : Entry, e.unit = i →
      t.forest.entered (id e) = (s.forest.entered e).map id ∧
        ∀ c, s.forest.entered e = some c → c.unit = i := fun e he =>
    ⟨by rw [Option.map_id]; exact entered_eq h he,
      fun _ hc => (unit_firstChild? (Forest.firstChild_of_entered hc)).trans he⟩
  have hvisits := Forest.visits_map hsibling hchild hroot
  rwa [List.map_id] at hvisits

/-- **What is told of a unit** comes from this unit. -/
theorem sameUnit_of_getElem? : s.forest.SameUnit t.forest i where
  info := by simp only [forest, h]
  root := by simp only [forest, root?, h]
  visits root hroot := visits_eq h (exists_unit_of_root? hroot).1
  subprograms root hroot := by
    have hunit := (exists_unit_of_root? hroot).1
    rw [visits_eq h hunit]
    refine List.filter_congr fun e he => ?_
    rw [Forest.hasTag, Forest.hasTag, tag_eq h ((unit_of_mem_visits e he).trans hunit)]

end

/-- **Later bytes do not disturb earlier units.**  Behind complete units any bytes may
stand.  The units from before are loaded first and as they were, and what is told of them
stays.  If the bytes hold no header at their start, every answer stays, those to lookups
of offsets among the bytes included. -/
theorem forest_append {S : Sections} (hS : S.Complete) (more : Bytes) :
    (ofSections S).units.toList <+: (ofSections (S.withInfo (S.info ++ more))).units.toList ∧
    (∀ i < (ofSections S).units.size,
      (ofSections S).forest.SameUnit (ofSections (S.withInfo (S.info ++ more))).forest i) ∧
    (∀ f, (S.withInfo more).rawUnit 0 = .error f →
      (ofSections (S.withInfo (S.info ++ more))).forest = (ofSections S).forest) := by
  refine ⟨Sections.units_append hS more, fun i hi => sameUnit_of_getElem? ?_, fun f hmore => ?_⟩
  · obtain ⟨rest, hrest⟩ := Sections.units_append hS more
    rw [← Array.getElem?_toList, ← Array.getElem?_toList]
    simp only [ofSections, ← hrest]
    exact List.getElem?_append_left hi
  · rw [ofSections, Sections.units_append_of_error hS hmore]
    exact forest_congr (A := S.withInfo (S.info ++ more)) (B := S) rfl rfl rfl rfl rfl _

/-- Three bytes behind a unit are no unit.  The unit stays as it was, and no answer of
the store tells of the three bytes. -/
theorem forest_append_oneUnit :
    (Sections.oneUnit Sections.bareLine).Complete ∧
    (ofSections (Sections.oneUnit Sections.bareLine)).forest.SameUnit
      (ofSections ((Sections.oneUnit Sections.bareLine).withInfo
        ((Sections.oneUnit Sections.bareLine).info ++ #[1, 2, 3]))).forest 0 ∧
    (ofSections ((Sections.oneUnit Sections.bareLine).withInfo
        ((Sections.oneUnit Sections.bareLine).info ++ #[1, 2, 3]))).forest =
      (ofSections (Sections.oneUnit Sections.bareLine)).forest := by
  have hstop : (Sections.oneUnit Sections.bareLine).unitEnd? 0 = some 26 := by cbv
  have hS : (Sections.oneUnit Sections.bareLine).Complete := .unit hstop .done
  have hunit : 0 < (ofSections (Sections.oneUnit Sections.bareLine)).units.size :=
    (Array.getElem?_eq_some_iff.1 units_oneUnit).1
  have hmore : ((Sections.oneUnit Sections.bareLine).withInfo #[1, 2, 3]).rawUnit 0 =
      .error .endOfInput := by cbv
  obtain ⟨-, hsame, hforest⟩ := forest_append hS #[1, 2, 3]
  exact ⟨hS, hsame 0 hunit, hforest _ hmore⟩

end Store
end Dwarf
end ParamAtlas
