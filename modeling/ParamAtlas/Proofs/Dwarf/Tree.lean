/-
# Debug information is a forest

Links between entries come from two readings: a first child is what stands right
behind the values of its parent, a next sibling is noted while the unit is read
in a row.  They could disagree, and nothing in the sections keeps an entry from
being reached in two ways.  It is not (`isForest_forest`): a walk of a unit
visits nothing twice, whatever the unit starts with.

| behind the header | siblings | walk |
| --- | --- | --- |
| an entry | as in the row of entries | the row, each entry once |
| the end of a list | none, since the row is empty | straight down |
-/

import ParamAtlas.Proofs.Dwarf.Coverage
import ParamAtlas.Proofs.Dwarf.Lookup
import ParamAtlas.Proofs.Forest.Reach

namespace ParamAtlas
namespace Dwarf

/-- Above depth 0 no entries are read. -/
theorem EntryList.entriesFrom_of_neg (u : EntryList) {depth : Int} {o : Nat} (hd : depth < 0) :
    u.entriesFrom depth o = [] := by
  fun_induction u.entriesFrom depth o with
  | case1 => rfl
  | case2 depth o hlt p hcode ih => exact ih (by omega)
  | case3 => rfl
  | case4 depth o hlt a p hcode hnot => exact absurd hd hnot
  | case5 depth o hlt a p hcode hnot => exact absurd hd hnot
  | case6 => rfl

/-- A unit with a root starts with an entry, or with the end of a list and then has
no entries in a row. -/
theorem EntryList.headAt?_or_entriesFrom_eq_nil {u : EntryList} {r : Nat × EntryHead}
    (h : u.root = .ok r) :
    (∃ e, u.headAt? u.headerSize = some e) ∨ u.entriesFrom 0 u.headerSize = [] := by
  rw [root, rootFrom] at h
  split at h
  · rename_i hlt
    split at h
    · cases h
    · rename_i p hcode
      exact .inr ((entriesFrom_null hlt hcode).trans (u.entriesFrom_of_neg (by omega)))
    · rename_i a p hcode
      exact .inl ⟨⟨a, p⟩, headAt?_eq_some_iff.2 ⟨Nat.le_refl _, hlt, hcode⟩⟩
  · cases h

namespace Store

variable {S : Sections} {i : Nat} {u : LoadedUnit}

/-- The entries of a unit can be read, and stand in it. -/
theorem holds_of_inUnit {e : Entry} (h : (ofSections S).forest.InUnit i e) :
    e.unit = i ∧ (ofSections S).Holds e := by
  refine Forest.forall_inUnit (P := fun e => e.unit = i ∧ (ofSections S).Holds e) ?_ ?_ e h
  · rintro down e e' ⟨hi, -⟩ hlink
    cases down with
    | true =>
      refine ⟨?_, holds_of_firstChild? hlink⟩
      obtain ⟨o, -, rfl⟩ := Option.map_eq_some_iff.1 hlink
      exact hi
    | false =>
      refine ⟨?_, holds_of_nextSibling? hlink⟩
      obtain ⟨o, -, rfl⟩ := Option.map_eq_some_iff.1 hlink
      exact hi
  · intro root hroot
    exact ⟨(exists_unit_of_root? hroot).1, holds_of_root? hroot⟩

/-- Without entries in a row a unit has no sibling links. -/
theorem nextSibling_of_entriesFrom_eq_nil (hu : (ofSections S).units[i]? = some u)
    (hnil : u.entriesFrom 0 u.headerSize = []) {e : Entry} (he : e.unit = i) :
    (ofSections S).forest.nextSibling e = none := by
  rw [Option.eq_none_iff_forall_not_mem]
  intro n hn
  obtain ⟨o, ho, -⟩ := Option.map_eq_some_iff.1 hn
  simp only [ask, he, hu] at ho
  rw [u.siblings_eq] at ho
  have hmem := mem_of_getElem?_siblingLinks ho
  rw [EntryList.scan_entries, hnil] at hmem
  cases hmem

/-- **A walk of a unit visits nothing twice**, whatever the unit starts with. -/
theorem nodup_visits {root : Entry} (hroot : (ofSections S).forest.unitRoot i = some root) :
    ((ofSections S).forest.visits root).Nodup := by
  obtain ⟨k, o⟩ := root
  obtain ⟨rfl, u, head, hu, hhead⟩ := exists_unit_of_root? hroot
  rcases EntryList.headAt?_or_entriesFrom_eq_nil hhead with ⟨e, he⟩ | hnil
  · obtain ⟨-, hlt, hcode⟩ := EntryList.headAt?_eq_some_iff.1 he
    have hentries : u.entriesFrom 0 u.headerSize = (0, u.headerSize) :: u.entriesAfter 0 e :=
      EntryList.entriesFrom_entry hlt hcode
    have hsuffix : (0, u.headerSize) :: u.entriesAfter 0 e <:+ u.entriesFrom 0 u.headerSize :=
      hentries ▸ List.suffix_refl _
    cases (EntryList.root_of_headAt? he).symm.trans hhead
    exact nodup_visits_of_suffix hu hsuffix
  · refine Forest.nodup_visits_of_forall fun x hx => .inl ?_
    exact nextSibling_of_entriesFrom_eq_nil hu hnil
      (holds_of_inUnit (Forest.inUnit_of_reaches hroot hx)).1

/-- **Debug information is a forest**, whatever its sections hold. -/
theorem isForest_forest (S : Sections) : (ofSections S).forest.IsForest := by
  refine Forest.isForest_of_visits (fun i x hx => (holds_of_inUnit hx).2.isSome_tag)
    (fun i root => nodup_visits) fun i j x hi hj => ?_
  exact (holds_of_inUnit hi).1.symm.trans (holds_of_inUnit hj).1

end Store
end Dwarf
end ParamAtlas
