/-
# A walk of a unit reaches every entry once

A walk goes from entry to entry by two kinds of links: to a sibling, found in
one reading of the whole unit, and to a first child, found by reading on from
the entry itself.  Both are answers about what follows the entry in the list of
entries in a row: the sibling is the first later entry that is not deeper, if
its depth is the same (`siblingIn`), and the child is the next entry, if that is
one step deeper (`childIn`).

What follows an entry at depth `d` falls into three parts, of which the walk
from that entry reaches the first two:

| part | entries | reached through |
| --- | --- | --- |
| 1 | up to the first one at depth `d` or above it | the first child |
| 2 | on up to the first one above depth `d` | the sibling |
| 3 | the rest | other entries |

So by induction along the list a walk from an entry visits, in some order, that
entry and what follows it down to the first entry above it (`visits_perm`).  The
root stands at depth 0, and above that there is nothing.
-/

import Mathlib.Data.List.TakeWhile
import ParamAtlas.Proofs.Dwarf.Loading
import ParamAtlas.Proofs.Dwarf.Scan
import ParamAtlas.Proofs.Forest.Walk

namespace ParamAtlas
namespace Dwarf

/-! ## What follows an entry in the list -/

/-- Below an entry without a first child stands nothing. -/
theorem takeWhile_of_childIn_eq_none {d b : Nat} {later : List (Nat × Nat)}
    (hclimbs : Climbs (d + 1) b later) (h : EntryList.childIn d later = none) :
    later.takeWhile (d < ·.1) = [] := by
  rcases later with _ | ⟨⟨d', o'⟩, rest⟩
  · rfl
  · have hd := hclimbs.1
    simp only [EntryList.childIn] at h
    split at h
    · cases h
    · exact List.takeWhile_cons_of_neg (by simp; omega)

/-- Below an entry stands its first child with all that is not above it. -/
theorem takeWhile_of_childIn_eq_some {d c : Nat} {later : List (Nat × Nat)}
    (h : EntryList.childIn d later = some c) :
    ∃ rest, later = (d + 1, c) :: rest ∧
      later.takeWhile (d < ·.1) = (d + 1, c) :: rest.takeWhile (d + 1 ≤ ·.1) := by
  rcases later with _ | ⟨⟨d', o'⟩, rest⟩
  · cases h
  · simp only [EntryList.childIn] at h
    split at h
    · rename_i hd
      cases h
      subst hd
      exact ⟨rest, rfl, List.takeWhile_cons_of_pos (by simp)⟩
    · cases h

/-- What is not above an entry without a sibling is below it. -/
theorem takeWhile_of_siblingIn_eq_none {d : Nat} {later : List (Nat × Nat)}
    (h : siblingIn d later = none) :
    later.takeWhile (d ≤ ·.1) = later.takeWhile (d < ·.1) := by
  induction later with
  | nil => rfl
  | cons e rest ih =>
    obtain ⟨d', o'⟩ := e
    simp only [siblingIn] at h
    split at h
    · rename_i hd
      rw [List.takeWhile_cons_of_pos (by simpa using Nat.le_of_lt hd),
        List.takeWhile_cons_of_pos (by simpa using hd), ih h]
    · split at h
      · cases h
      · rw [List.takeWhile_cons_of_neg (by simp; omega),
          List.takeWhile_cons_of_neg (by simp; omega)]

/-- What is not above an entry is below it, or is its sibling with all that is
not above that one. -/
theorem takeWhile_of_siblingIn_eq_some {d o : Nat} {later : List (Nat × Nat)}
    (h : siblingIn d later = some o) :
    ∃ rest, (d, o) :: rest <:+ later ∧
      later.takeWhile (d ≤ ·.1) =
        later.takeWhile (d < ·.1) ++ (d, o) :: rest.takeWhile (d ≤ ·.1) := by
  induction later with
  | nil => cases h
  | cons e later ih =>
    obtain ⟨d', o'⟩ := e
    simp only [siblingIn] at h
    split at h
    · rename_i hd
      obtain ⟨rest, hsuffix, heq⟩ := ih h
      refine ⟨rest, hsuffix.trans (List.suffix_cons _ _), ?_⟩
      rw [List.takeWhile_cons_of_pos (by simpa using Nat.le_of_lt hd),
        List.takeWhile_cons_of_pos (by simpa using hd), heq, List.cons_append]
    · split at h
      · rename_i hd
        cases h
        subst hd
        refine ⟨later, List.suffix_refl _, ?_⟩
        rw [List.takeWhile_cons_of_pos (by simp), List.takeWhile_cons_of_neg (by simp)]
        rfl
      · cases h

/-! ## Links of a loaded unit -/

namespace Store

variable {S : Sections} {i : Nat} {u : LoadedUnit}

/-- The next sibling of an entry in a row is its sibling there. -/
theorem nextSibling_of_suffix (hu : (ofSections S).units[i]? = some u) {d o : Nat}
    {later : List (Nat × Nat)} (hsuffix : (d, o) :: later <:+ u.entriesFrom 0 u.headerSize) :
    (ofSections S).forest.nextSibling ⟨i, o⟩ = (siblingIn d later).map (⟨i, ·⟩) := by
  obtain ⟨before, heq⟩ := hsuffix
  have hclimbs : Climbs 0 0 u.scan.entries.toList :=
    u.scan_entries ▸ EntryList.climbs_entriesFrom (Int.le_refl 0) (Nat.zero_le _)
  have hnext := getElem?_siblingLinks (u.scan_entries.trans heq.symm) hclimbs
  simp only [forest, nextSibling?, ask, hu, u.siblings_eq, hnext]

/-- The first child of an entry in a row is the next one, if it is one step deeper. -/
theorem firstChild_of_suffix (hu : (ofSections S).units[i]? = some u) {d o : Nat}
    {later : List (Nat × Nat)} (hsuffix : (d, o) :: later <:+ u.entriesFrom 0 u.headerSize) :
    (ofSections S).forest.firstChild ⟨i, o⟩ = (EntryList.childIn d later).map (⟨i, ·⟩) := by
  obtain ⟨e, he, rfl⟩ := EntryList.suffix_entriesFrom (Nat.le_refl _) hsuffix
  have hchild := EntryList.firstChild?_eq_childIn (d := d) he
  simp only [forest, firstChild?, ask, hu, hchild]

/-- A walk enters it. -/
theorem entered_of_suffix (hu : (ofSections S).units[i]? = some u) {d o : Nat}
    {later : List (Nat × Nat)} (hsuffix : (d, o) :: later <:+ u.entriesFrom 0 u.headerSize) :
    (ofSections S).forest.entered ⟨i, o⟩ = (EntryList.childIn d later).map (⟨i, ·⟩) := by
  obtain ⟨e, he, -⟩ := EntryList.suffix_entriesFrom (Nat.le_refl _) hsuffix
  have htag : ((ofSections S).forest.tag ⟨i, o⟩).isSome := by simp [forest, ask, hu, he]
  rw [Forest.entered, if_pos htag, firstChild_of_suffix hu hsuffix]

/-- **A walk from an entry** visits the entry and what follows it down to the
first entry above it. -/
theorem visits_perm (hu : (ofSections S).units[i]? = some u) {d o : Nat}
    {later : List (Nat × Nat)} (hsuffix : (d, o) :: later <:+ u.entriesFrom 0 u.headerSize) :
    ((ofSections S).forest.visits ⟨i, o⟩).Perm
      (((d, o) :: later.takeWhile (d ≤ ·.1)).map fun e => ⟨i, e.2⟩) := by
  induction hlen : later.length using Nat.strongRecOn generalizing d o later with
  | ind n ih =>
    have hbelow : ((ofSections S).forest.visits? ((ofSections S).forest.entered ⟨i, o⟩)).Perm
        ((later.takeWhile (d < ·.1)).map fun e => ⟨i, e.2⟩) := by
      rw [entered_of_suffix hu hsuffix]
      cases hchild : EntryList.childIn d later with
      | none =>
        obtain ⟨e, he, rfl⟩ := EntryList.suffix_entriesFrom (Nat.le_refl _) hsuffix
        rw [takeWhile_of_childIn_eq_none (EntryList.climbs_entriesAfter he) hchild]
        exact .nil
      | some c =>
        obtain ⟨rest, rfl, heq⟩ := takeWhile_of_childIn_eq_some hchild
        have := ih rest.length (by simp at hlen; omega) ((List.suffix_cons _ _).trans hsuffix) rfl
        rwa [heq, Option.map_some, Forest.visits?_some]
    obtain ⟨beside, hsplit, hbeside⟩ : ∃ beside,
        later.takeWhile (d ≤ ·.1) = later.takeWhile (d < ·.1) ++ beside ∧
          ((ofSections S).forest.visits? ((ofSections S).forest.nextSibling ⟨i, o⟩)).Perm
            (beside.map fun e => ⟨i, e.2⟩) := by
      rw [nextSibling_of_suffix hu hsuffix]
      cases hsibling : siblingIn d later with
      | none => exact ⟨[], by rw [takeWhile_of_siblingIn_eq_none hsibling, List.append_nil], .nil⟩
      | some o' =>
        obtain ⟨rest, hrest, heq⟩ := takeWhile_of_siblingIn_eq_some hsibling
        have hlt : rest.length < n := by
          have := hrest.length_le
          rw [List.length_cons] at this
          omega
        have := ih rest.length hlt (hrest.trans ((List.suffix_cons _ _).trans hsuffix)) rfl
        refine ⟨_, heq, ?_⟩
        rwa [Option.map_some, Forest.visits?_some]
    -- The walk goes to the sibling first, the list to what lies below.
    rw [Forest.visits_eq, hsplit, List.map_cons, List.map_append]
    exact ((hbeside.append hbelow).trans List.perm_append_comm).cons _

/-- A walk from an entry in the row visits nothing twice. -/
theorem nodup_visits_of_suffix (hu : (ofSections S).units[i]? = some u) {d o : Nat}
    {later : List (Nat × Nat)} (hsuffix : (d, o) :: later <:+ u.entriesFrom 0 u.headerSize) :
    ((ofSections S).forest.visits ⟨i, o⟩).Nodup := by
  rw [(visits_perm hu hsuffix).nodup_iff]
  refine List.pairwise_map.2 ((u.rising_entriesFrom.sublist ?_).imp fun hlt heq => ?_)
  · exact ((List.takeWhile_sublist _).cons_cons _).trans hsuffix.sublist
  · exact Nat.ne_of_lt hlt (congrArg Entry.offset heq)

/-- **A walk of a unit visits the entries in a row, each once.**  If the first
thing behind the header of a loaded unit is an entry, the unit has a root, and
the walk from it visits what a plain reading of the unit finds up to the first
fault or the first entry above depth 0, all of it, nothing else, and nothing
twice. -/
theorem walk_visits_entries (hu : (ofSections S).units[i]? = some u)
    (hfirst : (u.headAt? u.headerSize).isSome) :
    ∃ root, (ofSections S).forest.unitRoot i = some root ∧
      ((ofSections S).forest.visits root).Perm
        ((u.entriesFrom 0 u.headerSize).map fun e => ⟨i, e.2⟩) ∧
      ((ofSections S).forest.visits root).Nodup := by
  obtain ⟨e, he⟩ := Option.isSome_iff_exists.1 hfirst
  obtain ⟨-, hlt, hcode⟩ := EntryList.headAt?_eq_some_iff.1 he
  have hroot : (ofSections S).forest.unitRoot i = some ⟨i, u.headerSize⟩ := by
    simp only [forest, root?, hu, EntryList.root_of_headAt? he]
  have hentries : u.entriesFrom 0 u.headerSize = (0, u.headerSize) :: u.entriesAfter 0 e :=
    EntryList.entriesFrom_entry hlt hcode
  have hsuffix : (0, u.headerSize) :: u.entriesAfter 0 e <:+ u.entriesFrom 0 u.headerSize :=
    hentries ▸ List.suffix_refl _
  have hperm := visits_perm hu hsuffix
  rw [List.takeWhile_eq_self_iff.2 (by simp), ← hentries] at hperm
  refine ⟨_, hroot, hperm, hperm.nodup_iff.2 ?_⟩
  refine List.pairwise_map.2 (u.rising_entriesFrom.imp fun hlt heq => ?_)
  exact Nat.ne_of_lt hlt (congrArg Entry.offset heq)

/-- A walk of the unit visits its entries. -/
theorem walk_visits_entries_oneUnit :
    (ofSections (.oneUnit Sections.bareLine)).units[0]? = some Sections.oneLoadedUnit ∧
      (Sections.oneLoadedUnit.headAt? Sections.oneLoadedUnit.headerSize).isSome ∧
      ∃ root, (ofSections (.oneUnit Sections.bareLine)).forest.unitRoot 0 = some root ∧
        ((ofSections (.oneUnit Sections.bareLine)).forest.visits root).Perm
          ((Sections.oneLoadedUnit.entriesFrom 0 Sections.oneLoadedUnit.headerSize).map
            fun e => ⟨0, e.2⟩) ∧
        ((ofSections (.oneUnit Sections.bareLine)).forest.visits root).Nodup := by
  have hunit : (ofSections (.oneUnit Sections.bareLine)).units[0]? =
      some Sections.oneLoadedUnit := by
    rw [ofSections, ← Array.getElem?_toList,
      Sections.toList_units_oneUnit Sections.lineHeader_bareLine]
    rfl
  have hfirst : (Sections.oneLoadedUnit.headAt? Sections.oneLoadedUnit.headerSize).isSome :=
    Option.isSome_of_eq_some Sections.headAt?_oneEntryList
  exact ⟨hunit, hfirst, walk_visits_entries hunit hfirst⟩

end Store
end Dwarf
end ParamAtlas
