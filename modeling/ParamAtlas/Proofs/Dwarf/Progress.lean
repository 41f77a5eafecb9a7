/-
# No debug information makes a walk run on

A store may be asked for what stands at any offset, so a walk may start in the
middle of an entry and come upon the entries of the unit later on.  Its links are of
two kinds, which need not fit together then:

| link | leads to |
| --- | --- |
| first child | what stands right behind the values of the entry |
| next sibling | what was noted when the unit was read in a row |

Both lead forward within the unit (`lt_offset_of_link`), so a walk cannot turn back.
A first child stands behind the values of its parent.  A sibling link was noted without
a look at where it leads, but only from an entry read before (`lt_of_siblingLinks`).
A walk could still come to one place in two ways.  It does not: the entries that have a
sibling all stand in the row, where a walk visits nothing twice, and as long as it is
outside of the row a walk goes straight down (`nodup_visits_of_handedOut`).  So every
visit takes a place of its own among the bytes of the entries, and both the walk and
the loop over the children of an entry are through after no more turns than there are
such bytes (`progresses_of_handedOut`).
-/

import Mathlib.Data.List.Perm.Subperm
import ParamAtlas.Proofs.Dwarf.NextSibling
import ParamAtlas.Proofs.Forest.Steps

namespace ParamAtlas
namespace Dwarf
namespace Store

/-- **What makes a walk from an entry progress:** links lead forward, nothing is
visited twice, and the walk and the loop over the children of the entry are through
after as many turns as they take entries, of which there are at most as many as the
entries of the unit have bytes. -/
structure Progresses (s : Store) (d : Entry) : Prop where
  /-- Links stay in the unit and lead to higher offsets there. -/
  forward : ∀ down e, s.forest.link down d = some e → e.unit = d.unit ∧ d.offset < e.offset
  /-- They lead to higher offsets in the section of entries as well. -/
  forward_ref : s.sections.Addressable → ∀ down e, s.forest.link down d = some e →
    (s.forest.ref d).offset < (s.forest.ref e).offset
  nodup : (s.forest.visits d).Nodup
  ascending : (s.forest.children d).Pairwise (·.offset < ·.offset)
  walk : ∀ n, (s.forest.visits d).length ≤ n →
    s.forest.walkTurn^[n] (#[], [d]) = ((s.forest.visits d).toArray, [])
  loop : ∀ n, (s.forest.children d).length ≤ n →
    s.forest.siblingTurn^[n] (#[], s.forest.firstChild d) =
      ((s.forest.children d).toArray, none)
  bounded : ∃ u, s.units[d.unit]? = some u ∧
    u.headerSize + (s.forest.visits d).length ≤ u.bytes.size ∧
    u.headerSize + (s.forest.children d).length ≤ u.bytes.size

/-- **Links lead forward** within a unit. -/
theorem lt_offset_of_link {s : Store} {down : Bool} {e e' : Entry}
    (h : s.forest.link down e = some e') : e'.unit = e.unit ∧ e.offset < e'.offset := by
  cases down with
  | true =>
    obtain ⟨o, ho, rfl⟩ := Option.map_eq_some_iff.1 h
    unfold ask at ho
    split at ho
    · cases ho
    · exact ⟨rfl, (EntryList.firstChild?_bounds _ _ _ ho).1⟩
  | false =>
    obtain ⟨o, ho, rfl⟩ := Option.map_eq_some_iff.1 h
    unfold ask at ho
    split at ho
    · cases ho
    · rename_i u hu
      dsimp only at ho
      rw [u.siblings_eq] at ho
      exact ⟨rfl, (lt_of_siblingLinks u.toEntryList ho).1⟩

variable {S : Sections} {d e : Entry} {u : LoadedUnit}

/-- An entry with a sibling stands in the row of entries. -/
theorem inRow_of_nextSibling {n : Entry} (hu : (ofSections S).units[e.unit]? = some u)
    (h : (ofSections S).forest.nextSibling e = some n) : InRow e.unit u e := by
  obtain ⟨o, ho, rfl⟩ := Option.map_eq_some_iff.1 h
  simp only [ask, hu] at ho
  rw [u.siblings_eq] at ho
  have hmem := source_of_getElem?_siblingLinks ho
  rw [EntryList.scan_entries, List.mem_map] at hmem
  obtain ⟨⟨depth, o'⟩, hmem, rfl⟩ := hmem
  obtain ⟨before, later, heq⟩ := List.append_of_mem hmem
  exact ⟨rfl, depth, later, heq ▸ List.suffix_append _ _⟩

/-- What is reached from an entry handed out could be handed out as well, and stands
in the same unit. -/
theorem HandedOut.of_reaches (h : (ofSections S).HandedOut d)
    (he : (ofSections S).forest.Reaches d e) :
    e.unit = d.unit ∧ (ofSections S).HandedOut e := by
  obtain ⟨p, hp⟩ := he
  induction p generalizing d with
  | nil =>
    cases hp
    exact ⟨rfl, h⟩
  | cons down p ih =>
    obtain ⟨d', hd', hp⟩ := Option.bind_eq_some_iff.1 hp
    have hunit := (lt_offset_of_link hd').1
    have h' : (ofSections S).HandedOut d' := by
      cases down with
      | true => exact h.firstChild hd'
      | false => exact h.nextSibling hd'
    exact hunit ▸ ih h' hp

/-- **A walk visits nothing twice**, wherever it starts. -/
theorem nodup_visits_of_handedOut (h : (ofSections S).HandedOut d) :
    ((ofSections S).forest.visits d).Nodup := by
  refine Forest.nodup_visits_of_forall fun x hx => ?_
  -- An entry in the middle of another has no link to a sibling; one with a link is in
  -- the row that links were made from.
  cases hn : (ofSections S).forest.nextSibling x with
  | none => exact .inl rfl
  | some n =>
    obtain ⟨u, hu, -⟩ := (h.of_reaches hx).2.holds
    obtain ⟨-, depth, later, hsuffix⟩ := inRow_of_nextSibling hu hn
    exact .inr (nodup_visits_of_suffix hu hsuffix)

/-- An entry that can be read stands behind the header of its unit. -/
theorem Holds.bounds {s : Store} (h : s.Holds e) (hu : s.units[e.unit]? = some u) :
    u.headerSize ≤ e.offset ∧ e.offset < u.bytes.size := by
  obtain ⟨u', hu', hhead⟩ := h
  cases hu.symm.trans hu'
  obtain ⟨head, hhead⟩ := Option.isSome_iff_exists.1 hhead
  obtain ⟨hle, hlt, -⟩ := EntryList.headAt?_eq_some_iff.1 hhead
  exact ⟨hle, hlt⟩

/-- Different entries of a unit take different bytes of it. -/
theorem length_le_of_nodup (h : (ofSections S).HandedOut d)
    (hu : (ofSections S).units[d.unit]? = some u) {entries : List Entry}
    (hnodup : entries.Nodup) (hreaches : ∀ e ∈ entries, (ofSections S).forest.Reaches d e) :
    u.headerSize + entries.length ≤ u.bytes.size := by
  have hdistinct : (entries.map (·.offset)).Nodup := by
    refine hnodup.map_on fun a ha b hb hab => ?_
    have ha := (h.of_reaches (hreaches a ha)).1
    have hb := (h.of_reaches (hreaches b hb)).1
    cases a
    cases b
    simp_all
  have hsubset : entries.map (·.offset) ⊆
      List.range' u.headerSize (u.bytes.size - u.headerSize) := by
    intro o ho
    obtain ⟨e, he, rfl⟩ := List.mem_map.1 ho
    obtain ⟨hunit, he⟩ := h.of_reaches (hreaches e he)
    have := he.holds.bounds (hunit ▸ hu)
    exact List.mem_range'_1.2 (by omega)
  have hlength := (hdistinct.subperm hsubset).length_le
  have := h.holds.bounds hu
  rw [List.length_map, List.length_range'] at hlength
  omega

/-- **No debug information makes a walk run on:** a walk from any entry that a store
hands out progresses, and so does the loop over its children. -/
theorem progresses_of_handedOut (h : (ofSections S).HandedOut d) :
    (ofSections S).Progresses d := by
  obtain ⟨u, hu, -⟩ := h.holds
  have hascending : ((ofSections S).forest.children d).Pairwise (·.offset < ·.offset) :=
    Forest.pairwise_siblings? _ (fun a b hab => (@lt_offset_of_link _ false a b hab).2) _
  refine ⟨fun down e he => lt_offset_of_link he, fun hS down e he => ?_,
    nodup_visits_of_handedOut h, hascending, fun n hn => ?_,
    fun n hn => Forest.iterate_siblingTurn _ _ _ hn, u, hu, ?_, ?_⟩
  · obtain ⟨hunit, hlt⟩ := lt_offset_of_link he
    have hd := h.holds.bounds hu
    have he' := (h.of_reaches (Forest.reaches_of_link down he)).2.holds.bounds (hunit ▸ hu)
    have hrefd : ((ofSections S).forest.ref d).offset.toNat = _ := toNat_ref hS hu hd.2
    have hrefe : ((ofSections S).forest.ref e).offset.toNat = _ :=
      toNat_ref hS (hunit ▸ hu) he'.2
    exact UInt64.lt_iff_toNat_lt.2 (by omega)
  · exact Forest.iterate_turn _ Array.push #[] [d] (by simpa using hn)
  · exact length_le_of_nodup h hu (nodup_visits_of_handedOut h) fun e he =>
      Forest.reaches_of_mem_visits he
  · refine length_le_of_nodup h hu (hascending.imp fun hab heq => ?_) fun e he =>
      Forest.reaches_of_mem_children he
    exact Nat.ne_of_lt hab (congrArg Entry.offset heq)

/-- The root of a unit is handed out, so a walk from it progresses. -/
theorem progresses_of_root_oneUnit :
    (ofSections (.oneUnit Sections.bareLine)).HandedOut ⟨0, 11⟩ ∧
      (ofSections (.oneUnit Sections.bareLine)).Progresses ⟨0, 11⟩ :=
  ⟨.root root?_oneUnit, progresses_of_handedOut (.root root?_oneUnit)⟩

end Store
end Dwarf
end ParamAtlas
