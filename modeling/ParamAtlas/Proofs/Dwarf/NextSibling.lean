/-
# What a plain reading says of siblings

The sibling of an entry can be found without links, by reading on from the entry
itself: past its values, and past as many ends of lists as lists were opened on
the way.  What comes next then is the sibling, if it is an entry, and there is no
sibling if it is the end of a list, the end of the unit or not readable
(`EntryList.plainSibling?`).

The links noted when a unit is loaded say the same of every entry that links lead
to from the root, as long as the unit starts with an entry
(`nextSibling_of_reaches`).  A unit may also start with ends of lists, which end
nothing.  Its root is then the first entry behind them, but the reading that notes
the links finds that entry above depth 0 and stops, so no entry of the unit has a
sibling:

| behind the header | sibling by the links | sibling by a plain reading |
| --- | --- | --- |
| an entry | as on the right | what follows the entry and all below it |
| the end of a list | none | what follows the entry and all below it |

So the two agree exactly on the stores in which no unit of the second kind has two
siblings among its entries (`linksPlain_iff`), and a small unit of that kind shows
that they do not agree on all (`not_forall_linksPlain`).
-/

import ParamAtlas.Proofs.Dwarf.Tree

namespace ParamAtlas
namespace Dwarf
namespace EntryList

/-- The sibling that a plain reading finds from an offset on, behind an entry with
`lists` lists below it that have been opened and not yet ended. -/
def siblingFrom (u : EntryList) (lists o : Nat) : Option Nat :=
  if o < u.bytes.size then
    match _ : u.code.run u.bytes o with
    | .error _ => none
    | .ok (none, p) => if lists = 0 then none else u.siblingFrom (lists - 1) p
    | .ok (some a, p) =>
      if lists = 0 then some o
      else
        match _ : u.valuesEnd? ⟨a, p⟩ with
        | .error _ => none
        | .ok q => u.siblingFrom (if a.hasChildren then lists + 1 else lists) q
  else none
termination_by u.bytes.size - o
decreasing_by
  · have := u.code_lt _ _ _ _ ‹_›; omega
  · have := u.code_lt _ _ _ _ ‹u.code.run u.bytes o = _›
    have : p ≤ q := u.le_valuesEnd? ⟨a, p⟩ q ‹_›
    omega

/-- The sibling that a plain reading finds for the entry at an offset. -/
def plainSibling? (u : EntryList) (o : Nat) : Option Nat :=
  match u.headAt? o with
  | none => none
  | some e =>
    match u.valuesEnd? e with
    | .error _ => none
    | .ok q => u.siblingFrom (if e.abbreviation.hasChildren then 1 else 0) q

variable {u : EntryList}

/-- Behind the end of its list an entry has no sibling. -/
theorem siblingIn_eq_none {n b d : Nat} {entries : List (Nat × Nat)} (h : Climbs n b entries)
    (hn : n < d) : siblingIn d entries = none := by
  rcases entries with _ | ⟨⟨d', o'⟩, later⟩
  · rfl
  · have := h.1
    rw [siblingIn, if_neg (by omega), if_neg (by omega)]

/-- **A plain reading finds the sibling in the row of entries.**  It counts lists
where the row has depths. -/
theorem siblingFrom_eq_siblingIn (lists o d : Nat) :
    u.siblingFrom lists o = siblingIn d (u.entriesFrom ((d + lists : Nat) : Int) o) := by
  fun_induction u.siblingFrom lists o with
  | case1 lists o hlt f hcode => rw [entriesFrom_fault hcode, siblingIn]
  | case2 o hlt p hcode =>
    rw [entriesFrom_null hlt hcode, Nat.add_zero]
    rcases d with _ | d
    · rw [u.entriesFrom_of_neg (by omega), siblingIn]
    -- Entries behind the end of the list are above the depth of the list.
    · exact (siblingIn_eq_none (climbs_entriesFrom (by omega) (Nat.le_refl p))
        (Nat.lt_succ_self d)).symm
  | case3 lists o hlt p hcode hlists ih =>
    rw [ih, entriesFrom_null hlt hcode]
    congr 2
    omega
  | case4 o hlt a p hcode =>
    rw [Nat.add_zero, entriesFrom_entry hlt hcode, siblingIn, if_neg (Nat.lt_irrefl d), if_pos rfl]
  | case5 lists o hlt a p hcode hlists f hend =>
    rw [entriesFrom_entry hlt hcode, entriesAfter, hend, siblingIn,
      if_pos (show d < d + lists by omega), siblingIn]
  | case6 lists o hlt a p hcode hlists q hend ih =>
    rw [dite_eq_ite] at ih
    rw [ih, entriesFrom_entry hlt hcode, entriesAfter, hend, siblingIn,
      if_pos (show d < d + lists by omega)]
    congr 2
    split <;> omega
  | case7 lists o hlt => rw [entriesFrom_end (by omega), siblingIn]

/-- The sibling that is read plainly is the one in the list of entries behind. -/
theorem plainSibling?_eq_siblingIn {o d : Nat} {e : EntryHead} (he : u.headAt? o = some e) :
    u.plainSibling? o = siblingIn d (u.entriesAfter d e) := by
  simp only [plainSibling?, he, entriesAfter]
  cases u.valuesEnd? e with
  | error f => rfl
  | ok q =>
    refine (siblingFrom_eq_siblingIn _ q d).trans ?_
    congr 2
    split <;> rfl

/-- A null entry is passed over in the search for the root. -/
theorem rootFrom_null {o p : Nat} (ho : o < u.bytes.size)
    (h : u.code.run u.bytes o = .ok (none, p)) : u.rootFrom o = u.rootFrom p := by
  rw [rootFrom, if_pos ho]
  split <;> simp_all

/-- The first entry is the root. -/
theorem rootFrom_entry {o : Nat} {e : EntryHead} (h : u.headAt? o = some e) :
    u.rootFrom o = .ok (o, e) := by
  obtain ⟨-, hlt, hcode⟩ := headAt?_eq_some_iff.1 h
  rw [rootFrom, if_pos hlt]
  split <;> simp_all

/-- The end of a list is no entry. -/
theorem headAt?_of_null {o p : Nat} (h : u.code.run u.bytes o = .ok (none, p)) :
    u.headAt? o = none := by
  unfold headAt?
  split
  · rw [h]
  · rfl

end EntryList

namespace Store

variable {S : Sections} {i : Nat} {u : LoadedUnit} {root e : Entry}

/-- The entry stands in the row of entries of the unit. -/
def InRow (i : Nat) (u : LoadedUnit) (e : Entry) : Prop :=
  e.unit = i ∧ ∃ d later, (d, e.offset) :: later <:+ u.entriesFrom 0 u.headerSize

/-- Links do not leave the row of entries. -/
theorem InRow.link (hu : (ofSections S).units[i]? = some u) (he : InRow i u e) {down : Bool}
    {e' : Entry} (hlink : (ofSections S).forest.link down e = some e') : InRow i u e' := by
  obtain ⟨rfl, d, later, hsuffix⟩ := he
  cases down with
  | false =>
    obtain ⟨o, ho, rfl⟩ := Option.map_eq_some_iff.1
      ((nextSibling_of_suffix hu hsuffix).symm.trans hlink)
    obtain ⟨rest, hrest, -⟩ := takeWhile_of_siblingIn_eq_some ho
    exact ⟨rfl, d, rest, hrest.trans ((List.suffix_cons _ _).trans hsuffix)⟩
  | true =>
    obtain ⟨head, hhead, -⟩ := EntryList.suffix_entriesFrom (Nat.le_refl _) hsuffix
    have htag : ((ofSections S).forest.tag e).isSome :=
      Holds.isSome_tag ⟨u, hu, Option.isSome_of_eq_some hhead⟩
    have hentered := Forest.entered_eq_some_iff.2 ⟨htag, hlink⟩
    obtain ⟨o, ho, rfl⟩ := Option.map_eq_some_iff.1
      ((entered_of_suffix hu hsuffix).symm.trans hentered)
    obtain ⟨rest, rfl, -⟩ := takeWhile_of_childIn_eq_some ho
    exact ⟨rfl, d + 1, rest, (List.suffix_cons _ _).trans hsuffix⟩

/-- **What the links say** of an entry that they lead to from the root: what a plain
reading says, or nothing if the unit does not start with an entry. -/
theorem nextSibling_of_reaches (hu : (ofSections S).units[i]? = some u)
    (hroot : (ofSections S).forest.unitRoot i = some root)
    (he : (ofSections S).forest.Reaches root e) :
    (ofSections S).forest.nextSibling e =
      if (u.headAt? u.headerSize).isSome then (u.plainSibling? e.offset).map (⟨i, ·⟩)
      else none := by
  have hunit := Forest.inUnit_of_reaches hroot he
  split
  · rename_i hfirst
    obtain ⟨head, hhead⟩ := Option.isSome_iff_exists.1 hfirst
    obtain ⟨-, hlt, hcode⟩ := EntryList.headAt?_eq_some_iff.1 hhead
    have hrow : InRow i u e := by
      refine Forest.forall_inUnit (fun down e e' he => he.link hu) (fun root' hroot' => ?_) e hunit
      obtain ⟨k, o⟩ := root'
      obtain ⟨rfl, v, headv, hv, hheadv⟩ := exists_unit_of_root? hroot'
      cases hu.symm.trans hv
      cases (EntryList.root_of_headAt? hhead).symm.trans hheadv
      exact ⟨rfl, 0, u.entriesAfter 0 head, EntryList.entriesFrom_entry hlt hcode ▸
        List.suffix_refl _⟩
    obtain ⟨rfl, d, later, hsuffix⟩ := hrow
    obtain ⟨heade, hheade, rfl⟩ := EntryList.suffix_entriesFrom (Nat.le_refl _) hsuffix
    exact (nextSibling_of_suffix hu hsuffix).trans
      (congrArg _ (EntryList.plainSibling?_eq_siblingIn hheade).symm)
  · rename_i hfirst
    obtain ⟨rfl, v, headv, hv, hheadv⟩ := exists_unit_of_root? hroot
    cases hu.symm.trans hv
    rcases EntryList.headAt?_or_entriesFrom_eq_nil hheadv with ⟨head, hhead⟩ | hnil
    · exact absurd (Option.isSome_of_eq_some hhead) hfirst
    · exact nextSibling_of_entriesFrom_eq_nil hu hnil (holds_of_inUnit hunit).1

/-- The sibling that a plain reading finds for an entry. -/
def plainSibling? (s : Store) (e : Entry) : Option Entry :=
  (s.ask e fun u o => u.plainSibling? o).map (⟨e.unit, ·⟩)

/-- **Links agree with a plain reading** on all entries that they lead to from the
root of a unit. -/
def LinksPlain (s : Store) : Prop :=
  ∀ i root e, s.forest.unitRoot i = some root → s.forest.Reaches root e →
    s.forest.nextSibling e = s.plainSibling? e

/-- **When links agree with a plain reading:** exactly if no entry of a unit that
starts with the end of a list has a sibling by a plain reading. -/
theorem linksPlain_iff (S : Sections) :
    (ofSections S).LinksPlain ↔
      ∀ i u root e, (ofSections S).units[i]? = some u →
        (ofSections S).forest.unitRoot i = some root → (ofSections S).forest.Reaches root e →
          (u.headAt? u.headerSize).isSome ∨ (ofSections S).plainSibling? e = none := by
  have hplain : ∀ {i u root e}, (ofSections S).units[i]? = some u →
      (ofSections S).forest.unitRoot i = some root → (ofSections S).forest.Reaches root e →
        (ofSections S).plainSibling? e = (u.plainSibling? e.offset).map (⟨i, ·⟩) := by
    intro i u root e hu hroot he
    obtain ⟨rfl, -⟩ := holds_of_inUnit (Forest.inUnit_of_reaches hroot he)
    simp only [plainSibling?, ask, hu]
  constructor
  · intro hall i u root e hu hroot he
    have hlink := nextSibling_of_reaches hu hroot he
    rw [hall i root e hroot he] at hlink
    split at hlink
    · rename_i hfirst
      exact .inl hfirst
    · exact .inr hlink
  · intro hall i root e hroot he
    obtain ⟨-, u, -, hu, -⟩ := exists_unit_of_root? hroot
    rw [nextSibling_of_reaches hu hroot he]
    rcases hall i u root e hu hroot he with hfirst | hnone
    · rw [if_pos hfirst, hplain hu hroot he]
    · rw [hnone, ← hplain hu hroot he, hnone, ite_self]

end Store

/-! ## A unit that starts with the end of a list -/

namespace Sections

/-- A unit whose entries are a root with two children, behind the end of a list. -/
def lateRoot : Sections where
  order := .little
  info := #[12, 0, 0, 0, 4, 0, 0, 0, 0, 0, 8, 0, 1, 2, 2, 0]
  abbreviations := #[1, 17, 1, 0, 0, 2, 52, 0, 0, 0, 0]
  text := #[]
  lineText := #[]
  textOffsets := #[]
  addresses := #[]
  line := #[]

/-- That unit before it is loaded. -/
def lateRawUnit : RawUnit := ⟨0, lateRoot.info, ⟨⟨.little, .bits32, 4, 8⟩, 0⟩, 11⟩

/-- The entries of that unit. -/
def lateEntryList : EntryList where
  encoding := lateRawUnit.header.encoding
  abbreviations := ((∅ : Abbreviations).insert 1 ⟨0x11, true, []⟩).insert 2 ⟨0x34, false, []⟩
  bytes := lateRawUnit.bytes
  headerSize := lateRawUnit.headerSize

/-- The unit has two abbreviations, one of them with children. -/
theorem abbreviations_lateRoot : Reader.abbreviations.run lateRoot.abbreviations 0 =
    .ok (lateEntryList.abbreviations, 11) := by
  have h₁ : Reader.abbreviation.run lateRoot.abbreviations 0 =
      .ok (some (1, ⟨0x11, true, []⟩), 5) := by cbv
  have h₂ : Reader.abbreviation.run lateRoot.abbreviations 5 =
      .ok (some (2, ⟨0x34, false, []⟩), 10) := by cbv
  have h₃ : Reader.abbreviation.run lateRoot.abbreviations 10 = .ok (none, 11) := by cbv
  refine (Reader.abbreviationsFrom_entry h₁ (by simp) (by simp [lateRoot])).trans ?_
  rw [Reader.abbreviationsFrom_entry h₂ (by simp) (by simp [lateRoot]),
    Reader.abbreviationsFrom_end h₃]
  rfl

/-- Its first entry is null. -/
theorem code_lateRoot_end : lateEntryList.code.run lateEntryList.bytes 11 = .ok (none, 12) := by
  cbv

/-- Its root comes next, -/
theorem headAt?_lateRoot : lateEntryList.headAt? 12 = some ⟨⟨0x11, true, []⟩, 13⟩ := by
  have hcode : Reader.unsigned.run lateEntryList.bytes 12 = .ok (1, 13) := by cbv
  exact EntryList.headAt?_eq_some_iff.2 ⟨by decide, by decide,
    EntryList.code_of_getElem? hcode (by decide)
      (by simp [lateEntryList, Std.HashMap.getElem_insert])⟩

/-- then two children without children. -/
theorem headAt?_lateChildren : lateEntryList.headAt? 13 = some ⟨⟨0x34, false, []⟩, 14⟩ ∧
    lateEntryList.headAt? 14 = some ⟨⟨0x34, false, []⟩, 15⟩ := by
  have h₁ : Reader.unsigned.run lateEntryList.bytes 13 = .ok (2, 14) := by cbv
  have h₂ : Reader.unsigned.run lateEntryList.bytes 14 = .ok (2, 15) := by cbv
  constructor
  · exact EntryList.headAt?_eq_some_iff.2 ⟨by decide, by decide,
      EntryList.code_of_getElem? h₁ (by decide) (by simp [lateEntryList])⟩
  · exact EntryList.headAt?_eq_some_iff.2 ⟨by decide, by decide,
      EntryList.code_of_getElem? h₂ (by decide) (by simp [lateEntryList])⟩

/-- The first of them is the first child. -/
theorem firstChild?_lateRoot : lateEntryList.firstChild? 12 = some 13 := by
  have hend : lateEntryList.valuesEnd? ⟨⟨0x11, true, []⟩, 13⟩ = .ok 13 := rfl
  simp only [EntryList.firstChild?, headAt?_lateRoot, hend, headAt?_lateChildren.1, if_true,
    Option.isSome_some]

/-- Read plainly, the other is its sibling. -/
theorem plainSibling?_lateChild : lateEntryList.plainSibling? 13 = some 14 := by
  have hend : lateEntryList.valuesEnd? ⟨⟨0x34, false, []⟩, 14⟩ = .ok 14 := rfl
  obtain ⟨-, hlt, hcode⟩ := EntryList.headAt?_eq_some_iff.1 headAt?_lateChildren.2
  rw [EntryList.plainSibling?_eq_siblingIn (d := 0) headAt?_lateChildren.1,
    EntryList.entriesAfter, hend]
  exact congrArg (siblingIn 0) (EntryList.entriesFrom_entry (d := 0) hlt hcode)

/-- The entry behind the null one is the root. -/
theorem root_lateRoot : lateEntryList.root = .ok (12, ⟨⟨0x11, true, []⟩, 13⟩) :=
  (EntryList.rootFrom_null (by decide) code_lateRoot_end).trans
    (EntryList.rootFrom_entry headAt?_lateRoot)

/-- The section has one raw unit. -/
theorem rawUnits_lateRoot : lateRoot.rawUnits = [lateRawUnit] := by
  have hraw : lateRoot.rawUnit 0 = .ok lateRawUnit := by cbv
  rw [rawUnits, rawUnitsFrom_unit hraw, rawUnitsFrom_end (by simp [lateRoot, lateRawUnit])]

/-- Its root has no attributes. -/
theorem rootValues_lateRoot : lateRoot.rootValues lateRawUnit = .ok (lateEntryList, []) := by
  have hvalues : (Reader.values lateEntryList.encoding []).run lateEntryList.bytes 13 =
      .ok ([], 13) := rfl
  simp only [rootValues, except_bind_eq_ok]
  exact ⟨_, abbreviations_lateRoot, _, root_lateRoot, _, hvalues, rfl⟩

/-- That unit, ready for use. -/
def lateLoadedUnit : LoadedUnit := (assembled 0 lateEntryList []).1

/-- The unit is loaded, without any link. -/
theorem units_lateRoot : (Store.ofSections lateRoot).units[0]? = some lateLoadedUnit := by
  have hload := (loadUnit?_eq_some_iff lateRoot lateRawUnit _).2
    ⟨_, _, rootValues_lateRoot, rfl, rfl, rfl⟩
  rw [Store.ofSections, ← Array.getElem?_toList, toList_units_load, rawUnits_lateRoot,
    List.filterMap_cons_some hload]
  rfl

end Sections

namespace Store

/-- **Links do not always agree with a plain reading.**  The first child of the root
is followed by the second one, but no link leads there. -/
theorem not_forall_linksPlain : ¬∀ S : Sections, (ofSections S).LinksPlain := by
  intro hall
  have hu := Sections.units_lateRoot
  have hroot : (ofSections Sections.lateRoot).forest.unitRoot 0 = some ⟨0, 12⟩ := by
    simp only [forest, root?, hu,
      show Sections.lateLoadedUnit.root = _ from Sections.root_lateRoot]
  have hchild : (ofSections Sections.lateRoot).forest.firstChild ⟨0, 12⟩ = some ⟨0, 13⟩ := by
    simp only [forest, firstChild?, ask, hu, Option.map_some,
      show Sections.lateLoadedUnit.firstChild? 12 = _ from Sections.firstChild?_lateRoot]
  have hplain : (ofSections Sections.lateRoot).plainSibling? ⟨0, 13⟩ = some ⟨0, 14⟩ := by
    simp only [plainSibling?, ask, hu, Option.map_some,
      show Sections.lateLoadedUnit.plainSibling? 13 = _ from Sections.plainSibling?_lateChild]
  have hlate : Sections.lateLoadedUnit.headAt? Sections.lateLoadedUnit.headerSize = none :=
    EntryList.headAt?_of_null Sections.code_lateRoot_end
  have hreaches := Forest.reaches_of_link true hchild
  have hlink := nextSibling_of_reaches hu hroot hreaches
  rw [hall _ 0 _ _ hroot hreaches, hplain, hlate] at hlink
  cases hlink

end Store
end Dwarf
end ParamAtlas
