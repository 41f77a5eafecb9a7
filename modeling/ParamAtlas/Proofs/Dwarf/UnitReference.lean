/-
# References within a unit

An attribute may refer to another entry of its unit by the distance from the
start of the unit.  The distance is any 64-bit value that the bytes hold, and it
is added to the start of the unit, in 64 bits, without a look at where the unit
ends.  What stands at the sum is looked up in the whole section.

| the distance is | what it leads to, if anything |
| --- | --- |
| below the size of the unit | an entry of the unit |
| the size of the unit or more | an entry of a later unit |
| so great that the sum leaves 64 bits | an entry of an earlier unit |

So says `unit_target`.  References stay in their units (`Confined`) exactly if no
sum leaves 64 bits and no distance that leads to an entry reaches the end of its
unit (`confined_iff`).  Two units, the first of which refers to an entry of the
second, show that they do not always stay there.
-/

import ParamAtlas.Proofs.Dwarf.Lookup

namespace ParamAtlas
namespace Dwarf
namespace Store

/-- An attribute of an entry of the unit `u` holds a reference within the unit,
with `r` as its distance. -/
structure RefersWithin (s : Store) (e : Entry) (code : AttributeCode) (u : LoadedUnit)
    (r : UInt64) : Prop where
  unit : s.units[e.unit]? = some u
  value : u.value? e.offset code = some (.unitReference r)

/-- The entry to which an attribute of an entry leads. -/
def target? (s : Store) (e : Entry) (code : AttributeCode) : Option Entry :=
  (s.forest.reference e code).bind s.forest.entryAt

/-- **References within units stay there.**  The start of the unit and the
distance add up without overflow, what stands at the sum belongs to the same
unit, and a distance that is not below the size of the unit leads nowhere. -/
def Confined (s : Store) : Prop :=
  ∀ e code u r, s.RefersWithin e code u r →
    u.start + r.toNat < 2 ^ 64 ∧
      (∀ t, s.target? e code = some t → t.unit = e.unit) ∧
      (u.bytes.size ≤ r.toNat → s.target? e code = none)

variable {S : Sections} {e : Entry} {code : AttributeCode} {u : LoadedUnit} {r : UInt64}

/-- What a reference within a unit leads to: its start and the reference together, in 64
bits. -/
theorem RefersWithin.reference_eq {s : Store} (h : s.RefersWithin e code u r) :
    s.forest.reference e code = some ⟨u.start.toUInt64 + r⟩ := by
  simp only [forest, attribute?, ask, h.unit, h.value, Option.bind_some, referenceOf?]

/-- A reference within a unit leads to the entry at the sum, reduced to 64 bits. -/
theorem RefersWithin.target?_eq_some_iff (h : (ofSections S).RefersWithin e code u r) {t : Entry} :
    (ofSections S).target? e code = some t ↔
      ∃ v, (ofSections S).units[t.unit]? = some v ∧ (v.headAt? t.offset).isSome ∧
        v.start + t.offset = (u.start + r.toNat) % 2 ^ 64 := by
  have hsum : (u.start.toUInt64 + r).toNat = (u.start + r.toNat) % 2 ^ 64 := by
    rw [UInt64.toNat_add, Nat.toUInt64_eq, UInt64.toNat_ofNat', Nat.mod_add_mod]
  rw [target?, h.reference_eq, Option.bind_some, ← hsum]
  exact entryAt?_eq_some_iff

/-- **To which unit a reference leads.** -/
theorem RefersWithin.unit_target (h : (ofSections S).RefersWithin e code u r) {t : Entry}
    (ht : (ofSections S).target? e code = some t) :
    if 2 ^ 64 ≤ u.start + r.toNat then t.unit < e.unit
    else if r.toNat < u.bytes.size then t.unit = e.unit
    else e.unit < t.unit := by
  obtain ⟨v, hv, hsome, hsum⟩ := h.target?_eq_some_iff.1 ht
  obtain ⟨head, hhead⟩ := Option.isSome_iff_exists.1 hsome
  obtain ⟨-, hlt, -⟩ := EntryList.headAt?_eq_some_iff.1 hhead
  have hr : r.toNat < 2 ^ 64 := r.toNat_lt
  rcases Nat.lt_trichotomy t.unit e.unit with hunit | hunit | hunit
  · have := end_le_start hunit hv h.unit
    split_ifs <;> omega
  · rw [hunit, h.unit] at hv
    cases hv
    split_ifs <;> omega
  · have := end_le_start hunit h.unit hv
    split_ifs <;> omega

/-- **When references within units stay there:** exactly if no sum overflows and
every distance that leads to an entry is below the size of the unit. -/
theorem confined_iff (S : Sections) :
    (ofSections S).Confined ↔
      ∀ e code u r, (ofSections S).RefersWithin e code u r →
        u.start + r.toNat < 2 ^ 64 ∧
          ∀ t, (ofSections S).target? e code = some t → r.toNat < u.bytes.size := by
  constructor
  · intro hall e code u r h
    obtain ⟨hfits, hsame, -⟩ := hall e code u r h
    refine ⟨hfits, fun t ht => ?_⟩
    have hunit := h.unit_target ht
    have := hsame t ht
    split_ifs at hunit <;> omega
  · intro hall e code u r h
    obtain ⟨hfits, hinside⟩ := hall e code u r h
    refine ⟨hfits, fun t ht => ?_, fun hpast => Option.eq_none_iff_forall_not_mem.2 fun t ht => ?_⟩
    · have hunit := h.unit_target ht
      rwa [if_neg (Nat.not_le_of_lt hfits), if_pos (hinside t ht)] at hunit
    · exact Nat.not_lt_of_le hpast (hinside t ht)

end Store

/-! ## Two units, the first of which refers to the second -/

namespace Sections

/-- Two units of one parameter each.  The first parameter refers to an origin 27
bytes behind the start of its unit, and the unit is 16 bytes long; 27 bytes
behind it stands the second parameter, which is called `x`. -/
def twoUnits : Sections where
  order := .little
  info := #[12, 0, 0, 0, 4, 0, 0, 0, 0, 0, 8, 1, 27, 0, 0, 0,
    10, 0, 0, 0, 4, 0, 0, 0, 0, 0, 8, 2, 120, 0]
  abbreviations := #[1, 5, 0, 0x31, 0x13, 0, 0, 2, 5, 0, 0x03, 0x08, 0, 0, 0]
  text := #[]
  lineText := #[]
  textOffsets := #[]
  addresses := #[]
  line := #[]

/-- One of the two units before it is loaded, by the bounds of its bytes. -/
def rawOfTwo (start stop : Nat) : RawUnit :=
  ⟨start, twoUnits.info.extract start stop, ⟨⟨.little, .bits32, 4, 8⟩, 0⟩, 11⟩

/-- The entries of one of the two units. -/
def listOfTwo (start stop : Nat) : EntryList where
  encoding := ⟨.little, .bits32, 4, 8⟩
  abbreviations := ((∅ : Abbreviations).insert 1 ⟨0x05, false, [⟨0x31, 0x13, false⟩]⟩).insert 2
    ⟨0x05, false, [⟨0x03, 0x08, false⟩]⟩
  bytes := twoUnits.info.extract start stop
  headerSize := 11

/-- The section has two raw units. -/
theorem rawUnits_twoUnits : twoUnits.rawUnits = [rawOfTwo 0 16, rawOfTwo 16 30] := by
  have h₀ : twoUnits.rawUnit 0 = .ok (rawOfTwo 0 16) := by cbv
  have h₁ : twoUnits.rawUnit (0 + (rawOfTwo 0 16).bytes.size) = .ok (rawOfTwo 16 30) := by cbv
  rw [rawUnits, rawUnitsFrom_unit h₀, rawUnitsFrom_unit h₁,
    rawUnitsFrom_end (by simp [twoUnits, rawOfTwo])]

/-- Their abbreviations can be read. -/
theorem abbreviations_twoUnits : Reader.abbreviations.run twoUnits.abbreviations 0 =
    .ok ((listOfTwo 0 16).abbreviations, 15) := by
  have h₁ : Reader.abbreviation.run twoUnits.abbreviations 0 =
      .ok (some (1, ⟨0x05, false, [⟨0x31, 0x13, false⟩]⟩), 7) := by cbv
  have h₂ : Reader.abbreviation.run twoUnits.abbreviations 7 =
      .ok (some (2, ⟨0x05, false, [⟨0x03, 0x08, false⟩]⟩), 14) := by cbv
  have h₃ : Reader.abbreviation.run twoUnits.abbreviations 14 = .ok (none, 15) := by cbv
  refine (Reader.abbreviationsFrom_entry h₁ (by simp) (by simp [twoUnits])).trans ?_
  rw [Reader.abbreviationsFrom_entry h₂ (by simp) (by simp [twoUnits]),
    Reader.abbreviationsFrom_end h₃]
  rfl

/-- The one entry of either unit stands behind its header, under a code of the table. -/
theorem headAt?_listOfTwo {start stop c : Nat} {a : Abbreviation}
    (hcode : Reader.unsigned.run (listOfTwo start stop).bytes 11 = .ok (c, 12)) (hc : c ≠ 0)
    (ha : (listOfTwo start stop).abbreviations[c]? = some a)
    (hsize : 11 < (listOfTwo start stop).bytes.size) :
    (listOfTwo start stop).headAt? 11 = some ⟨a, 12⟩ :=
  EntryList.headAt?_eq_some_iff.2
    ⟨Nat.le_refl _, hsize, EntryList.code_of_getElem? hcode hc ha⟩

/-- The entry of the first unit. -/
theorem headAt?_first : (listOfTwo 0 16).headAt? 11 =
    some ⟨⟨0x05, false, [⟨0x31, 0x13, false⟩]⟩, 12⟩ :=
  headAt?_listOfTwo (c := 1) (by cbv) (by decide)
    (by simp [listOfTwo, Std.HashMap.getElem_insert]) (by decide)

/-- The entry of the second unit. -/
theorem headAt?_second : (listOfTwo 16 30).headAt? 11 =
    some ⟨⟨0x05, false, [⟨0x03, 0x08, false⟩]⟩, 12⟩ :=
  headAt?_listOfTwo (c := 2) (by cbv) (by decide) (by simp [listOfTwo]) (by decide)

/-- What is read of either unit before it is checked: the values of its one entry. -/
theorem rootValues_listOfTwo {start stop p : Nat} {a : Abbreviation}
    {values : List (AttributeCode × Value)}
    (hhead : (listOfTwo start stop).headAt? 11 = some ⟨a, 12⟩)
    (hvalues : (Reader.values (listOfTwo start stop).encoding a.attributes).run
      (listOfTwo start stop).bytes 12 = .ok (values, p)) :
    twoUnits.rootValues (rawOfTwo start stop) = .ok (listOfTwo start stop, values) := by
  simp only [rootValues, except_bind_eq_ok]
  exact ⟨_, abbreviations_twoUnits, _, EntryList.root_of_headAt? hhead, _, hvalues, rfl⟩

/-- The first unit, ready for use. -/
def firstOfTwo : LoadedUnit :=
  (assembled 0 (listOfTwo 0 16) [(AttributeCode.abstractOrigin, .unitReference 27)]).1

/-- The second unit, ready for use. -/
def secondOfTwo : LoadedUnit :=
  (assembled 16 (listOfTwo 16 30) [(AttributeCode.name, .text #[120])]).1

/-- Both are loaded. -/
theorem toList_units_twoUnits : twoUnits.load.units.toList = [firstOfTwo, secondOfTwo] := by
  have h₁ := (loadUnit?_eq_some_iff twoUnits (rawOfTwo 0 16) firstOfTwo).2
    ⟨_, _, rootValues_listOfTwo (p := 16) headAt?_first (by cbv), rfl, rfl, rfl⟩
  have h₂ := (loadUnit?_eq_some_iff twoUnits (rawOfTwo 16 30) secondOfTwo).2
    ⟨_, _, rootValues_listOfTwo (p := 14) headAt?_second (by cbv), rfl, rfl, rfl⟩
  rw [toList_units_load, rawUnits_twoUnits, List.filterMap_cons_some h₁,
    List.filterMap_cons_some h₂]
  rfl

/-- The root of the first one refers to what is behind its end. -/
theorem value?_first : firstOfTwo.value? 11 .abstractOrigin = some (.unitReference 27) := by
  have hfound : (Reader.findValue (listOfTwo 0 16).encoding .abstractOrigin
      [⟨0x31, 0x13, false⟩]).value? (listOfTwo 0 16).bytes 12 =
        some (some (.unitReference 27)) := by cbv
  rw [EntryList.value?, show firstOfTwo.headAt? 11 = _ from headAt?_first]
  exact congrArg (fun found => found.bind id) hfound

end Sections

namespace Store

/-- **References within a unit do not always stay there.**  The first parameter
leads to the second one, which stands in another unit. -/
theorem not_forall_confined : ¬∀ S : Sections, (ofSections S).Confined := by
  intro hall
  have hfirst : (ofSections Sections.twoUnits).units[0]? = some Sections.firstOfTwo := by
    rw [ofSections, ← Array.getElem?_toList, Sections.toList_units_twoUnits]
    rfl
  have hsecond : (ofSections Sections.twoUnits).units[1]? = some Sections.secondOfTwo := by
    rw [ofSections, ← Array.getElem?_toList, Sections.toList_units_twoUnits]
    rfl
  have hrefers : (ofSections Sections.twoUnits).RefersWithin ⟨0, 11⟩ .abstractOrigin
      Sections.firstOfTwo 27 := ⟨hfirst, Sections.value?_first⟩
  have htarget : (ofSections Sections.twoUnits).target? ⟨0, 11⟩ .abstractOrigin = some ⟨1, 11⟩ :=
    hrefers.target?_eq_some_iff.2
      ⟨_, hsecond, Option.isSome_of_eq_some Sections.headAt?_second, rfl⟩
  obtain ⟨-, hsame, -⟩ := hall _ _ _ _ _ hrefers
  exact absurd (hsame _ htarget) (by decide)

end Store
end Dwarf
end ParamAtlas
