/-
# Units

`LoadedUnit`, and `gimli::Unit` with the entries that it parses; specification, section 4.2.

A unit is its bytes from the start of its header to its end; offsets of its
entries count from there.

| part of the header | version 2 to 4 | version 5 |
| --- | --- | --- |
| 1 | length | length |
| 2 | version | version |
| 3 | offset of the abbreviations | type of the unit |
| 4 | size of addresses | size of addresses |
| 5 | – | offset of the abbreviations |
| 6 | – | signature and offset (types 2, 6), identity (types 4, 5) |

Entries follow: the code of an abbreviation and the values of its attributes,
or the single code 0, which ends a list of children.
-/
import ParamAtlas.Dwarf.Value

namespace ParamAtlas
namespace Dwarf

/-- What a unit's header says. -/
structure UnitHeader where
  encoding : Encoding
  abbreviationOffset : Nat
  deriving DecidableEq, Repr, Inhabited

namespace Reader

/-- Reads what version 5 adds to the header of a unit of some type. -/
def unitTypeFields (format : Format) (type : Nat) : Reader Unit :=
  if type = 1 ∨ type = 3 then give ()
  else if type = 2 ∨ type = 6 then skip (8 + format.offsetSize)
  else if type = 4 ∨ type = 5 then skip 8
  else fault .unitType

/-- Reads the header of a unit after its length. -/
def unitHeader (order : ByteOrder) (format : Format) : Reader UnitHeader := do
  let v ← version order
  if v ≤ 4 then do
    let abbreviationOffset ← offset order format
    let size ← addressSize
    give ⟨⟨order, format, v, size⟩, abbreviationOffset⟩
  else do
    let type ← byte
    let size ← addressSize
    let abbreviationOffset ← offset order format
    unitTypeFields format type
    give ⟨⟨order, format, v, size⟩, abbreviationOffset⟩

end Reader

/-- The head of an entry: its abbreviation, and where its values begin. -/
structure EntryHead where
  abbreviation : Abbreviation
  values : Nat

/-- A unit with its abbreviations, before its root entry has been looked at. -/
structure EntryList where
  encoding : Encoding
  abbreviations : Abbreviations
  /-- The bytes of the whole unit, its header first. -/
  bytes : Bytes
  /-- Where the entries begin. -/
  headerSize : Nat

namespace EntryList

/-- Reads the code of an entry; none stands for the end of a list of children. -/
def code (u : EntryList) : Reader (Option Abbreviation) := do
  let c ← Reader.unsigned
  if c = 0 then Reader.give none
  else match u.abbreviations[c]? with
    | none => Reader.fault .unknownAbbreviation
    | some a => Reader.give (some a)

/-- A code takes at least one byte. -/
theorem code_lt (u : EntryList) (b : Bytes) (p q : Nat) (a : Option Abbreviation)
    (h : u.code.run b p = .ok (a, q)) : p < q :=
  Reader.lt_of_andThen Reader.unsigned_lt b p a q h

/-- Whether entries may stand at an offset. -/
def inside (u : EntryList) (o : Nat) : Bool := u.headerSize ≤ o && o < u.bytes.size

/-- The entry at an offset.  Only the code is looked at, so any offset inside
the unit where a known code can be read counts. -/
def headAt? (u : EntryList) (o : Nat) : Option EntryHead :=
  if u.inside o then
    match u.code.run u.bytes o with
    | .ok (some a, p) => some ⟨a, p⟩
    | .ok (none, _) => none
    | .error _ => none
  else none

/-- An entry that is found is inside its unit. -/
theorem inside_of_headAt? (u : EntryList) (o : Nat) (e : EntryHead) (h : u.headAt? o = some e) :
    u.inside o := by
  unfold headAt? at h
  split at h
  · assumption
  · cases h

/-- The values of an entry stand behind its offset. -/
theorem lt_values (u : EntryList) (o : Nat) (e : EntryHead) (h : u.headAt? o = some e) :
    o < e.values := by
  unfold headAt? at h
  split at h
  · split at h
    · rename_i a p hr
      have := u.code_lt _ _ _ _ hr
      cases h; exact this
    · cases h
    · cases h
  · cases h

/-- The value of an attribute of the entry at an offset. -/
def value? (u : EntryList) (o : Nat) (code : AttributeCode) : Option Value := do
  let e ← u.headAt? o
  let found ← (Reader.findValue u.encoding code e.abbreviation.attributes).value? u.bytes e.values
  found

/-- Where the values of an entry end. -/
def valuesEnd? (u : EntryList) (e : EntryHead) : Except Fault Nat :=
  match (Reader.skipValues u.encoding e.abbreviation.attributes).run u.bytes e.values with
  | .ok (_, p) => .ok p
  | .error f => .error f

/-- An entry ends behind its code. -/
theorem le_valuesEnd? (u : EntryList) (e : EntryHead) (p : Nat) (h : u.valuesEnd? e = .ok p) :
    e.values ≤ p := by
  unfold valuesEnd? at h
  split at h
  · rename_i a q hr
    cases h; exact ((Reader.skipValues _ _).forward _ _ _ _ hr).1
  · cases h

/-- The first child of the entry at an offset: the entry right behind its
values, if it may have children and its list of children is not empty. -/
def firstChild? (u : EntryList) (o : Nat) : Option Nat :=
  match u.headAt? o with
  | none => none
  | some e =>
    if e.abbreviation.hasChildren then
      match u.valuesEnd? e with
      | .error _ => none
      | .ok p => if (u.headAt? p).isSome then some p else none
    else none

/-- A first child stands behind its parent, inside the unit. -/
theorem firstChild?_bounds (u : EntryList) (o c : Nat) (h : u.firstChild? o = some c) :
    o < c ∧ u.inside o ∧ u.inside c := by
  unfold firstChild? at h
  split at h
  · cases h
  · rename_i e he
    split at h
    · split at h
      · cases h
      · rename_i p hp
        split at h
        · rename_i hc
          obtain ⟨e', he'⟩ := Option.isSome_iff_exists.1 hc
          rw [← Option.some.inj h]
          exact ⟨Nat.lt_of_lt_of_le (u.lt_values o e he) (u.le_valuesEnd? e p hp),
            u.inside_of_headAt? o e he, u.inside_of_headAt? p e' he'⟩
        · cases h
    · cases h

/-- What a reading of all entries in a row finds: the depth and the offset of
each, and the fault that ended the reading early. -/
structure Scan where
  entries : Array (Nat × Nat)
  fault : Option Fault

/-- Reads entries in a row from an offset on.  The depth rises after an entry
that may have children and falls at each end of a list.  The reading ends at
the end of the unit, at a fault, and in silence at an entry above depth 0. -/
def scanFrom (u : EntryList) (seen : Array (Nat × Nat)) (depth : Int) (o : Nat) : Scan :=
  if o < u.bytes.size then
    match _ : u.code.run u.bytes o with
    | .error f => ⟨seen, some f⟩
    | .ok (none, p) => u.scanFrom seen (depth - 1) p
    | .ok (some a, p) =>
      if depth < 0 then ⟨seen, none⟩
      else
        let seen := seen.push (depth.toNat, o)
        match _ : u.valuesEnd? ⟨a, p⟩ with
        | .error f => ⟨seen, some f⟩
        | .ok q => u.scanFrom seen (if a.hasChildren then depth + 1 else depth) q
  else ⟨seen, none⟩
termination_by u.bytes.size - o
decreasing_by
  · have := u.code_lt _ _ _ _ ‹_›; omega
  · have := u.code_lt _ _ _ _ ‹u.code.run u.bytes o = _›
    have : p ≤ q := u.le_valuesEnd? ⟨a, p⟩ q ‹_›
    omega

/-- Reads all entries of the unit in a row. -/
def scan (u : EntryList) : Scan := u.scanFrom #[] 0 u.headerSize

/-- The offsets that a reading in a row finds rise, and stay inside the unit. -/
theorem rising_scanFrom (u : EntryList) (seen : Array (Nat × Nat)) (depth : Int) (o : Nat)
    (hrise : seen.toList.Pairwise (·.2 < ·.2))
    (hseen : ∀ e ∈ seen.toList, e.2 < o ∧ e.2 < u.bytes.size) :
    (u.scanFrom seen depth o).entries.toList.Pairwise (·.2 < ·.2) ∧
      ∀ e ∈ (u.scanFrom seen depth o).entries.toList, e.2 < u.bytes.size := by
  -- What is read next stands behind all that has been seen.
  have hpush : ∀ {seen : Array (Nat × Nat)} {d o : Nat}, o < u.bytes.size →
      seen.toList.Pairwise (·.2 < ·.2) → (∀ e ∈ seen.toList, e.2 < o ∧ e.2 < u.bytes.size) →
      (seen.push (d, o)).toList.Pairwise (·.2 < ·.2) ∧
        ∀ e ∈ (seen.push (d, o)).toList, e.2 ≤ o ∧ e.2 < u.bytes.size := by
    intro seen d o ho hrise hseen
    rw [Array.toList_push, List.pairwise_append]
    refine ⟨⟨hrise, List.pairwise_singleton .., by simpa using fun a b h => (hseen _ h).1⟩, ?_⟩
    intro e he
    rcases List.mem_append.1 he with he | he
    · exact ⟨Nat.le_of_lt (hseen e he).1, (hseen e he).2⟩
    · rw [List.mem_singleton.1 he]
      exact ⟨Nat.le_refl o, ho⟩
  fun_induction u.scanFrom seen depth o with
  | case1 => exact ⟨hrise, fun e he => (hseen e he).2⟩
  | case2 seen depth o _ p hcode ih =>
    have := u.code_lt _ _ _ _ hcode
    exact ih hrise fun e he => ⟨by have := hseen e he; omega, (hseen e he).2⟩
  | case3 => exact ⟨hrise, fun e he => (hseen e he).2⟩
  | case4 seen depth o hlt =>
    exact ⟨(hpush hlt hrise hseen).1, fun e he => ((hpush hlt hrise hseen).2 e he).2⟩
  | case5 seen depth o hlt a p hcode _ _ q hend ih =>
    have := u.code_lt _ _ _ _ hcode
    have : p ≤ q := u.le_valuesEnd? _ _ hend
    obtain ⟨hrise, hseen⟩ := hpush (d := depth.toNat) hlt hrise hseen
    exact ih hrise fun e he => ⟨by have := hseen e he; omega, (hseen e he).2⟩
  | case6 => exact ⟨hrise, fun e he => (hseen e he).2⟩

/-- **The entries of a scan come in ascending order,** and all are in the unit. -/
theorem rising_scan (u : EntryList) : u.scan.entries.toList.Pairwise (·.2 < ·.2) ∧
    ∀ e ∈ u.scan.entries.toList, e.2 < u.bytes.size :=
  u.rising_scanFrom #[] 0 u.headerSize .nil (by simp)

/-- The first entry of the unit: the root.  Ends of lists before it are passed
over. -/
def rootFrom (u : EntryList) (o : Nat) : Except Fault (Nat × EntryHead) :=
  if o < u.bytes.size then
    match _ : u.code.run u.bytes o with
    | .error f => .error f
    | .ok (none, p) => u.rootFrom p
    | .ok (some a, p) => .ok (o, ⟨a, p⟩)
  else .error .missingRoot
termination_by u.bytes.size - o
decreasing_by have := u.code_lt _ _ _ _ ‹_›; omega

/-- The root entry and its offset. -/
def root (u : EntryList) : Except Fault (Nat × EntryHead) := u.rootFrom u.headerSize

end EntryList
end Dwarf
end ParamAtlas
