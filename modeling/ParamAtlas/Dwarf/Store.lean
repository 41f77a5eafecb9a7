/-
# Debug information in sections

`GimliSource` with `from_dwarf`, `die`, `attr_value`, `unit_containing` and its answers as
a `DieSource`; specification, section 4.2.

Units stand one after another in the section of entries.  They are loaded in
order, up to the first whose header cannot be read.  A unit is passed over if

| what is faulty | where |
| --- | --- |
| the table of abbreviations | anywhere in it |
| the root entry | its code, or the value of any of its attributes |
| the line program that the root points to | its header |
| the entry address of the root | an index that leads nowhere |

The root may also move the bases from which the indexes of texts and addresses
count; otherwise both bases are 0.
-/
import ParamAtlas.Bytes.Utf8
import ParamAtlas.Dwarf.LineHeader
import ParamAtlas.Dwarf.Siblings
import ParamAtlas.Event

namespace ParamAtlas
namespace Dwarf

/-- The sections that hold debug information; a section that is not there is
empty. -/
structure Sections where
  order : ByteOrder
  info : Bytes
  abbreviations : Bytes
  text : Bytes
  lineText : Bytes
  textOffsets : Bytes
  addresses : Bytes
  line : Bytes
  deriving Repr, Inhabited

/-- A unit ready for use. -/
structure LoadedUnit extends EntryList where
  /-- Where the unit starts in the section of entries. -/
  start : Nat
  /-- Where the indexes of texts count from. -/
  textBase : Nat
  /-- Where the indexes of addresses count from. -/
  addressBase : Nat
  /-- The links noted when the entries of the unit were read in a row. -/
  siblings : Links
  siblings_eq : siblings = siblingLinks toEntryList.scan.entries

namespace AttributeCode

/-- The line program of a unit. -/
def lineProgram : AttributeCode := 0x10

/-- The base of the indexes of texts. -/
def textBase : AttributeCode := 0x72

/-- The base of the indexes of addresses. -/
def addressBase : AttributeCode := 0x73

/-- The base of the indexes of addresses in an older extension. -/
def olderAddressBase : AttributeCode := 0x2133

end AttributeCode

namespace Sections

/-- The address with an index, counted from a base. -/
def addressAt? (S : Sections) (size base : Nat) (index : UInt64) : Option Address :=
  (S.addresses.number? S.order (base + (index * size.toUInt64).toNat) size).map (·.toUInt64)

/-- The text with an index, counted from a base. -/
def textAt? (S : Sections) (format : Format) (base : Nat) (index : UInt64) : Option Bytes := do
  let width := format.offsetSize
  let o ← S.textOffsets.number? S.order (base + (index * width.toUInt64).toNat) width
  S.text.zeroEnded? o

/-- The last offset into a section among the values of some attributes. -/
def lastOffset? (codes : List AttributeCode) (values : List (AttributeCode × Value)) : Option Nat :=
  values.foldl (fun found (code, v) =>
    match v with
    | .sectionOffset o => if codes.contains code then some o else found
    | _ => found) none

/-- The last value of an attribute. -/
def lastValue? (code : AttributeCode) (values : List (AttributeCode × Value)) : Option Value :=
  (values.findRev? (·.1 = code)).map (·.2)

/-- Checks the line program that a root entry points to, if it does. -/
def checkLineProgram (S : Sections) (values : List (AttributeCode × Value)) : Except Fault Unit :=
  match lastOffset? [AttributeCode.lineProgram] values with
  | none => .ok ()
  | some o =>
    match (Reader.lineHeader S.order).run S.line o with
    | .ok _ => .ok ()
    | .error f => .error f

/-- Checks that the entry address of a root entry leads somewhere, if it has one. -/
def checkEntryAddress (S : Sections) (size base : Nat) (values : List (AttributeCode × Value)) :
    Except Fault Unit :=
  match lastValue? AttributeCode.lowPc values with
  | some (.addressIndex i) =>
    match S.addressAt? size base i with
    | some _ => .ok ()
    | none => .error .endOfInput
  | _ => .ok ()

/-- A unit's header, and the unit's bytes. -/
structure RawUnit where
  start : Nat
  bytes : Bytes
  header : UnitHeader
  headerSize : Nat

/-- The unit at an offset. -/
def rawUnit (S : Sections) (start : Nat) : Except Fault RawUnit :=
  match (Reader.initialLength S.order).run S.info start with
  | .error f => .error f
  | .ok ((length, format), p) =>
    match S.info.slice? start (p - start + length) with
    | none => .error .endOfInput
    | some bytes =>
      match (Reader.unitHeader S.order format).run bytes (p - start) with
      | .error f => .error f
      | .ok (header, size) => .ok ⟨start, bytes, header, size⟩

/-- The entries of a unit and the values of its root, before they are checked. -/
def rootValues (S : Sections) (raw : RawUnit) :
    Except Fault (EntryList × List (AttributeCode × Value)) := do
  let (abbreviations, _) ← Reader.abbreviations.run S.abbreviations raw.header.abbreviationOffset
  let list : EntryList := ⟨raw.header.encoding, abbreviations, raw.bytes, raw.headerSize⟩
  let (_, root) ← list.root
  let (values, _) ←
    (Reader.values list.encoding root.abbreviation.attributes).run list.bytes root.values
  .ok (list, values)

/-- Where the indexes of texts count from, by the values of a root. -/
def textBase (values : List (AttributeCode × Value)) : Nat :=
  (lastOffset? [AttributeCode.textBase] values).getD 0

/-- Where the indexes of addresses count from, by the values of a root. -/
def addressBase (values : List (AttributeCode × Value)) : Nat :=
  (lastOffset? [AttributeCode.addressBase, AttributeCode.olderAddressBase] values).getD 0

/-- The unit that entries and the values of their root make up, and what cut the
reading of the entries short, if anything did. -/
def assembled (start : Nat) (list : EntryList) (values : List (AttributeCode × Value)) :
    LoadedUnit × Option Fault :=
  let scan := list.scan
  (⟨list, start, textBase values, addressBase values, siblingLinks scan.entries, rfl⟩, scan.fault)

/-- Makes a unit ready for use. -/
def loadUnit (S : Sections) (raw : RawUnit) : Except Fault (LoadedUnit × Option Fault) := do
  let (list, values) ← S.rootValues raw
  S.checkLineProgram values
  S.checkEntryAddress list.encoding.addressSize (addressBase values) values
  .ok (assembled raw.start list values)

/-- Units loaded, and what was told on the way. -/
structure Loading where
  units : Array LoadedUnit
  events : Array Event

/-- Takes in what became of one unit. -/
def Loading.add (l : Loading) (start : Nat) : Except Fault (LoadedUnit × Option Fault) → Loading
  | .error f => { l with events := l.events.push (.unitSkipped start f) }
  | .ok (u, none) => { l with units := l.units.push u }
  | .ok (u, some f) => ⟨l.units.push u, l.events.push (.entriesCut start f)⟩

/-- The unit after this one starts behind it. -/
theorem lt_rawUnit_end (S : Sections) (start : Nat) (raw : RawUnit)
    (h : S.rawUnit start = .ok raw) :
    start < start + raw.bytes.size ∧ start + raw.bytes.size ≤ S.info.size := by
  unfold rawUnit at h
  split at h
  · cases h
  · rename_i length format p hp
    have lt : start < p := Reader.lt_of_andThen (r := Reader.number S.order 4)
      (fun b p a q h => by
        simp only [Reader.number] at h
        split at h
        · cases h; omega
        · cases h) _ _ _ _ hp
    split at h
    · cases h
    · rename_i bytes hb
      unfold Bytes.slice? at hb
      split at hb
      · split at h
        · cases h
        · cases h; cases hb; simp only [Array.size_extract]; omega
      · cases hb

/-- Loads the units from an offset on, behind those loaded. -/
def loadFrom (S : Sections) (l : Loading) (start : Nat) : Loading :=
  if start < S.info.size then
    match _ : S.rawUnit start with
    | .error f => { l with events := l.events.push (.unitsStopped f) }
    | .ok raw => S.loadFrom (l.add start (S.loadUnit raw)) (start + raw.bytes.size)
  else l
termination_by S.info.size - start
decreasing_by have := S.lt_rawUnit_end _ _ ‹_›; omega

/-- Loads all units. -/
def load (S : Sections) : Loading :=
  let l := S.loadFrom ⟨#[], #[]⟩ 0
  { l with events := l.events.push (.unitsLoaded l.units.size) }

end Sections

/-- An entry: the unit it belongs to and its offset there. -/
structure Entry where
  unit : Nat
  offset : Nat
  deriving DecidableEq, Repr, Inhabited

/-- Loaded units and the sections that their attributes point into. -/
structure Store where
  sections : Sections
  units : Array LoadedUnit

namespace Store

/-- The store of all units that can be loaded. -/
def ofSections (S : Sections) : Store := ⟨S, S.load.units⟩

/-- Of the first `n` units, the last one that starts at or before an offset. -/
def lastStarting (s : Store) (o : Nat) : (n : Nat) → Option Nat
  | 0 => none
  | n + 1 =>
    match s.units[n]? with
    | some u => if u.start ≤ o then some n else s.lastStarting o n
    | none => s.lastStarting o n

/-- Asks something of the unit an entry belongs to, and of its offset there. -/
def ask {α : Type} (s : Store) (e : Entry) (question : LoadedUnit → Nat → Option α) : Option α :=
  match s.units[e.unit]? with
  | none => none
  | some u => question u e.offset

/-- The root entry of a unit. -/
def root? (s : Store) (i : Nat) : Option Entry :=
  match s.units[i]? with
  | none => none
  | some u =>
    match u.root with
    | .ok (o, _) => some ⟨i, o⟩
    | .error _ => none

/-- The entry at an offset in the section of entries. -/
def entryAt? (s : Store) (r : EntryRef) : Option Entry :=
  let o := r.offset.toNat
  match s.lastStarting o s.units.size with
  | none => none
  | some i =>
    match s.units[i]? with
    | none => none
    | some u => if (u.headAt? (o - u.start)).isSome then some ⟨i, o - u.start⟩ else none

/-- The first child of an entry. -/
def firstChild? (s : Store) (e : Entry) : Option Entry :=
  (s.ask e fun u o => u.firstChild? o).map (⟨e.unit, ·⟩)

/-- The next sibling of an entry. -/
def nextSibling? (s : Store) (e : Entry) : Option Entry :=
  (s.ask e fun u o => u.siblings[o]?).map (⟨e.unit, ·⟩)

/-- The offset of an entry in the section of entries. -/
def ref (s : Store) (e : Entry) : EntryRef :=
  ⟨(((s.units[e.unit]?).map (·.start)).getD 0 + e.offset).toUInt64⟩

/-- The text that a value gives. -/
def textOf? (s : Store) (u : LoadedUnit) : Value → Option Bytes
  | .text t => some t
  | .textOffset o => s.sections.text.zeroEnded? o
  | .lineTextOffset o => s.sections.lineText.zeroEnded? o
  | .textIndex i => s.sections.textAt? u.encoding.format u.textBase i
  | _ => none

/-- The address that a value gives. -/
def addressOf? (s : Store) (u : LoadedUnit) : Value → Option Address
  | .address a => some a
  | .addressIndex i => s.sections.addressAt? u.encoding.addressSize u.addressBase i
  | _ => none

/-- The flag that a value gives. -/
def flagOf? : Value → Option Bool
  | .flag b => some b
  | _ => none

/-- The offset in the section of entries that a value refers to.  A reference
within a unit counts from its start; the sum is one of 64 bits and wraps around. -/
def referenceOf? (u : LoadedUnit) : Value → Option EntryRef
  | .unitReference r => some ⟨u.start.toUInt64 + r⟩
  | .forestReference r => some ⟨r⟩
  | _ => none

/-- What an attribute of an entry gives, read in some way. -/
def attribute? {α : Type} (s : Store) (e : Entry) (code : AttributeCode)
    (read : LoadedUnit → Value → Option α) : Option α :=
  s.ask e fun u o => (u.value? o code).bind (read u)

/-- How many bytes of its unit stand behind an entry. -/
def height (s : Store) (e : Entry) : Nat :=
  match s.units[e.unit]? with
  | none => 0
  | some u => u.bytes.size - e.offset

/-- A first child has less behind it than its parent. -/
theorem height_firstChild? (s : Store) (e c : Entry) (h : s.firstChild? e = some c) :
    s.height c < s.height e := by
  obtain ⟨o, ho, rfl⟩ := Option.map_eq_some_iff.1 h
  unfold ask at ho
  split at ho
  · cases ho
  · rename_i u hu
    have ⟨lt, inside, _⟩ := u.firstChild?_bounds _ _ ho
    simp only [EntryList.inside, Bool.and_eq_true, decide_eq_true_eq] at inside
    simp only [height, hu]; omega

/-- So has a next sibling. -/
theorem height_nextSibling? (s : Store) (e c : Entry) (h : s.nextSibling? e = some c) :
    s.height c < s.height e := by
  obtain ⟨o, ho, rfl⟩ := Option.map_eq_some_iff.1 h
  unfold ask at ho
  split at ho
  · cases ho
  · rename_i u hu
    dsimp only at ho
    rw [u.siblings_eq] at ho
    have := lt_of_siblingLinks u.toEntryList ho
    simp only [height, hu]; omega

/-- The forest of all loaded units. -/
def forest (s : Store) : Forest Entry where
  unitCount := s.units.size
  unitInfo i := (s.units[i]?).map fun u =>
    ⟨⟨u.start.toUInt64⟩, u.encoding.version, u.encoding.addressSize⟩
  unitRoot := s.root?
  tag e := s.ask e fun u o => (u.headAt? o).map (·.abbreviation.tag)
  firstChild := s.firstChild?
  nextSibling := s.nextSibling?
  entryAt := s.entryAt?
  ref := s.ref
  text e code := (s.attribute? e code s.textOf?).map Utf8.lossy
  flag e code := s.attribute? e code fun _ => flagOf?
  address e code := s.attribute? e code s.addressOf?
  reference e code := s.attribute? e code referenceOf?
  height := s.height
  height_firstChild := s.height_firstChild?
  height_nextSibling := s.height_nextSibling?

end Store
end Dwarf
end ParamAtlas
