/-
# ELF images

`object::File::parse`, for this format.

The header says where three tables are; a zero offset means that there is none.
Rows and their fields come in two widths:

| row | narrow | wide |
| --- | ---: | ---: |
| header | 52 | 64 |
| segment | 32 | 56 |
| section | 40 | 64 |
| symbol | 16 | 24 |
| compression header | 12 | 24 |

A count or an index that does not fit into the header stands in the first row
of the section table.  The table of symbols is the first section of kind 2; a
table without any row counts as missing, and its first row stands for no
symbol.  Segments, the table of dynamic symbols and the relocations are of no
use here, but an image in which they are faulty is refused.
-/
import ParamAtlas.Bytes.Utf8
import ParamAtlas.Image.Basic
import ParamAtlas.Image.Fault

namespace ParamAtlas
namespace Elf

open Image (Fault)

/-- The two widths of rows. -/
inductive Width where
  | narrow
  | wide
  deriving DecidableEq, Repr, Inhabited

/-- What the header says. -/
structure Header where
  width : Width
  order : ByteOrder
  segmentOffset : Nat
  sectionOffset : Nat
  segmentSize : Nat
  segmentCount : Nat
  sectionSize : Nat
  sectionCount : Nat
  namesIndex : Nat
  deriving DecidableEq, Repr, Inhabited

/-- A row of the section table. -/
structure SectionRow where
  name : Nat
  kind : Nat
  flags : Nat
  offset : Nat
  size : Nat
  link : Nat
  info : Nat
  deriving DecidableEq, Repr, Inhabited

namespace Width

/-- The size of the header. -/
def headerSize : Width → Nat
  | narrow => 52
  | wide => 64

/-- The size of a segment's row. -/
def segmentSize : Width → Nat
  | narrow => 32
  | wide => 56

/-- The size of a section's row. -/
def sectionSize : Width → Nat
  | narrow => 40
  | wide => 64

/-- The size of a symbol's row. -/
def symbolSize : Width → Nat
  | narrow => 16
  | wide => 24

/-- The size of the header in front of compressed data. -/
def compressionSize : Width → Nat
  | narrow => 12
  | wide => 24

end Width

/-- The section kinds that matter: symbols, texts, relocations in two shapes,
no data in the file, dynamic symbols, wide section indexes of symbols. -/
def symbolsKind : Nat := 2
def textKind : Nat := 3
def addendRelocationsKind : Nat := 4
def noDataKind : Nat := 8
def relocationsKind : Nat := 9
def dynamicSymbolsKind : Nat := 11
def wideIndexesKind : Nat := 18

/-- The byte order that the header announces, if it announces one. -/
def order? : Nat → Option ByteOrder
  | 1 => some .little
  | 2 => some .big
  | _ => none

/-- Reads the header. -/
def Header.read (w : Width) (b : Bytes) : Except Fault Header :=
  if b.size < w.headerSize then .error .elfHeader
  else
    match order? (b.at0 5), b.at0 6 with
    | some order, 1 =>
      let n (offset width : Nat) : Nat := b.number order offset width
      .ok <| match w with
        | .narrow => ⟨w, order, n 28 4, n 32 4, n 42 2, n 44 2, n 46 2, n 48 2, n 50 2⟩
        | .wide => ⟨w, order, n 32 8, n 40 8, n 54 2, n 56 2, n 58 2, n 60 2, n 62 2⟩
    | _, _ => .error .elfUnsupported

namespace Header

variable (h : Header)

/-- The row of a section that starts at a position. -/
def sectionRow (b : Bytes) (pos : Nat) : SectionRow :=
  let n (offset width : Nat) : Nat := b.number h.order (pos + offset) width
  match h.width with
  | .narrow => ⟨n 0 4, n 4 4, n 8 4, n 16 4, n 20 4, n 24 4, n 28 4⟩
  | .wide => ⟨n 0 4, n 4 4, n 8 8, n 24 8, n 32 8, n 40 4, n 44 4⟩

/-- The first row of the section table, if there is such a table. -/
def firstRow? (b : Bytes) : Except Fault (Option SectionRow) :=
  if h.sectionOffset = 0 then .ok none
  else if h.sectionSize ≠ h.width.sectionSize then .error .elfSectionEntrySize
  else if h.sectionOffset + h.width.sectionSize ≤ b.size then
    .ok (some (h.sectionRow b h.sectionOffset))
  else .error .elfFirstSection

/-- The number of segments. -/
def segments (b : Bytes) : Except Fault Nat :=
  if h.segmentCount < 0xffff then .ok h.segmentCount
  else do
    match ← h.firstRow? b with
    | some row => return row.info
    | none => throw .elfMissingSections

/-- Checks that the table of segments is where it should be. -/
def checkSegments (b : Bytes) : Except Fault Unit :=
  if h.segmentOffset = 0 then .ok ()
  else do
    let count ← h.segments b
    if count = 0 then return ()
    if h.segmentSize ≠ h.width.segmentSize then throw .elfProgramEntrySize
    if b.size < h.segmentOffset + count * h.width.segmentSize then throw .elfPrograms

/-- The number of sections. -/
def sectionTotal (b : Bytes) : Except Fault Nat :=
  if h.sectionCount ≠ 0 then .ok h.sectionCount
  else do return ((← h.firstRow? b).map (·.size)).getD 0

/-- The rows of the section table. -/
def sectionRows (b : Bytes) : Except Fault (Array SectionRow) :=
  if h.sectionOffset = 0 then .ok #[]
  else do
    let count ← h.sectionTotal b
    if count = 0 then return #[]
    if h.sectionSize ≠ h.width.sectionSize then throw .elfSectionEntrySize
    match tableRows? b h.sectionOffset h.width.sectionSize count with
    | some rows => return (rows.map (h.sectionRow b)).toArray
    | none => throw .elfSections

/-- The index of the section with the names of sections. -/
def namesSection (b : Bytes) : Except Fault Nat := do
  let index ←
    if h.namesIndex = 0xffff then do pure (((← h.firstRow? b).map (·.link)).getD 0)
    else pure h.namesIndex
  if index = 0 then throw .elfMissingNamesIndex else return index

end Header

/-- Where the data of a section is in the file, if it has any there. -/
def SectionRow.place? (r : SectionRow) : Option (Nat × Nat) :=
  if r.kind = noDataKind then none else some (r.offset, r.size)

/-- The data of a section, if it lies in the file. -/
def SectionRow.data? (r : SectionRow) (b : Bytes) : Option Bytes :=
  match r.place? with
  | none => some #[]
  | some (start, size) => b.slice? start size

/-- The texts between two places, which must be 64-bit numbers. -/
def textsAt (start size : Nat) (f : Fault) : Except Fault TextTable :=
  if start + size < UInt64.size then .ok ⟨start, start + size⟩ else .error f

/-- The names of sections. -/
def sectionNames (h : Header) (b : Bytes) (rows : Array SectionRow) :
    Except Fault (Option TextTable) :=
  if rows.isEmpty then .ok none
  else do
    let index ← h.namesSection b
    match rows[index]? with
    | none => throw .elfNamesIndex
    | some row =>
      match row.place? with
      | none => return none
      | some (start, size) => return some (← textsAt start size .elfNamesSize)

/-- The texts in the section with an index; index 0 stands for no section. -/
def textsOf (rows : Array SectionRow) (index : Nat) : Except Fault (Option TextTable) :=
  if index = 0 then .ok none
  else
    match rows[index]? with
    | none => .error .elfSectionIndex
    | some row =>
      if row.kind ≠ textKind then .error .elfTextKind
      else do return some (← textsAt row.offset row.size .elfTextRange)

/-- A table of symbols: the index of its section, the texts of its names, and
its rows. -/
structure SymbolRows where
  index : Nat
  texts : Option TextTable
  rows : List Nat
  deriving Repr, Inhabited

/-- Checks the sections with wide indexes for the symbols of a section. -/
def checkWideIndexes (b : Bytes) (rows : Array SectionRow) (index : Nat) : Except Fault Unit :=
  let faulty (r : SectionRow) : Bool :=
    r.kind = wideIndexesKind && r.link = index &&
      match r.data? b with
      | some d => d.size % 4 != 0
      | none => true
  if rows.any faulty then .error .elfWideIndexes else .ok ()

/-- Reads the first table of symbols of a kind; without one, an empty table. -/
def symbolRows (h : Header) (b : Bytes) (rows : Array SectionRow) (kind : Nat) :
    Except Fault SymbolRows :=
  match rows.findIdx? (·.kind = kind) with
  | none => .ok ⟨0, none, []⟩
  | some index =>
    let row := rows[index]?.getD default
    let width := h.width.symbolSize
    match row.data? b with
    | none => .error .elfSymbols
    | some d =>
      if d.size % width ≠ 0 then .error .elfSymbols
      else do
        let texts ← textsOf rows row.link
        checkWideIndexes b rows index
        return ⟨index, texts, (List.range (d.size / width)).map (row.offset + · * width)⟩

/-- Whether a section holds relocations. -/
def SectionRow.relocates (r : SectionRow) : Bool :=
  r.kind = relocationsKind || r.kind = addendRelocationsKind

/-- Checks the relocations that go by the symbols in a section, last ones first:
each names the section it applies to, and that one holds no relocations. -/
def checkRelocations (rows : Array SectionRow) (symbols : Nat) : Except Fault Unit :=
  rows.toList.reverse.forM fun r =>
    if r.relocates ∧ r.link = symbols ∧ r.info ≠ 0 then
      match rows[r.info]? with
      | none => .error .elfRelocationTarget
      | some target => if target.relocates then .error .elfRelocationChain else .ok ()
    else .ok ()

/-- What a symbol's kind stands for. -/
def kindOf : Nat → TableKind
  | 1 | 5 => .data
  | 2 | 10 => .text
  | 3 => .section
  | 4 => .file
  | 6 => .tls
  | _ => .unknown

/-- How far a symbol can be seen, from its section, binding and visibility. -/
def scopeOf (sectionIndex binding visibility : Nat) : TableScope :=
  if sectionIndex = 0 then .unknown
  else
    match binding with
    | 0 => .compilation
    | 1 | 2 => if visibility = 2 then .linkage else .dynamic
    | _ => .unknown

/-- The symbol whose row starts at a position. -/
def symbol (h : Header) (b : Bytes) (texts : Option TextTable) (pos : Nat) : TableSymbol :=
  let n (offset width : Nat) : Nat := b.number h.order (pos + offset) width
  let (address, size, info, other, sectionIndex) := match h.width with
    | .narrow => (n 4 4, n 8 4, n 12 1, n 13 1, n 14 2)
    | .wide => (n 8 8, n 16 8, n 4 1, n 5 1, n 6 2)
  { name := do
      let t ← texts
      Utf8.strict? (← t.text? b (n 0 4))
    address := address.toUInt64
    size := size.toUInt64
    kind := kindOf (info % 16)
    scope := scopeOf sectionIndex (info / 16) (other % 4)
    flags := .elf info.toUInt8 }

/-- The flag of compressed sections. -/
def isCompressed (flags : Nat) : Bool := flags / 0x800 % 2 = 1

/-- The content of a section with a compression header. -/
def compressedContent (h : Header) (b : Bytes) (start size : Nat) : Content :=
  let front := h.width.compressionSize
  if start + front ≤ b.size ∧ front ≤ size then
    match b.slice? (start + front) (size - front) with
    | none => .unreadable
    | some d =>
      let full := match h.width with
        | .narrow => b.number h.order (start + 4) 4
        | .wide => b.number h.order (start + 8) 8
      match b.number h.order start 4 with
      | 1 => .deflated full d
      | 2 => .zstandard full d
      | _ => .unreadable
  else .unreadable

/-- What the names of sections start with that are compressed without a mark. -/
def compressedName : Bytes := .ofText ".zdebug_"

/-- A section, from its row. -/
def imageSection (h : Header) (b : Bytes) (names : Option TextTable) (r : SectionRow) :
    ImageSection :=
  let name := names.bind (·.text? b r.name)
  let renamed := name.any fun n => n.extract 0 compressedName.size = compressedName
  let content := match r.place? with
    | none => if isCompressed r.flags || renamed then .unreadable else .plain #[]
    | some (start, size) =>
      if isCompressed r.flags then compressedContent h b start size
      else if renamed then .ofMarkedSlice b start size
      else .ofSlice b start size
  ⟨name, content⟩

/-- Reads an ELF image. -/
def image (w : Width) (b : Bytes) : Except Fault Image := do
  let h ← Header.read w b
  h.checkSegments b
  let rows ← h.sectionRows b
  let names ← sectionNames h b rows
  let table ← symbolRows h b rows symbolsKind
  let _ ← symbolRows h b rows dynamicSymbolsKind
  checkRelocations rows table.index
  return {
    format := .elf
    order := h.order
    symbols := match table.rows with
      | [] => none
      | _ :: rest => some (rest.map (symbol h b table.texts))
    sections := rows.toList.map (imageSection h b names) }

end Elf
end ParamAtlas
