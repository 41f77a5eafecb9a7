/-
# COFF and PE images

`object::File::parse`, for these formats.

Numbers are little-endian.  A COFF file starts with a file header, a big one
with a longer header, a PE file with a DOS header that says where its headers
are:

| | COFF | big COFF | PE |
| --- | ---: | ---: | ---: |
| header | 20 | 56 | 4 + 20 |
| optional header | skipped | – | 96 or 112, directories of 8 |
| section | 40 | 40 | 40 |
| symbol | 18 | 20 | 18 |
| texts | after the symbols | after the symbols | after the symbols |

There is always a table of symbols, though it may be empty; in a PE file a table
that is not where it should be counts as empty.  A symbol may be followed by
auxiliary rows.
-/
import ParamAtlas.Bytes.Utf8
import ParamAtlas.Image.Basic
import ParamAtlas.Image.Fault

namespace ParamAtlas
namespace Coff

open Image (Fault)

/-- The number of `width` bytes at a position. -/
def word (b : Bytes) (pos width : Nat) : Nat := b.number .little pos width

/-! ## Sections -/

/-- A row of the section table. -/
structure SectionRow where
  name : Bytes
  virtualSize : Nat
  address : Nat
  size : Nat
  offset : Nat
  flags : Nat
  deriving DecidableEq, Repr, Inhabited

/-- The size of a section's row. -/
def sectionSize : Nat := 40

/-- The row of a section that starts at a position; its name keeps all 8 bytes. -/
def sectionRow (b : Bytes) (pos : Nat) : SectionRow :=
  ⟨b.extract pos (pos + 8), word b (pos + 8) 4, word b (pos + 12) 4, word b (pos + 16) 4,
    word b (pos + 20) 4, word b (pos + 36) 4⟩

/-- Reads a section table. -/
def sectionRows (b : Bytes) (start count : Nat) : Except Fault (Array SectionRow) :=
  match tableRows? b start sectionSize count with
  | some rows => .ok (rows.map (sectionRow b)).toArray
  | none => .error .coffSections

/-- The value of a decimal digit. -/
def decimal? (v : Nat) : Option Nat := if 0x30 ≤ v ∧ v ≤ 0x39 then some (v - 0x30) else none

/-- The value of a digit to base 64. -/
def base64? (v : Nat) : Option Nat :=
  if 0x41 ≤ v ∧ v ≤ 0x5a then some (v - 0x41)
  else if 0x61 ≤ v ∧ v ≤ 0x7a then some (v - 0x61 + 26)
  else if 0x30 ≤ v ∧ v ≤ 0x39 then some (v - 0x30 + 52)
  else if v = 0x2b then some 62
  else if v = 0x2f then some 63
  else none

/-- The number that digits stand for. -/
def digits? (digit? : Nat → Option Nat) (base : Nat) (vs : List Nat) : Option Nat :=
  vs.foldlM (fun n v => (digit? v).map (n * base + ·)) 0

/-- The offset of a name among the texts, where a field gives one: decimal after
one slash, to base 64 after two. -/
def nameOffset? (field : List Nat) : Option (Option Nat) :=
  match field with
  | 0x2f :: 0x2f :: rest => some ((digits? base64? 64 rest).filter (· < UInt32.size))
  | 0x2f :: rest => some (digits? decimal? 10 (rest.takeWhile (· ≠ 0)))
  | _ => none

/-- The name of a section. -/
def SectionRow.fullName (r : SectionRow) (b : Bytes) (texts : Option TextTable) : Option Bytes :=
  match nameOffset? (r.name.toList.map (·.toNat)) with
  | none => some (r.name.field 0 8)
  | some none => none
  | some (some offset) => do (← texts).text? b offset

/-- The flag of sections without data in the file. -/
def isUninitialized (flags : Nat) : Bool := flags / 0x80 % 2 = 1

/-- The content of a section of a COFF file. -/
def SectionRow.content (r : SectionRow) (b : Bytes) : Content :=
  if isUninitialized r.flags then .plain #[] else .ofSlice b r.offset r.size

/-- The content of a section of a PE file, which may have less of it in memory
than in the file. -/
def SectionRow.loadedContent (r : SectionRow) (b : Bytes) : Content :=
  .ofSlice b r.offset (min r.virtualSize r.size)

/-! ## Symbols -/

/-- The storage classes that matter. -/
inductive Storage where
  | external
  | static
  | label
  | file
  | sectionEntry
  | weak
  | other
  deriving DecidableEq, Repr, Inhabited

/-- The storage class with a number. -/
def Storage.ofNumber : Nat → Storage
  | 2 => external
  | 3 => static
  | 6 => label
  | 103 => file
  | 104 => sectionEntry
  | 105 => weak
  | _ => other

/-- A row of the symbol table.  Sections count from 1; 0 and negative numbers
stand for none.  `extras` are the positions of the auxiliary rows. -/
structure SymbolRow where
  pos : Nat
  value : Nat
  sectionNumber : Int
  type : Nat
  storage : Storage
  extras : List Nat
  deriving Repr, Inhabited

/-- The two shapes of symbol rows. -/
inductive RowShape where
  | short
  | long
  deriving DecidableEq, Repr, Inhabited

namespace RowShape

/-- The size of a symbol's row. -/
def size : RowShape → Nat
  | short => 18
  | long => 20

/-- How many bytes a section number has. -/
def numberWidth : RowShape → Nat
  | short => 2
  | long => 4

/-- The least unsigned number that stands for a negative one. -/
def firstNegative : RowShape → Nat
  | short => 0xfeff
  | long => 0x80000000

end RowShape

/-- The row of a symbol that starts at a position, and how many auxiliary rows
it announces. -/
def symbolRow (shape : RowShape) (b : Bytes) (pos : Nat) : SymbolRow × Nat :=
  let w := shape.numberWidth
  let number := word b (pos + 12) w
  let sectionNumber : Int :=
    if number < shape.firstNegative then number else (number : Int) - (1 <<< (8 * w) : Nat)
  (⟨pos, word b (pos + 8) 4, sectionNumber, word b (pos + 12 + w) 2,
    .ofNumber (b.at0 (pos + 14 + w)), []⟩, b.at0 (pos + 15 + w))

/-- The symbols of a table, each with its auxiliary rows. -/
def symbolRows (shape : RowShape) (b : Bytes) : List Nat → List SymbolRow
  | [] => []
  | pos :: rest =>
    let (row, extra) := symbolRow shape b pos
    { row with extras := rest.take extra } :: symbolRows shape b (rest.drop extra)
termination_by rows => rows.length
decreasing_by simp only [List.length_drop, List.length_cons]; omega

/-- A table of symbols and the texts behind it. -/
structure SymbolTable where
  rows : List SymbolRow
  texts : Option TextTable
  deriving Repr, Inhabited

/-- The table without symbols and texts. -/
def SymbolTable.empty : SymbolTable := ⟨[], none⟩

/-- Reads the table of symbols at an offset, which is zero if there is none. -/
def symbolTable (shape : RowShape) (b : Bytes) (offset count : Nat) : Except Fault SymbolTable :=
  if offset = 0 then .ok .empty
  else
    match tableRows? b offset shape.size count with
    | none => .error .coffSymbols
    | some rows =>
      let texts := offset + count * shape.size
      match b.number? .little texts 4 with
      | none => .error .coffText
      | some size => .ok ⟨symbolRows shape b rows, some ⟨texts, texts + size⟩⟩

namespace SymbolRow

variable (r : SymbolRow)

/-- Whether a symbol's type is that of a function. -/
def isFunction : Bool := r.type / 16 % 4 = 2

/-- Whether a symbol stands for a section. -/
def isSection : Bool :=
  r.storage = .sectionEntry || (r.storage = .static && !r.extras.isEmpty && r.type = 0)

/-- What a symbol stands for. -/
def kind : TableKind :=
  if r.isSection then .section
  else
    match r.storage with
    | .external | .static | .weak => if r.isFunction then .text else .data
    | .label => .label
    | .file => .file
    | .sectionEntry | .other => .unknown

/-- The name of a symbol: up to 8 bytes in the row, or an offset among the texts
behind four zero bytes, of which only the first is looked at. -/
def name (b : Bytes) (texts : Option TextTable) : Option Bytes :=
  if b.at0 r.pos = 0 then do (← texts).text? b (word b (r.pos + 4) 4)
  else some (b.field r.pos 8)

/-- The address of a symbol: its value counted from its section, the section
counted from the base of the image.  Symbols outside sections have address 0. -/
def address (base : Nat) (sections : Array SectionRow) : Address :=
  match r.storage with
  | .external | .static | .weak | .label =>
    if 0 < r.sectionNumber then
      match sections[r.sectionNumber.toNat - 1]? with
      | some s => (base + s.address + r.value).toUInt64
      | none => 0
    else 0
  | .file | .sectionEntry | .other => 0

/-- The size of a symbol: of an undefined one its value, of a function or a
section what the first auxiliary row says. -/
def size (b : Bytes) : UInt64 :=
  let extra (offset : Nat) : Nat :=
    match r.extras with
    | [] => 0
    | pos :: _ => word b (pos + offset) 4
  match r.storage with
  | .external =>
    if r.sectionNumber = 0 then r.value.toUInt64
    else if r.isFunction then (extra 4).toUInt64
    else 0
  | .static => if r.isSection then (extra 0).toUInt64 else 0
  | .weak | .label | .file | .sectionEntry | .other => 0

/-- How far a symbol can be seen. -/
def scope : TableScope :=
  match r.storage with
  | .external | .weak => if 0 < r.sectionNumber then .linkage else .unknown
  | .static | .label | .file | .sectionEntry | .other => .compilation

/-- The table entry that a row stands for. -/
def symbol (b : Bytes) (texts : Option TextTable) (base : Nat) (sections : Array SectionRow) :
    TableSymbol where
  name := (r.name b texts).bind Utf8.strict?
  address := r.address base sections
  size := r.size b
  kind := r.kind
  scope := r.scope
  flags := .other

end SymbolRow

/-! ## Files -/

/-- The image with these sections and symbols. -/
def assemble (b : Bytes) (base : Nat) (sections : Array SectionRow) (table : SymbolTable)
    (content : SectionRow → Content) : Image where
  format := .coff
  order := .little
  symbols := some (table.rows.map (·.symbol b table.texts base sections))
  sections := sections.toList.map fun s => ⟨s.fullName b table.texts, content s⟩

/-- Reads a COFF file. -/
def image (b : Bytes) : Except Fault Image := do
  if b.size < 20 then throw .coffHeader
  let sections ← sectionRows b (20 + word b 16 2) (word b 2 2)
  let table ← symbolTable .short b (word b 8 4) (word b 12 4)
  return assemble b 0 sections table (·.content b)

/-- Reads a big COFF file. -/
def bigImage (b : Bytes) : Except Fault Image := do
  if b.size < 56 then throw .coffBigHeader
  let sections ← sectionRows b 56 (word b 44 4)
  let table ← symbolTable .long b (word b 48 4) (word b 52 4)
  return assemble b 0 sections table (·.content b)

/-- The two shapes of optional headers of a PE file. -/
inductive PeShape where
  | narrow
  | wide
  deriving DecidableEq, Repr, Inhabited

namespace PeShape

/-- The shape with a magic number. -/
def ofMagic? : Nat → Option PeShape
  | 0x10b => some narrow
  | 0x20b => some wide
  | _ => none

/-- The size of the optional header without its directories. -/
def optionalSize : PeShape → Nat
  | narrow => 96
  | wide => 112

/-- Where the base address of the image is in the optional header, and how
many bytes it has. -/
def baseField : PeShape → Nat × Nat
  | narrow => (28, 4)
  | wide => (24, 8)

/-- Where the number of directories is in the optional header. -/
def directoryField : PeShape → Nat
  | narrow => 92
  | wide => 108

end PeShape

/-- Where the headers of a PE file are. -/
def peStart (b : Bytes) : Nat := word b 60 4

/-- Whether the mark of a PE file is at a position. -/
def hasPeMark (b : Bytes) (pos : Nat) : Bool := b.hasAt pos [0x50, 0x45, 0, 0]

/-- The shape of a file with a DOS header, if it is a PE file.  It must be as
large as a narrow optional header needs. -/
def peShape? (b : Bytes) : Option PeShape :=
  let start := peStart b
  if 64 ≤ b.size ∧ start + 24 + PeShape.narrow.optionalSize ≤ b.size ∧ hasPeMark b start then
    PeShape.ofMagic? (word b (start + 24) 2)
  else none

/-- Reads a PE file. -/
def peImage (shape : PeShape) (b : Bytes) : Except Fault Image := do
  let start := peStart b
  let optional := start + 24
  let directories := optional + shape.optionalSize
  if b.size < directories then throw .peHeaders
  if !hasPeMark b start then throw .peMagic
  let size := word b (start + 20) 2
  if size < shape.optionalSize then throw .peOptionalTooSmall
  if b.size < optional + size then throw .peOptional
  if optional + size < directories + 8 * word b (optional + shape.directoryField) 4 then
    throw .peDirectories
  let sections ← sectionRows b (optional + size) (word b (start + 6) 2)
  let table := match symbolTable .short b (word b (start + 12) 4) (word b (start + 16) 4) with
    | .ok table => table
    | .error _ => .empty
  let (field, width) := shape.baseField
  return assemble b (word b (optional + field) width) sections table (·.loadedContent b)

end Coff
end ParamAtlas
