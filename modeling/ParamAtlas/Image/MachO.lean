/-
# Mach-O images

`object::File::parse`, for this format.

Behind the header stand load commands, each with its kind and size in front.
Commands of two kinds matter, those with sections and those with symbols:

| | narrow | wide |
| --- | ---: | ---: |
| header | 28 | 32 |
| segment command | kind 1, 56 bytes | kind 0x19, 72 bytes |
| section | 68 | 80 |
| symbol | 12 | 16 |

Reading stops at the first command that is not in the file or too small to be
one; the sections and symbols found up to there count.  There is always a table
of symbols, though it may be empty.
-/
import ParamAtlas.Bytes.Utf8
import ParamAtlas.Image.Basic
import ParamAtlas.Image.Fault

namespace ParamAtlas
namespace MachO

open Image (Fault)

/-- The two widths of rows. -/
inductive Width where
  | narrow
  | wide
  deriving DecidableEq, Repr, Inhabited

namespace Width

/-- The size of the header. -/
def headerSize : Width → Nat
  | narrow => 28
  | wide => 32

/-- The kind of segment commands. -/
def segmentKind : Width → Nat
  | narrow => 1
  | wide => 0x19

/-- The size of a segment command without its sections. -/
def segmentSize : Width → Nat
  | narrow => 56
  | wide => 72

/-- Where the number of sections is in a segment command. -/
def countField : Width → Nat
  | narrow => 48
  | wide => 64

/-- The size of a section's row. -/
def sectionSize : Width → Nat
  | narrow => 68
  | wide => 80

/-- The size of a symbol's row. -/
def symbolSize : Width → Nat
  | narrow => 12
  | wide => 16

end Width

/-- The kind of commands that say where the symbols are. -/
def symbolsKind : Nat := 2

/-- A load command: its kind, and its bytes from the kind on. -/
structure Command where
  kind : Nat
  pos : Nat
  size : Nat
  deriving DecidableEq, Repr, Inhabited

/-- At most `count` commands from a position on, as far as they lie before `stop`
and have a size that counts their kind and size. -/
def commands (order : ByteOrder) (b : Bytes) (stop : Nat) : (count pos : Nat) → List Command
  | 0, _ => []
  | n + 1, pos =>
    let size := b.number order (pos + 4) 4
    if stop < pos + 8 ∨ size < 8 ∨ stop < pos + size then []
    else ⟨b.number order pos 4, pos, size⟩ :: commands order b stop n (pos + size)

/-- A row of the section table. -/
structure SectionRow where
  name : Bytes
  segment : Bytes
  offset : Nat
  size : Nat
  flags : Nat
  deriving DecidableEq, Repr, Inhabited

/-- The row of a section that starts at a position. -/
def sectionRow (w : Width) (order : ByteOrder) (b : Bytes) (pos : Nat) : SectionRow :=
  let n (offset width : Nat) : Nat := b.number order (pos + offset) width
  let (offset, size, flags) := match w with
    | .narrow => (n 40 4, n 36 4, n 56 4)
    | .wide => (n 48 4, n 40 8, n 64 4)
  ⟨b.field pos 16, b.field (pos + 16) 16, offset, size, flags⟩

/-- The sections of a segment command. -/
def segmentSections (w : Width) (order : ByteOrder) (b : Bytes) (c : Command) :
    Except Fault (List SectionRow) :=
  if c.size < w.segmentSize then .error .machOCommand
  else
    let count := b.number order (c.pos + w.countField) 4
    if c.size < w.segmentSize + count * w.sectionSize then .error .machOSectionCount
    else
      .ok ((List.range count).map fun i =>
        sectionRow w order b (c.pos + w.segmentSize + i * w.sectionSize))

/-- Symbols: the positions of their rows, and the texts of their names. -/
structure SymbolTable where
  rows : List Nat
  texts : TextTable
  deriving Repr, Inhabited

/-- The symbols that a command leads to. -/
def symbolTable (w : Width) (order : ByteOrder) (b : Bytes) (c : Command) :
    Except Fault SymbolTable :=
  if c.size < 24 then .error .machOCommand
  else
    let n (offset : Nat) : Nat := b.number order (c.pos + offset) 4
    match tableRows? b (n 8) w.symbolSize (n 12) with
    | none => .error .machOSymbols
    | some rows => .ok ⟨rows, ⟨n 16, n 16 + n 20⟩⟩

/-- What the commands give together; of two tables of symbols the later one
counts. -/
structure Contents where
  sections : Array SectionRow
  table : SymbolTable
  deriving Repr, Inhabited

/-- Takes in one command. -/
def Contents.add (w : Width) (order : ByteOrder) (b : Bytes) (k : Contents) (c : Command) :
    Except Fault Contents :=
  if c.kind = w.segmentKind then do
    return { k with sections := k.sections ++ (← segmentSections w order b c) }
  else if c.kind = symbolsKind then do
    return { k with table := ← symbolTable w order b c }
  else .ok k

/-- Whether a section holds code. -/
def SectionRow.isCode (s : SectionRow) : Bool :=
  s.segment = Bytes.ofText "__TEXT" && s.name = Bytes.ofText "__text"

/-- The names of sections with variables, in the segment for data. -/
def dataNames : List Bytes := ["__data", "__const", "__bss", "__common"].map .ofText

/-- The names of sections with variables of threads, in the segment for data. -/
def threadNames : List Bytes := ["__thread_data", "__thread_bss", "__thread_vars"].map .ofText

/-- What the symbols of a section stand for. -/
def SectionRow.symbolKind (s : SectionRow) : TableKind :=
  if s.isCode then .text
  else if s.segment = Bytes.ofText "__DATA" then
    if dataNames.contains s.name then .data
    else if threadNames.contains s.name then .tls
    else .unknown
  else .unknown

/-- Whether a symbol's type byte marks an entry for debuggers. -/
def isDebugging (type : Nat) : Bool := 32 ≤ type

/-- The part of a type byte that says where a symbol is defined: 0 nowhere, 14
in a section. -/
def place (type : Nat) : Nat := type / 2 % 8 * 2

/-- How far a symbol can be seen. -/
def scopeOf (type : Nat) : TableScope :=
  if place type = 0 then .unknown
  else if type % 2 = 0 then .compilation
  else if type / 16 % 2 = 1 then .linkage
  else .dynamic

/-- The symbol whose row starts at a position; entries for debuggers are none. -/
def symbol? (w : Width) (order : ByteOrder) (b : Bytes) (k : Contents) (pos : Nat) :
    Option TableSymbol :=
  let type := b.at0 (pos + 4)
  let number := b.at0 (pos + 5)
  if isDebugging type then none
  else some {
    name := (k.table.texts.text? b (b.number order pos 4)).bind Utf8.strict?
    address := (match w with
      | .narrow => b.number order (pos + 8) 4
      | .wide => b.number order (pos + 8) 8).toUInt64
    size := 0
    kind :=
      if place type = 14 ∧ number ≠ 0 then
        ((k.sections[number - 1]?).map (·.symbolKind)).getD .unknown
      else .unknown
    scope := scopeOf type
    flags := .other }

/-- Whether a section has no data in the file. -/
def isZeroFilled (flags : Nat) : Bool := [1, 0xc, 0x12].contains (flags % 256)

/-- What the names of sections start with that are compressed. -/
def compressedName : Bytes := .ofText "__zdebug_"

/-- A section, from its row. -/
def imageSection (b : Bytes) (s : SectionRow) : ImageSection :=
  let renamed := s.name.extract 0 compressedName.size = compressedName
  let content :=
    if isZeroFilled s.flags then if renamed then .unreadable else .plain #[]
    else if renamed then .ofMarkedSlice b s.offset s.size
    else .ofSlice b s.offset s.size
  ⟨some s.name, content⟩

/-- The commands of a file; none if the file ends before they do. -/
def fileCommands (w : Width) (order : ByteOrder) (b : Bytes) : List Command :=
  let stop := w.headerSize + b.number order 20 4
  if b.size < stop then []
  else commands order b stop (b.number order 16 4) w.headerSize

/-- Reads a Mach-O image. -/
def image (w : Width) (order : ByteOrder) (b : Bytes) : Except Fault Image := do
  if b.size < w.headerSize then throw .machOHeader
  let k ← (fileCommands w order b).foldlM (Contents.add w order b) ⟨#[], ⟨[], ⟨0, 0⟩⟩⟩
  return {
    format := .machO
    order
    symbols := some (k.table.rows.filterMap (symbol? w order b k))
    sections := k.sections.toList.map (imageSection b) }

end MachO
end ParamAtlas
