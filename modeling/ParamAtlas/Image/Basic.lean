/-
# Images

`section_by_name` and `uncompressed_data` of an `object::File`.

What a linker or compiler leaves in a file: sections with names and contents,
and mostly a table of symbols.  Formats differ in how they name the sections
that hold debug information:

| format | `.debug_x` is, in this order | a compressed section is |
| --- | --- | --- |
| ELF | `.debug_x`, `.zdebug_x` | marked, or named `.zdebug_…` |
| COFF, PE | `.debug_x` | – |
| Mach-O | `.debug_x` or `__debug_x`, `__zdebug_x` | named `__zdebug_…` |

Mach-O has room for 16 bytes in a name and cuts longer ones off.
-/
import ParamAtlas.Compression.Zlib
import ParamAtlas.Compression.Zstandard
import ParamAtlas.Symbol.Basic

namespace ParamAtlas

/-- What a section holds: bytes as they are, bytes that decompress to a given
size, or nothing that can be read. -/
inductive Content where
  | plain (b : Bytes)
  | deflated (size : Nat) (b : Bytes)
  | zstandard (size : Nat) (b : Bytes)
  | unreadable
  deriving DecidableEq, Repr, Inhabited

namespace Content

/-- The bytes of a section.  Compressed ones must have the size they are said
to have. -/
def bytes? : Content → Option Bytes
  | plain b => some b
  | deflated size b => (Compression.unzlib? size b).filter (·.size = size)
  | zstandard size b => (Compression.unzstandard? b).filter (·.size = size)
  | unreadable => none

/-- The content at a place in a file. -/
def ofSlice (b : Bytes) (start size : Nat) : Content :=
  match b.slice? start size with
  | some s => plain s
  | none => unreadable

/-- The content at a place in a file that starts with the mark `ZLIB` and a size
in 8 bytes of which the upper half is zero. -/
def ofMarkedSlice (b : Bytes) (start size : Nat) : Content :=
  if b.hasAt start [0x5a, 0x4c, 0x49, 0x42, 0, 0, 0, 0] ∧ start + 12 ≤ b.size ∧ 12 ≤ size then
    match b.slice? (start + 12) (size - 12) with
    | some s => deflated (b.number .big (start + 8) 4) s
    | none => unreadable
  else unreadable

end Content

/-- A section of an image; the name is absent if the image gives none that can
be read. -/
structure ImageSection where
  name : Option Bytes
  content : Content
  deriving Repr, Inhabited

/-- The families of formats. -/
inductive ImageFormat where
  | elf
  | coff
  | machO
  | xcoff
  deriving DecidableEq, Repr, Inhabited

/-- Texts one behind another in a file, each ended by a zero byte. -/
structure TextTable where
  start : Nat
  stop : Nat
  deriving DecidableEq, Repr, Inhabited

/-- The text at an offset in a table.  The table must lie in the file. -/
def TextTable.text? (t : TextTable) (b : Bytes) (offset : Nat) : Option Bytes :=
  let start := t.start + offset
  if start ≤ t.stop ∧ t.stop ≤ b.size then
    match b.findZero? start with
    | some i => if i < t.stop then some (b.extract start i) else none
    | none => none
  else none

/-- The positions of `count` rows of a table, if the table lies in the file. -/
def tableRows? (b : Bytes) (start width count : Nat) : Option (List Nat) :=
  if start + count * width ≤ b.size then some ((List.range count).map (start + · * width)) else none

/-- What is in a file.  `symbols` is absent if there is no table of symbols. -/
structure Image where
  format : ImageFormat
  order : ByteOrder
  symbols : Option (List TableSymbol)
  sections : List ImageSection
  deriving Repr, Inhabited

namespace Image

/-- What the names of sections with debug information start with. -/
def debugMark : Bytes := .ofText ".debug_"

/-- The longest name of a section in a Mach-O image. -/
def machONameSize : Nat := 16

/-- A name cut to the size of names in a Mach-O image. -/
def cutName (name : Bytes) : Bytes := name.extract 0 machONameSize

/-- The names under which a section may be found; names of one list are equally
good, and a list is better than those after it. -/
def namesOf (format : ImageFormat) (name : Bytes) : List (List Bytes) :=
  let bare := name.extract 1 name.size
  let compressed := name.extract 0 debugMark.size = debugMark
  match format with
  | .elf => [name] :: if compressed then [[Bytes.ofText ".z" ++ bare]] else []
  | .coff | .xcoff => [[name]]
  | .machO => [name :: cutName (Bytes.ofText "__" ++ bare) ::
    if compressed then [cutName (Bytes.ofText "__z" ++ bare)] else []]

/-- The section with a name. -/
def section? (i : Image) (name : String) : Option ImageSection :=
  (namesOf i.format (.ofText name)).findSome? fun names =>
    i.sections.find? fun s => match s.name with
      | some n => names.contains n
      | none => false

/-- The bytes of the section with a name; none if there is no such section or
it cannot be read. -/
def sectionBytes (i : Image) (name : String) : Bytes :=
  ((i.section? name).bind (·.content.bytes?)).getD #[]

end Image
end ParamAtlas
