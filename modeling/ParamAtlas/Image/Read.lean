/-
# Reading images

`object::File::parse`; specification, section 4.6.

The first bytes of a file tell its format:

| first bytes | format |
| --- | --- |
| `7f 45 4c 46 01`, `7f 45 4c 46 02` | ELF, narrow and wide |
| `fe ed fa ce`, `ce fa ed fe` | narrow Mach-O, big- and little-endian |
| `fe ed fa cf`, `cf fa ed fe` | wide Mach-O, big- and little-endian |
| `4d 5a` | PE, if its headers are there |
| `c4 01`, `64 aa`, `41 a6`, `4c 01`, `64 86` | COFF |
| `00 00 ff ff 02 00` | big COFF, if its class number is there |
| `01 df`, `01 f7` | XCOFF, narrow and wide |
| `!<arch>`, `!<thin>`, `dyld_v1 ` | no image, but known |
| `ca fe ba be`, `ca fe ba bf`, `00 00 ff ff 00 00` | no image, but known |
-/
import ParamAtlas.Image.Elf
import ParamAtlas.Image.Coff
import ParamAtlas.Image.MachO
import ParamAtlas.Image.Xcoff
import ParamAtlas.Dwarf.Store

namespace ParamAtlas
namespace Image

/-- What the first bytes of a file announce. -/
inductive Kind where
  | elf (w : Elf.Width)
  | machO (w : MachO.Width) (order : ByteOrder)
  | dos
  | coff
  | anonymous
  | xcoff (w : Xcoff.Width)
  | foreign
  deriving DecidableEq, Repr, Inhabited

/-- The first bytes of files of each kind. -/
def Kind.marks : List (List Nat × Kind) :=
  [([0x21, 0x3c, 0x61, 0x72, 0x63, 0x68, 0x3e, 0x0a], foreign),
    ([0x21, 0x3c, 0x74, 0x68, 0x69, 0x6e, 0x3e, 0x0a], foreign),
    ([0x64, 0x79, 0x6c, 0x64, 0x5f, 0x76, 0x31, 0x20], foreign),
    ([0xca, 0xfe, 0xba, 0xbe], foreign),
    ([0xca, 0xfe, 0xba, 0xbf], foreign),
    ([0x00, 0x00, 0xff, 0xff, 0x00, 0x00], foreign),
    ([0x7f, 0x45, 0x4c, 0x46, 1], elf .narrow),
    ([0x7f, 0x45, 0x4c, 0x46, 2], elf .wide),
    ([0xfe, 0xed, 0xfa, 0xce], machO .narrow .big),
    ([0xce, 0xfa, 0xed, 0xfe], machO .narrow .little),
    ([0xfe, 0xed, 0xfa, 0xcf], machO .wide .big),
    ([0xcf, 0xfa, 0xed, 0xfe], machO .wide .little),
    ([0x4d, 0x5a], dos),
    ([0xc4, 0x01], coff),
    ([0x64, 0xaa], coff),
    ([0x41, 0xa6], coff),
    ([0x4c, 0x01], coff),
    ([0x64, 0x86], coff),
    ([0x00, 0x00, 0xff, 0xff, 0x02, 0x00], anonymous),
    ([0x01, 0xdf], xcoff .narrow),
    ([0x01, 0xf7], xcoff .wide)]

/-- What a file announces.  No kind's first bytes start those of another. -/
def Kind.ofBytes? (b : Bytes) : Option Kind :=
  (marks.find? fun (mark, _) => b.hasAt 0 mark).map (·.2)

/-- How many bytes of a file are looked at to tell its kind. -/
def magicSize : Nat := 16

/-- The class number of big COFF files. -/
def bigClass : List Nat :=
  [0xc7, 0xa1, 0xba, 0xd1, 0xee, 0xba, 0xa9, 0x4b, 0xaf, 0x20, 0xfa, 0xf6, 0x6a, 0xa4, 0xdc, 0xb8]

/-- The size of the header that anonymous objects share. -/
def anonymousHeaderSize : Nat := 32

/-- Reads the image in a file. -/
def ofBytes (b : Bytes) : Except Fault Image :=
  if b.size < magicSize then .error .noMagic
  else
    match Kind.ofBytes? b with
    | none => .error .unknownMagic
    | some .foreign => .error .notAnObject
    | some (.elf w) => Elf.image w b
    | some (.machO w order) => MachO.image w order b
    | some .dos =>
      match Coff.peShape? b with
      | some shape => Coff.peImage shape b
      | none => .error .unknownDosFile
    | some .coff => Coff.image b
    | some .anonymous =>
      if anonymousHeaderSize ≤ b.size ∧ b.hasAt 12 bigClass then Coff.bigImage b
      else .error .unknownAnonymousObject
    | some (.xcoff w) => Xcoff.image w b

/-- The sections of an image that hold debug information, if it has one for
entries. -/
def debugSections? (i : Image) : Option Dwarf.Sections :=
  (i.section? ".debug_info").map fun _ => {
    order := i.order
    info := i.sectionBytes ".debug_info"
    abbreviations := i.sectionBytes ".debug_abbrev"
    text := i.sectionBytes ".debug_str"
    lineText := i.sectionBytes ".debug_line_str"
    textOffsets := i.sectionBytes ".debug_str_offsets"
    addresses := i.sectionBytes ".debug_addr"
    line := i.sectionBytes ".debug_line" }

end Image
end ParamAtlas
