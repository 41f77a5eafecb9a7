/-
# Assembling debug information

`DwarfBuilder`, `abbrev` and `debug_abbrev`; specification, section 10.

Units of version 4 with 32-bit offsets, 8-byte addresses and the little byte
order are written piece by piece.  Entries carry labels, so a reference may be
written before the entry it leads to; all references are filled in at the end.

| piece | bytes |
| --- | --- |
| begin a unit | length (0 for now), version 4, abbreviations at 0, addresses of 8 |
| entry | its code, in groups of seven bits |
| text | UTF-8 and a zero byte |
| address | 8 bytes |
| reference | 4 bytes, from the start of the unit or of the section |
| end of children | one zero byte |
| end a unit | fills in the length of the unit begun last, up to here |

All units share one table of abbreviations, `Assembly.shapes`.
-/
import Std.Data.HashMap
import ParamAtlas.Dwarf.Store

namespace ParamAtlas
namespace Dwarf

/-- A number in groups of seven bits, low ones first. -/
def unsignedBytes (n : Nat) : List UInt8 :=
  if n < 128 then [n.toUInt8] else (n % 128 + 128).toUInt8 :: unsignedBytes (n / 128)
termination_by n
decreasing_by omega

/-- The `width` low bytes of a number, least significant first. -/
def littleBytes (n : Nat) : (width : Nat) → List UInt8
  | 0 => []
  | w + 1 => n.toUInt8 :: littleBytes (n / 256) w

/-- A piece of debug information to be written. -/
inductive Piece where
  | beginUnit
  | entry (code : Nat) (label : String)
  | text (s : String)
  | address (a : Address)
  | unitReference (label : String)
  | forestReference (label : String)
  | endChildren
  | endUnit
  deriving DecidableEq, Repr, Inhabited

/-- Four bytes to be filled with the offset of a label, counted from `base`. -/
structure Patch where
  position : Nat
  label : String
  base : Nat
  deriving DecidableEq, Repr, Inhabited

/-- Debug information while it is written. -/
structure Assembly where
  written : Bytes
  unitStarts : Array Nat
  labels : Std.HashMap String Nat
  patches : Array Patch

namespace Assembly

/-- Nothing written yet. -/
def empty : Assembly := ⟨#[], #[], ∅, #[]⟩

/-- The abbreviations that entries may use: code, tag, whether it has
children, and pairs of attribute and form. -/
def shapes : List (Nat × Nat × Bool × List (Nat × Nat)) :=
  [(0x1, 0x11, true, [(0x03, 0x08)]),
    (0x2, 0x2e, true, [(0x03, 0x08), (0x11, 0x01)]),
    (0x3, 0x2e, true, [(0x03, 0x08)]),
    (0x4, 0x05, false, [(0x03, 0x08)]),
    (0x5, 0x05, false, [(0x31, 0x13)]),
    (0x6, 0x05, false, [(0x03, 0x08), (0x34, 0x19)]),
    (0x7, 0x05, false, [(0x31, 0x10)]),
    (0x8, 0x05, false, []),
    (0x9, 0x34, false, [(0x03, 0x08)]),
    (0xa, 0x2e, true, [(0x31, 0x13), (0x11, 0x01)]),
    (0xb, 0x0b, true, []),
    (0xc, 0x05, false, [(0x31, 0x13), (0x34, 0x19)]),
    (0xd, 0x05, false, [(0x03, 0x08), (0x31, 0x13)])]

/-- The bytes of one abbreviation. -/
def shapeBytes : Nat × Nat × Bool × List (Nat × Nat) → List UInt8
  | (code, tag, children, attributes) =>
    unsignedBytes code ++ unsignedBytes tag ++ [if children then 1 else 0]
      ++ attributes.flatMap (fun (property, form) => unsignedBytes property ++ unsignedBytes form)
      ++ [0, 0]

/-- The bytes of the shared table of abbreviations. -/
def abbreviationBytes : Bytes := (shapes.flatMap shapeBytes ++ [0]).toArray

/-- Writes bytes at the end. -/
def append (a : Assembly) (bytes : List UInt8) : Assembly :=
  { a with written := a.written ++ bytes }

/-- Writes bytes over those at a position. -/
def overwrite (b : Bytes) (position : Nat) : List UInt8 → Bytes
  | [] => b
  | v :: rest => overwrite (b.setIfInBounds position v) (position + 1) rest

/-- Where the unit begun last starts. -/
def currentStart (a : Assembly) : Nat := a.unitStarts.back?.getD 0

/-- Leaves room for a reference. -/
def reference (a : Assembly) (label : String) (base : Nat) : Assembly :=
  { a with patches := a.patches.push ⟨a.written.size, label, base⟩ }.append [0, 0, 0, 0]

/-- Writes one piece. -/
def write (a : Assembly) : Piece → Assembly
  | .beginUnit =>
    { a with unitStarts := a.unitStarts.push a.written.size }.append
      (littleBytes 0 4 ++ littleBytes 4 2 ++ littleBytes 0 4 ++ [8])
  | .entry code label =>
    { a with labels := a.labels.insert label a.written.size }.append (unsignedBytes code)
  | .text s => a.append (s.toUTF8.data.toList ++ [0])
  | .address v => a.append (littleBytes v.toNat 8)
  | .unitReference label => a.reference label a.currentStart
  | .forestReference label => a.reference label 0
  | .endChildren => a.append [0]
  | .endUnit =>
    let length := littleBytes (a.written.size - a.currentStart - 4) 4
    { a with written := overwrite a.written a.currentStart length }

/-- Writes pieces in order. -/
def ofPieces (pieces : List Piece) : Assembly := pieces.foldl write empty

/-- Fills in one reference, in 32 bits. -/
def patch (a : Assembly) (b : Bytes) (p : Patch) : Bytes :=
  let target : Int := ((a.labels.getD p.label 0 : Nat) : Int) - p.base
  overwrite b p.position (littleBytes (target % UInt32.size).toNat 4)

/-- The bytes written, with all references filled in. -/
def infoBytes (a : Assembly) : Bytes := a.patches.foldl a.patch a.written

/-- The sections written. -/
def sections (a : Assembly) : Sections :=
  { order := .little, info := a.infoBytes, abbreviations := abbreviationBytes, text := #[]
    lineText := #[], textOffsets := #[], addresses := #[], line := #[] }

end Assembly
end Dwarf
end ParamAtlas
