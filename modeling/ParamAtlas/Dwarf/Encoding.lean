/-
# How a unit is encoded

| format | initial length | an offset takes |
| --- | --- | ---: |
| 32 bits | 4 bytes, below `fffffff0` | 4 bytes |
| 64 bits | `ffffffff`, then 8 bytes | 8 bytes |

The values from `fffffff0` to `fffffffe` are reserved.
-/
import ParamAtlas.Dwarf.Reader

namespace ParamAtlas
namespace Dwarf

/-- The size of offsets and lengths in a unit, in bytes. -/
inductive Format where
  | bits32
  | bits64
  deriving DecidableEq, Repr, Inhabited

namespace Format

/-- The size of an offset. -/
def offsetSize : Format → Nat
  | bits32 => 4
  | bits64 => 8

end Format

/-- What must be known of a unit to read numbers in it. -/
structure Encoding where
  order : ByteOrder
  format : Format
  version : Nat
  addressSize : Nat
  deriving DecidableEq, Repr, Inhabited

namespace Reader

/-- Reads a length and with it the format of what follows. -/
def initialLength (order : ByteOrder) : Reader (Nat × Format) := do
  let n ← number order 4
  if n < 0xfffffff0 then give (n, .bits32)
  else if n = 0xffffffff then do
    let n ← number order 8
    give (n, .bits64)
  else fault .reservedLength

/-- Reads an offset into a section. -/
def offset (order : ByteOrder) (format : Format) : Reader Nat := number order format.offsetSize

/-- Reads the size of addresses: 1, 2, 4 or 8. -/
def addressSize : Reader Nat := do
  let n ← byte
  if n = 1 ∨ n = 2 ∨ n = 4 ∨ n = 8 then give n else fault .addressSize

/-- Reads a version from 2 to 5. -/
def version (order : ByteOrder) : Reader Nat := do
  let v ← number order 2
  if 2 ≤ v ∧ v ≤ 5 then give v else fault .unknownVersion

end Reader
end Dwarf
end ParamAtlas
