/-
# The header of a line program

The header that `gimli::Dwarf::unit` parses with a unit.

A unit may point to the program that maps its code to source lines.  The
program itself is of no use here, but a unit whose line program has a faulty
header is not loaded, so the header is read to its end:

| part | from version |
| --- | ---: |
| length, version (2 to 5) | 2 |
| size of addresses, size of segment selectors (0) | 5 |
| length of the rest, least instruction length (not 0) | 2 |
| most operations in an instruction (not 0) | 4 |
| default flag, line base, line range (not 0), opcode base (not 0), opcode lengths | 2 |
| directories and files, zero-ended lists | 2, up to 4 |
| directories and files, lists of a declared shape | 5 |
-/
import ParamAtlas.Dwarf.Encoding

namespace ParamAtlas
namespace Dwarf
namespace Reader

/-- Reads zero-ended texts up to an empty one, `more` following each of them. -/
def namesUpToEmpty (more : Reader Unit) : Reader Unit :=
  loop (fun (_ : Unit) => do
    let name ← zeroEnded
    if name.isEmpty then give (.inr ())
    else do
      more
      give (.inl ())) ()

/-- Passes over a block whose length a reader gives. -/
def lineBlock (length : Reader Nat) : Reader Unit := do
  let n ← length
  skip n

/-- Passes over one column of a directory or file of a declared shape. -/
def lineColumn (order : ByteOrder) (format : Format) (form : Nat) : Reader Unit :=
  match form with
  | 0x03 => lineBlock (number order 2)
  | 0x04 => lineBlock (number order 4)
  | 0x05 => skip 2
  | 0x06 => skip 4
  | 0x07 => skip 8
  | 0x08 => do
    let _ ← zeroEnded
    give ()
  | 0x09 => lineBlock unsigned
  | 0x0a => lineBlock byte
  | 0x0b => skip 1
  | 0x0c => skip 1
  | 0x0d => do
    let _ ← signed
    give ()
  | 0x0e => skip format.offsetSize
  | 0x0f => do
    let _ ← unsigned
    give ()
  | 0x17 => skip format.offsetSize
  | 0x1a => do
    let _ ← unsigned
    give ()
  | 0x1d => skip format.offsetSize
  | 0x1e => skip 16
  | 0x1f => skip format.offsetSize
  | 0x25 => skip 1
  | 0x26 => skip 2
  | 0x27 => skip 3
  | 0x28 => skip 4
  | 0x1f02 => do
    let _ ← unsigned
    give ()
  | 0x1f21 => skip format.offsetSize
  | _ => fault .unknownForm

/-- Passes over the columns of one directory or file. -/
def lineColumns (order : ByteOrder) (format : Format) : List (Nat × Nat) → Reader Unit
  | [] => give ()
  | (_, form) :: rest => do
    lineColumn order format form
    lineColumns order format rest

/-- Reads the columns that a list declares: content and form of each. -/
def declaredColumns : Nat → Reader (List (Nat × Nat))
  | 0 => give []
  | n + 1 => do
    let content ← unsigned
    let form ← unsigned16
    let rest ← declaredColumns n
    give ((content, form) :: rest)

/-- Reads a list of directories or files of a declared shape.  Exactly one
column must hold paths (content 1). -/
def declaredList (order : ByteOrder) (format : Format) : Reader Unit := do
  let n ← byte
  let columns ← declaredColumns n
  if columns.countP (·.1 = 1) ≠ 1 then fault .pathFormat
  else do
    let count ← unsigned
    times (lineColumns order format columns) count

/-- Fails with a fault if a number is zero. -/
def nonzero (n : Nat) (f : Fault) : Reader Unit := if n = 0 then fault f else give ()

/-- Reads what the header holds after the length of the rest. -/
def lineHeaderRest (order : ByteOrder) (format : Format) (version : Nat) : Reader Unit := do
  let shortest ← byte
  nonzero shortest .zeroInstructionLength
  if 4 ≤ version then do
    let most ← byte
    nonzero most .zeroOperations
  skip 2
  let range ← byte
  nonzero range .zeroLineRange
  let opcodeBase ← byte
  nonzero opcodeBase .zeroOpcodeBase
  skip (opcodeBase - 1)
  if version ≤ 4 then do
    namesUpToEmpty (give ())
    namesUpToEmpty (times unsigned 3)
  else do
    declaredList order format
    declaredList order format

/-- Applies a reader to the next `n` bytes alone. -/
def within (n : Nat) (r : Reader Unit) : Reader Unit := do
  let part ← take n
  match r.run part 0 with
  | .ok _ => give ()
  | .error f => fault f

/-- Reads the header of a line program. -/
def lineHeader (order : ByteOrder) : Reader Unit := do
  let (length, format) ← initialLength order
  within length do
    let v ← version order
    if 5 ≤ v then do
      let _ ← addressSize
      let selector ← byte
      if selector ≠ 0 then fault .segmentSize
    let rest ← offset order format
    within rest (lineHeaderRest order format v)

end Reader
end Dwarf
end ParamAtlas
