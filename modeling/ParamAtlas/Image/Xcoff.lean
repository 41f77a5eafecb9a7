/-
# XCOFF images

`object::File::parse`, for this format.

Numbers are big-endian.  Behind the header come an optional one and the sections:

| | narrow | wide |
| --- | ---: | ---: |
| header | 20 | 24 |
| optional header of a program | 72 | 120 |
| section | 40 | 72 |
| symbol, and each auxiliary row | 18 | 18 |
| texts | after the symbols | after the symbols |

A table of symbols without rows counts as none.  The last auxiliary row of a symbol
that can be seen from outside, or is hidden, says what it is:

| type | symbol |
| ---: | --- |
| 0 | defined elsewhere |
| 1, 3 | a block of so many bytes, of code, data or data of threads |
| 2 | a place in a block of code |

No section can have debug information for this program, as its names have more than 8
bytes.
-/
import ParamAtlas.Bytes.Utf8
import ParamAtlas.Image.Basic
import ParamAtlas.Image.Fault

namespace ParamAtlas
namespace Xcoff

open Image (Fault)

/-- The two widths of rows. -/
inductive Width where
  | narrow
  | wide
  deriving DecidableEq, Repr, Inhabited

/-- The number of `width` bytes at a position. -/
def word (b : Bytes) (pos width : Nat) : Nat := b.number .big pos width

namespace Width

/-- The size of the header. -/
def headerSize : Width → Nat
  | narrow => 20
  | wide => 24

/-- The size of the optional header of a program. -/
def optionalSize : Width → Nat
  | narrow => 72
  | wide => 120

/-- The size of a section's row. -/
def sectionSize : Width → Nat
  | narrow => 40
  | wide => 72

/-- The offset of the symbols, in the header. -/
def symbolsAt (b : Bytes) : Width → Nat
  | narrow => word b 8 4
  | wide => word b 8 8

/-- The number of symbols, in the header. -/
def symbolCount (b : Bytes) : Width → Nat
  | narrow => word b 12 4
  | wide => word b 20 4

end Width

/-! ## Sections -/

/-- Whether the flags of a header are those of a program. -/
def isProgram (flags : Nat) : Bool := flags / 2 % 2 = 1

/-- The position of the sections.  Of a program, an optional header of the usual size
must be there. -/
def sectionsAt (w : Width) (b : Bytes) : Except Fault Nat :=
  let size := word b 16 2
  if isProgram (word b 18 2) ∧ size = w.optionalSize ∧ b.size < w.headerSize + size then
    .error .xcoffOptional
  else .ok (w.headerSize + size)

/-- The section whose row starts at a position. -/
def imageSection (w : Width) (b : Bytes) (pos : Nat) : ImageSection :=
  let (size, offset) := match w with
    | .narrow => (word b (pos + 16) 4, word b (pos + 20) 4)
    | .wide => (word b (pos + 24) 8, word b (pos + 32) 8)
  ⟨some (b.field pos 8), .ofSlice b offset size⟩

/-- Reads `count` sections. -/
def sections (w : Width) (b : Bytes) (start count : Nat) : Except Fault (List ImageSection) :=
  if count = 0 then .ok []
  else
    match tableRows? b start w.sectionSize count with
    | none => .error .xcoffSections
    | some rows => .ok (rows.map (imageSection w b))

/-! ## Symbols -/

/-- The storage classes that matter. -/
inductive Storage where
  | external
  | static
  | block
  | function
  | file
  | hidden
  | comment
  | weak
  | other
  deriving DecidableEq, Repr, Inhabited

namespace Storage

/-- The storage class with a number. -/
def ofNumber : Nat → Storage
  | 2 => external
  | 3 => static
  | 100 => block
  | 101 => function
  | 103 => file
  | 107 => hidden
  | 110 => comment
  | 111 => weak
  | _ => other

/-- Whether the value of a symbol is an address. -/
def hasAddress : Storage → Bool
  | external | static | block | function | hidden | comment | weak => true
  | file | other => false

/-- Whether the last auxiliary row says what a symbol is. -/
def hasBlock : Storage → Bool
  | external | hidden | weak => true
  | static | block | function | file | comment | other => false

end Storage

/-- A row of the symbol table, with the number of auxiliary rows that it announces and
the positions of those that are there. -/
structure SymbolRow where
  pos : Nat
  announced : Nat
  extras : List Nat
  deriving DecidableEq, Repr, Inhabited

/-- The size of a row. -/
def rowSize : Nat := 18

/-- The symbols of a table, each with its auxiliary rows. -/
def symbolRows (b : Bytes) : List Nat → List SymbolRow
  | [] => []
  | pos :: rest =>
    let extra := b.at0 (pos + 17)
    ⟨pos, extra, rest.take extra⟩ :: symbolRows b (rest.drop extra)
termination_by rows => rows.length
decreasing_by simp only [List.length_drop, List.length_cons]; omega

/-- A table of symbols and the texts behind it. -/
structure SymbolTable where
  rows : List SymbolRow
  texts : TextTable
  deriving Repr, Inhabited

/-- Reads the table of symbols at an offset, which is zero if there is none. -/
def symbolTable (b : Bytes) (offset count : Nat) : Except Fault SymbolTable :=
  if offset = 0 then .ok ⟨[], ⟨0, 0⟩⟩
  else
    match tableRows? b offset rowSize count with
    | none => .error .xcoffSymbols
    | some rows =>
      let texts := offset + count * rowSize
      match b.number? .big texts 4 with
      | none => .error .xcoffTexts
      | some size => .ok ⟨symbolRows b rows, ⟨texts, texts + size⟩⟩

/-- What the auxiliary row of a block says. -/
structure Block where
  type : Nat
  storage : Nat
  size : Nat
  deriving DecidableEq, Repr, Inhabited

namespace Block

/-- The mark of the auxiliary row of a block, where rows are marked. -/
def mark : Nat := 251

/-- The block whose auxiliary row starts at a position.  Wide rows are marked. -/
def read? (w : Width) (b : Bytes) (pos : Nat) : Option Block :=
  let of (size : Nat) : Block := ⟨b.at0 (pos + 10) % 8, b.at0 (pos + 11), size⟩
  match w with
  | .narrow => some (of (word b pos 4))
  | .wide =>
    if b.at0 (pos + 17) = mark then some (of (UInt32.size * word b (pos + 12) 4 + word b pos 4))
    else none

/-- Whether the row stands for the block itself. -/
def isWhole (k : Block) : Bool := k.type = 1 || k.type = 3

/-- What a block of a storage class holds. -/
def contentKind : Nat → TableKind
  | 0 | 6 => .text
  | 1 | 3 | 5 | 9 | 10 | 15 | 16 => .data
  | 20 | 21 => .tls
  | _ => .unknown

/-- What the symbol stands for, if the row says so. -/
def kind? (k : Block) : Option TableKind :=
  if k.isWhole then some (contentKind k.storage)
  else if k.type = 2 then some .text
  else if k.type = 0 then some .unknown
  else none

end Block

namespace SymbolRow

variable (r : SymbolRow) (w : Width) (b : Bytes)

/-- The storage class. -/
def storage : Storage := .ofNumber (b.at0 (r.pos + 16))

/-- The block that a symbol is or is in. -/
def block? : Option Block :=
  if (r.storage b).hasBlock ∧ 0 < r.announced then
    (r.extras[r.announced - 1]?).bind (Block.read? w b)
  else none

/-- The mark of the auxiliary row with the name of a file, where rows are marked. -/
def fileMark : Nat := 252

/-- A name of up to 8 bytes at a position, or an offset among the texts behind four zero
bytes, of which only the first is looked at. -/
def shortName (texts : TextTable) (pos : Nat) : Option Bytes :=
  if b.at0 pos = 0 then texts.text? b (word b (pos + 4) 4) else some (b.field pos 8)

/-- The name of a symbol.  That of a file is in its first auxiliary row. -/
def name (texts : TextTable) : Option Bytes :=
  if r.storage b = .file ∧ 0 < r.announced then
    match w, r.extras with
    | _, [] => none
    | .narrow, pos :: _ => shortName b texts pos
    | .wide, pos :: _ => if b.at0 (pos + 17) = fileMark then shortName b texts pos else none
  else
    match w with
    | .narrow => shortName b texts r.pos
    | .wide => texts.text? b (word b (r.pos + 8) 4)

/-- The value of a symbol. -/
def value : Nat :=
  match w with
  | .narrow => word b (r.pos + 8) 4
  | .wide => word b r.pos 8

/-- What a symbol stands for. -/
def kind : TableKind :=
  ((r.block? w b).bind Block.kind?).getD (if r.storage b = .file then .file else .unknown)

/-- The size of a symbol: that of the block that it is. -/
def size : Nat :=
  match r.block? w b with
  | some k => if k.isWhole then k.size else 0
  | none => 0

/-- The part of a symbol's type that says how far it can be seen, if it is 2 within the
program only. -/
def visibility : Nat := word b (r.pos + 14) 2 >>> 12

/-- How far a symbol can be seen.  One without a section is defined elsewhere. -/
def scope : TableScope :=
  if word b (r.pos + 12) 2 = 0 then .unknown
  else
    match r.storage b with
    | .external | .weak => if r.visibility b = 2 then .linkage else .dynamic
    | _ => .compilation

/-- The table entry that a row stands for. -/
def symbol (texts : TextTable) : TableSymbol where
  name := (r.name w b texts).bind Utf8.strict?
  address := if (r.storage b).hasAddress then (r.value w b).toUInt64 else 0
  size := (r.size w b).toUInt64
  kind := r.kind w b
  scope := r.scope b
  flags := .other

end SymbolRow

/-! ## Files -/

/-- Reads an XCOFF file. -/
def image (w : Width) (b : Bytes) : Except Fault Image := do
  if b.size < w.headerSize then throw .xcoffHeader
  let sections ← sections w b (← sectionsAt w b) (word b 2 2)
  let table ← symbolTable b (w.symbolsAt b) (w.symbolCount b)
  return {
    format := .xcoff
    order := .big
    symbols := if table.rows = [] then none else some (table.rows.map (·.symbol w b table.texts))
    sections }

end Xcoff
end ParamAtlas
