/-
# Attribute values

`AttributeValue`, of which `attr_string`, `attr_flag`, `attr_address` and
`attr_reference` read some.

| form | value |
| --- | --- |
| `01` | address |
| `08`; `0e`, `1f` | text in place; text at an offset of the two text sections |
| `1a`, `25`–`28`, `1f02` | text by index |
| `1b`, `29`–`2c`, `1f01` | address by index |
| `0c`, `19` | flag, written out or implied |
| `11`–`15` | reference within the unit |
| `10` | reference into the whole forest; of address size in version 2 |
| `17` | offset into a section |
| `06`, `07` | number; an offset for the attributes that may point into a section |
| `16` | the form itself comes first, then the value |
| blocks, other numbers, signatures, other files | read over, as `other` |
-/
import ParamAtlas.Dwarf.Abbreviation

namespace ParamAtlas
namespace Dwarf

/-- The value of an attribute, as far as anything is done with it. -/
inductive Value where
  | address (a : UInt64)
  | addressIndex (i : UInt64)
  | text (t : Bytes)
  | textOffset (o : Nat)
  | lineTextOffset (o : Nat)
  | textIndex (i : UInt64)
  | flag (b : Bool)
  | unitReference (r : UInt64)
  | forestReference (r : UInt64)
  | sectionOffset (o : Nat)
  | other
  deriving DecidableEq, Repr, Inhabited

/-- The attributes whose plain numbers may be offsets into a section. -/
def mayPoint (code : AttributeCode) (version : Nat) : Bool :=
  [0x02, 0x10, 0x19, 0x2a, 0x2c, 0x40, 0x43, 0x79, 0x46, 0x48, 0x4a, 0x4d, 0x55].contains code
    || (code == 0x38 && (version == 2 || version == 3))

/-- The form whose value begins with the form in fact used. -/
def indirectForm : Form := 0x16

namespace Reader

/-- Reads forms as long as the form at hand only announces another one. -/
def directForm (form : Form) : Reader Form :=
  loop (fun form =>
    if form = indirectForm then do
      let next ← unsigned16
      give (.inl next)
    else give (.inr form)) form

/-- Passes over a block whose length a reader gives. -/
def block (length : Reader Nat) : Reader Value := do
  let n ← length
  skip n
  give .other

/-- Passes over a value of `n` bytes. -/
def passed (n : Nat) : Reader Value := do
  skip n
  give .other

/-- Reads a number of `n` bytes that is an offset if `points` says so. -/
def numberOrOffset (order : ByteOrder) (points : Bool) (n : Nat) : Reader Value := do
  let v ← number order n
  give (if points then .sectionOffset v else .other)

/-- Reads the value of an attribute in a form that is not `indirectForm`.
`constant` says whether the abbreviation gives the value. -/
def directValue (e : Encoding) (code : AttributeCode) (constant : Bool) (form : Form) :
    Reader Value :=
  let points := mayPoint code e.version
  let indexed (f : UInt64 → Value) (r : Reader Nat) : Reader Value := do
    let i ← r
    give (f i.toUInt64)
  let offsetTo (f : Nat → Value) : Reader Value := do
    let o ← offset e.order e.format
    give (f o)
  match form with
  | 0x01 => indexed .address (number e.order e.addressSize)
  | 0x03 => block (number e.order 2)
  | 0x04 => block (number e.order 4)
  | 0x05 => passed 2
  | 0x06 => numberOrOffset e.order (points && e.format == .bits32) 4
  | 0x07 => numberOrOffset e.order (points && e.format == .bits64) 8
  | 0x08 => do
    let t ← zeroEnded
    give (.text t)
  | 0x09 => block unsigned
  | 0x0a => block byte
  | 0x0b => passed 1
  | 0x0c => do
    let n ← byte
    give (.flag (n ≠ 0))
  | 0x0d => do
    let _ ← signed
    give .other
  | 0x0e => offsetTo .textOffset
  | 0x0f => do
    let _ ← unsigned
    give .other
  | 0x10 =>
    if e.version = 2 then indexed .forestReference (number e.order e.addressSize)
    else indexed .forestReference (offset e.order e.format)
  | 0x11 => indexed .unitReference (number e.order 1)
  | 0x12 => indexed .unitReference (number e.order 2)
  | 0x13 => indexed .unitReference (number e.order 4)
  | 0x14 => indexed .unitReference (number e.order 8)
  | 0x15 => indexed .unitReference unsigned
  | 0x17 => offsetTo .sectionOffset
  | 0x18 => block unsigned
  | 0x19 => give (.flag true)
  | 0x1a => indexed .textIndex unsigned
  | 0x1b => indexed .addressIndex unsigned
  | 0x1c => passed 4
  | 0x1d => passed e.format.offsetSize
  | 0x1e => passed 16
  | 0x1f => offsetTo .lineTextOffset
  | 0x20 => passed 8
  | 0x21 => if constant then give .other else fault .misplacedConstant
  | 0x22 => do
    let _ ← unsigned
    give .other
  | 0x23 => do
    let _ ← unsigned
    give .other
  | 0x24 => passed 8
  | 0x25 => indexed .textIndex (number e.order 1)
  | 0x26 => indexed .textIndex (number e.order 2)
  | 0x27 => indexed .textIndex (number e.order 3)
  | 0x28 => indexed .textIndex (number e.order 4)
  | 0x29 => indexed .addressIndex (number e.order 1)
  | 0x2a => indexed .addressIndex (number e.order 2)
  | 0x2b => indexed .addressIndex (number e.order 3)
  | 0x2c => indexed .addressIndex (number e.order 4)
  | 0x1f01 => indexed .addressIndex unsigned
  | 0x1f02 => indexed .textIndex unsigned
  | 0x1f20 => passed e.format.offsetSize
  | 0x1f21 => passed e.format.offsetSize
  | _ => fault .unknownForm

/-- Reads the value of an attribute. -/
def value (e : Encoding) (a : AttributeShape) : Reader Value := do
  let form ← directForm a.form
  directValue e a.code a.constant form

/-- Reads the values of all attributes of an entry. -/
def values (e : Encoding) : List AttributeShape → Reader (List (AttributeCode × Value))
  | [] => give []
  | a :: rest => do
    let v ← value e a
    let more ← values e rest
    give ((a.code, v) :: more)

/-- Passes over the values of all attributes of an entry. -/
def skipValues (e : Encoding) : List AttributeShape → Reader Unit
  | [] => give ()
  | a :: rest => do
    let _ ← value e a
    skipValues e rest

/-- Reads the values of attributes up to the first one with a code.  What comes
after that one does not matter. -/
def findValue (e : Encoding) (code : AttributeCode) : List AttributeShape → Reader (Option Value)
  | [] => give none
  | a :: rest => do
    let v ← value e a
    if a.code = code then give (some v) else findValue e code rest

end Reader
end Dwarf
end ParamAtlas
