/-
# Abbreviations

The abbreviations that `gimli::Dwarf::unit` parses.

The entries of a unit name their shape by a code.  A table of abbreviations
gives for each code

| part | encoding |
| --- | --- |
| code | unsigned, 0 ends the table |
| tag | unsigned up to 16 bits, not 0 |
| children | one byte, 0 or 1 |
| attributes | pairs of attribute and form up to the pair 0, 0 |

The form `0x21` carries the value itself, a signed number after the pair.
-/
import Std.Data.HashMap
import ParamAtlas.Dwarf.Encoding
import ParamAtlas.Forest.Basic

namespace ParamAtlas
namespace Dwarf

/-- How the value of an attribute is encoded. -/
abbrev Form := Nat

/-- One attribute of an abbreviation.  `constant` says that the value stands
in the abbreviation. -/
structure AttributeShape where
  code : AttributeCode
  form : Form
  constant : Bool
  deriving DecidableEq, Repr, Inhabited

/-- The shape of an entry. -/
structure Abbreviation where
  tag : Tag
  hasChildren : Bool
  attributes : List AttributeShape
  deriving DecidableEq, Repr, Inhabited

/-- Abbreviations by code. -/
abbrev Abbreviations := Std.HashMap Nat Abbreviation

/-- The form of a value that stands in the abbreviation. -/
def constantForm : Form := 0x21

namespace Reader

/-- Reads one attribute of an abbreviation, or none at the end of the list. -/
def attributeShape : Reader (Option AttributeShape) := do
  let code ← unsigned16
  let form ← unsigned16
  if code = 0 then
    if form = 0 then give none else fault .nonzeroForm
  else if form = 0 then fault .zeroForm
  else if form = constantForm then do
    let _ ← signed
    give (some ⟨code.toUInt16, form, true⟩)
  else give (some ⟨code.toUInt16, form, false⟩)

/-- Reads the code and the shape of one abbreviation, or none at the end of the
table. -/
def abbreviation : Reader (Option (Nat × Abbreviation)) := do
  let code ← unsigned
  if code = 0 then give none
  else do
    let tag ← unsigned16
    if tag = 0 then fault .zeroTag
    else do
      let children ← byte
      if 1 < children then fault .childrenByte
      else do
        let attributes ← items attributeShape
        give (some (code, ⟨tag.toUInt16, children = 1, attributes⟩))

/-- Reads a table of abbreviations behind those that are in it; no code may come
twice. -/
def abbreviationsFrom (table : Abbreviations) : Reader Abbreviations :=
  loop (fun (table : Abbreviations) => do
    match ← abbreviation with
    | none => give (.inr table)
    | some (code, a) =>
      if code ∈ table then fault .duplicateAbbreviation else give (.inl (table.insert code a)))
    table

/-- Reads a table of abbreviations. -/
def abbreviations : Reader Abbreviations := abbreviationsFrom ∅

end Reader
end Dwarf
end ParamAtlas
