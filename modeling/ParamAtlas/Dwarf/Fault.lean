/-
# Faults in encoded debug information

Everything that can be wrong with the bytes of a unit, of its abbreviations or
of the header of its line program, each cause with its own text.
-/

namespace ParamAtlas
namespace Dwarf

/-- Why bytes are no debug information. -/
inductive Fault where
  | endOfInput
  | unknownVersion
  | reservedLength
  | unitType
  | addressSize
  | offsetSize
  | missingRoot
  | unknownAbbreviation
  | duplicateAbbreviation
  | zeroTag
  | zeroForm
  | nonzeroForm
  | childrenByte
  | unsignedNumber
  | signedNumber
  | unknownForm
  | misplacedConstant
  | zeroInstructionLength
  | zeroOperations
  | zeroLineRange
  | zeroOpcodeBase
  | segmentSize
  | pathFormat
  deriving DecidableEq, Repr, Inhabited

/-- The break in texts of two lines, the second of which is indented. -/
def Fault.continued : String := "\n                 "

/-- The text of a fault. -/
def Fault.message : Fault → String
  | .endOfInput => "Hit the end of input before it was expected"
  | .unknownVersion => "Found an unknown DWARF version"
  | .reservedLength => "Found an unknown reserved length value"
  | .unitType => "The `DW_UT_*` value for this unit is not supported yet"
  | .addressSize => "The specified address size is not supported"
  | .offsetSize => "The specified offset size is not supported"
  | .missingRoot => "A compilation unit or type unit is missing its top level DIE."
  | .unknownAbbreviation => "Found a record with an unknown abbreviation code"
  | .duplicateAbbreviation => "Found an abbreviation code that has already been used"
  | .zeroTag =>
    "An abbreviation declared that its tag is zero," ++ Fault.continued ++
      "but zero is reserved for null records"
  | .zeroForm =>
    "An attribute specification declared that its form is zero," ++ Fault.continued ++
      "but zero is reserved for null records"
  | .nonzeroForm => "Expected a zero, found something else"
  | .childrenByte =>
    "The abbreviation's has-children byte was not one of" ++ Fault.continued ++
      "`DW_CHILDREN_\x7byes,no\x7d`"
  | .unsignedNumber => "An error parsing an unsigned LEB128 value"
  | .signedNumber => "An error parsing a signed LEB128 value"
  | .unknownForm => "Found an unknown `DW_FORM_*` type"
  | .misplacedConstant => "Invalid use of DW_FORM_implicit_const"
  | .zeroInstructionLength => "The minimum instruction length must not be zero."
  | .zeroOperations => "The maximum operations per instruction must not be zero."
  | .zeroLineRange => "The line range must not be zero."
  | .zeroOpcodeBase => "The opcode base must not be zero."
  | .segmentSize => "Nonzero segment size not supported yet"
  | .pathFormat => "Missing DW_LNCT in file entry format"

end Dwarf
end ParamAtlas
