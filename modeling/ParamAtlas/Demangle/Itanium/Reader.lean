/-
# Readers of Itanium names

A reader takes a form from the front of a symbol, whose characters stand for
bytes.  It knows whether the form is part of a conversion operator, and enters
into the table what other forms refer to; those that later forms in the symbol
may refer to have a number.  The entries that a reader has made stay in the table
if it fails.

| word | written |
| --- | --- |
| number | digits without a leading zero; `n` first for a negative one |
| sequence number | digits of base 36: decimal ones and capital letters |
| name | letters, digits, `$`, `_`, `.`, with their number before them |
| qualifiers | `r`, `V`, `K`, each at will, in this order |
-/
import ParamAtlas.Demangle.Itanium.Basic

namespace ParamAtlas
namespace Demangle
namespace Itanium

/-- Why a form cannot be read.  A form that is too deep cannot be read in
another way either. -/
inductive Fault where
  | mismatch
  | tooDeep
  deriving DecidableEq, Repr, Inhabited

/-- What is left of the symbol, the table, and the entries with a number. -/
structure Source where
  rest : List Char
  table : Table := #[]
  numbered : Array Ref := #[]

/-- A way to take a form, inside a conversion operator or not. -/
abbrev Reader := ReaderT Bool (ExceptT Fault (StateM Source))

namespace Reader

variable {α : Type}

/-- Fails. -/
def mismatch : Reader α := throw .mismatch

/-- Takes a form if it is there; if not, nothing is taken. -/
def attempt (r : Reader α) : Reader (Option α) := do
  let start := (← get).rest
  try
    return some (← r)
  catch
    | .tooDeep => throw .tooDeep
    | .mismatch =>
      modify fun s => { s with rest := start }
      return none

/-- Takes up to `count` forms. -/
def manyUpTo (r : Reader α) : (count : Nat) → Reader (List α)
  | 0 => return []
  | n + 1 => do
    match ← attempt r with
    | none => return []
    | some a => return a :: (← manyUpTo r n)

/-- Takes forms as long as there are any.  Every form has characters. -/
def many (r : Reader α) : Reader (List α) := do manyUpTo r (← get).rest.length

/-- Takes forms as long as there are any, and at least one. -/
def manyOne (r : Reader α) : Reader (List α) := return (← r) :: (← many r)

/-- The next character. -/
def peek : Reader (Option Char) := return (← get).rest.head?

/-- Takes the characters that follow as long as they pass a test. -/
def takeWhile (test : Char → Bool) : Reader (List Char) := do
  let rest := (← get).rest
  modify fun s => { s with rest := rest.dropWhile test }
  return rest.takeWhile test

/-- Takes a text if it is there, and says whether it was. -/
def eat (text : String) : Reader Bool := do
  let rest := (← get).rest
  if text.toList.isPrefixOf rest then
    modify fun s => { s with rest := rest.drop text.length }
    return true
  else return false

/-- Takes a text that has to be there. -/
def expect (text : String) : Reader Unit := do
  if !(← eat text) then mismatch

/-- Takes a character that passes a test. -/
def next : Reader Char := do
  match (← get).rest with
  | [] => mismatch
  | c :: rest =>
    modify fun s => { s with rest }
    return c

/-- Reads a form as part of a conversion operator or not. -/
def inConversion (isConversion : Bool) (r : Reader α) : Reader α := fun _ => r isConversion

/-- Makes an entry without a number. -/
def note (e : Entry) : Reader Ref := do
  let table := (← get).table
  modify fun s => { s with table := table.push e }
  return .entry table.size

/-- Makes an entry. -/
def enter (e : Entry) : Reader Ref := do
  let r ← note e
  modify fun s => { s with numbered := s.numbered.push r }
  return r

/-- Digits of a base up to 36 as a number of less than 63 bits. -/
def digits (base : Nat) : Reader Nat := do
  let value (c : Char) : Nat :=
    if c.isDigit then c.toNat - '0'.toNat else c.toNat - 'A'.toNat + 10
  let isDigit (c : Char) : Bool := (c.isDigit || c.isUpper) && value c < base
  match ← takeWhile isDigit with
  | [] => mismatch
  | c :: cs =>
    if c = '0' ∧ cs ≠ [] then mismatch
    else
      let n := (c :: cs).foldl (fun n c => n * base + value c) 0
      if n < 0x8000000000000000 then return n else mismatch

/-- A number. -/
def number : Reader Nat := digits 10

/-- A number that may be negative. -/
def integer : Reader Int := do
  if ← eat "n" then return -(← number) else return (← number)

/-- A number counted from 1, then `_`; 0 if there is none. -/
def index (base : Nat) : Reader Nat := do
  let n := match ← attempt (digits base) with
    | none => 0
    | some n => n + 1
  expect "_"
  return n

/-- Whether a character may stand in a name. -/
def isNameChar (c : Char) : Bool := c.isAlphanum || c = '$' || c = '_' || c = '.'

/-- Characters with their number, which is not 0, before them. -/
def sized : Reader (List Char) := do
  let size ← number
  let rest := (← get).rest
  let cs := rest.take size
  if size = 0 ∨ cs.length < size then mismatch
  else
    modify fun s => { s with rest := rest.drop size }
    return cs

/-- Characters as a name. -/
def nameOf (cs : List Char) : Reader String :=
  if cs.all isNameChar then return String.ofList cs else mismatch

/-- Qualifiers. -/
def qualifiers : Reader Qualifiers := do
  let isRestrict ← eat "r"
  let isVolatile ← eat "V"
  let isConst ← eat "K"
  return { isConst, isVolatile, isRestrict }

/-- The kind of a reference. -/
def referenceKind : Reader ReferenceKind := do
  if ← eat "R" then return .lvalue
  expect "O"
  return .rvalue

/-- A reference to an entry or a component. -/
def substitution : Reader Ref := do
  expect "S"
  match (← peek).bind Component.ofLetter? with
  | some c =>
    let _ ← next
    return .component c
  | none =>
    let i ← index 36
    match (← get).numbered[i]? with
    | some r => return r
    | none => mismatch

/-- A parameter of a template. -/
def templateParameter : Reader Nat := do
  expect "T"
  index 10

/-- The number of a thing among those of one name in a function, which is not
shown. -/
def discriminator : Reader Unit := do
  expect "_"
  if ← eat "_" then
    if (← number) < 10 then mismatch
    expect "_"
  else if !(← next).isDigit then mismatch

/-- The first of the texts that is there, with its meaning. -/
def oneOf (texts : List (String × α)) : Reader α :=
  match texts with
  | [] => mismatch
  | (text, meaning) :: others => do
    if ← eat text then return meaning else oneOf others

end Reader
end Itanium
end Demangle
end ParamAtlas
