/-
# Words of the v0 scheme

| word | written |
| --- | --- |
| number | `_` for 0, else digits of base 62 (`0`–`9`, `a`–`z`, `A`–`Z`) for one less, then `_` |
| mark `s` or `G` | nothing for 0, else the letter and a number for one less |
| identifier | `u` if it has Punycode, a decimal length, `_` at will, that many characters |
| hexadecimal | digits `0`–`9`, `a`–`f`, then `_` |

Numbers have at most 64 bits.
-/
import ParamAtlas.Bytes.Utf8
import ParamAtlas.Text.Digit
import ParamAtlas.Text.Punycode

namespace ParamAtlas
namespace Demangle
namespace V0

/-- A way to take a word from the front of characters. -/
abbrev Token := StateT (List Char) Option

namespace Token

/-- Takes a character. -/
def next : Token Char
  | c :: cs => some (c, cs)
  | [] => none

/-- Takes a character if it is the one given, and says whether it was. -/
def eat (c : Char) : Token Bool
  | d :: cs => if c = d then some (true, cs) else some (false, d :: cs)
  | [] => some (false, [])

/-- The value of a digit of base 62. -/
def digit62? (c : Char) : Option Nat :=
  if c.isDigit then some (c.toNat - '0'.toNat)
  else if c.isLower then some (c.toNat - 'a'.toNat + 10)
  else if c.isUpper then some (c.toNat - 'A'.toNat + 36)
  else none

/-- Digits of base 62 up to `_`, after digits that make `n`. -/
def digits62 (n : Nat) : List Char → Option (Nat × List Char)
  | [] => none
  | c :: cs => if c = '_' then some (n, cs) else do digits62 (n * 62 + (← digit62? c)) cs

/-- Refuses a number of more than 64 bits. -/
def word (n : Nat) : Token Nat := if n < UInt64.size then pure n else failure

/-- A number. -/
def number : Token Nat := do
  if ← eat '_' then return 0
  word ((← digits62 0) + 1)

/-- A number behind a letter, counted from 1; 0 without the letter. -/
def mark (letter : Char) : Token Nat := do
  if ← eat letter then word ((← number) + 1) else return 0

/-- The number that tells things of one name apart. -/
def disambiguator : Token Nat := mark 's'

/-- The kind of a name in its scope: a letter for a kind without a name of its
own, none for any other. -/
def namespaceKind : Token (Option Char) := do
  let c ← next
  if c.isUpper then return some c
  else if c.isLower then return none
  else failure

/-- A decimal number; a zero stands alone. -/
def decimal : Token Nat := do
  let c ← next
  if c.isDigit then
    if c = '0' then return 0
    else fun cs => some (Text.decimals (c.toNat - '0'.toNat) cs)
  else failure

/-- Takes so many characters. -/
def take (n : Nat) : Token (List Char) := fun cs =>
  if n ≤ cs.length then some (cs.take n, cs.drop n) else none

/-- Hexadecimal digits up to `_`. -/
def hexDigits : List Char → Option (List Char × List Char)
  | [] => none
  | c :: cs =>
    if c = '_' then some ([], cs)
    else if c.isDigit || ('a' ≤ c && c ≤ 'f') then do
      let (ds, rest) ← hexDigits cs
      some (c :: ds, rest)
    else none

/-- Hexadecimal digits. -/
def hex : Token (List Char) := hexDigits

end Token

/-- A name: its ASCII characters, and the Punycode for the others if there are
any. -/
structure Identifier where
  ascii : List Char
  punycode : List Char
  deriving Repr, DecidableEq, Inhabited

namespace Identifier

/-- Splits characters at the last `_`; without one, all of them are on the
right. -/
def splitLast (cs : List Char) : List Char × List Char :=
  match cs.reverse.span (· != '_') with
  | (right, _ :: left) => (left.reverse, right.reverse)
  | (right, []) => ([], right.reverse)

/-- Reads an identifier. -/
def token : Token Identifier := do
  let encoded ← Token.eat 'u'
  let size ← Token.decimal
  let _ ← Token.eat '_'
  let cs ← Token.take size
  if encoded then
    let (ascii, punycode) := splitLast cs
    if punycode.isEmpty then failure else return ⟨ascii, punycode⟩
  else return ⟨cs, []⟩

/-- Whether there is no name. -/
def isEmpty (x : Identifier) : Bool := x.ascii.isEmpty && x.punycode.isEmpty

/-- The pieces that show a name; Punycode is decoded for names of up to 128
characters. -/
def pieces (x : Identifier) : List String :=
  if x.punycode.isEmpty then [String.ofList x.ascii]
  else match Text.Punycode.decode? 128 x.ascii x.punycode with
    | some cs => cs.map String.singleton
    | none =>
      "punycode\x7b" :: (if x.ascii.isEmpty then [] else [String.ofList x.ascii, "-"]) ++
        [String.ofList x.punycode, "\x7d"]

end Identifier

namespace Hexadecimal

/-- The value of a hexadecimal digit. -/
def value (c : Char) : Nat :=
  if c.isDigit then c.toNat - '0'.toNat else c.toNat - 'a'.toNat + 10

/-- The number that digits make, if it has at most 64 bits. -/
def number? (ds : List Char) : Option Nat :=
  let ds := ds.dropWhile (· = '0')
  if ds.length ≤ 16 then some (ds.foldl (fun n c => n * 16 + value c) 0) else none

/-- The character with a number. -/
def char? (ds : List Char) : Option Char := do
  let n ← number? ds
  if n.isValidChar then some (Char.ofNat n) else none

/-- The bytes that pairs of digits make. -/
def bytes? : List Char → Option (List UInt8)
  | [] => some []
  | [_] => none
  | a :: b :: ds => do return UInt8.ofNat (value a * 16 + value b) :: (← bytes? ds)

/-- The text whose bytes the digits make. -/
def text? (ds : List Char) : Option String := do
  Utf8.strict? (← bytes? ds).toArray

end Hexadecimal
end V0
end Demangle
end ParamAtlas
