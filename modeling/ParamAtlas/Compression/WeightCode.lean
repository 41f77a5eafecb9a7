/-
# Weight codes

A prefix code for bytes, told by weights.  The number of bits in a code word is

| weight | bits |
| --- | --- |
| 0 | no code word |
| w | width of the code + 1 – w |

A code word counts for 2ʷ⁻¹ patterns of as many bits as the code is wide.  The
weights of all symbols but the last are told; the last has the weight that is
missing so that each pattern has exactly one meaning.  Patterns are given out
from 0 on, first to the symbols of the least weight, to symbols of one weight in
their order.

Weights are told in one of two ways, by the byte in front of them:

| first byte `n` | weights |
| --- | --- |
| below 128 | `n` bytes: a state code, and symbols of it for two readers that take turns |
| others | `n` – 127 weights, two in a byte, the first one in its upper half |

Code words are taken backward, down to the first bit.
-/
import ParamAtlas.Compression.StateCode

namespace ParamAtlas
namespace Compression

/-- What a pattern stands for: a byte, and how many bits its code word has. -/
structure CodePattern where
  value : UInt8
  width : Nat
  width_pos : 0 < width
  deriving DecidableEq, Repr

/-- Patterns by number, of so many bits. -/
structure WeightCode where
  width : Nat
  patterns : Array CodePattern
  deriving DecidableEq, Repr

namespace WeightCode

/-- The most bits in a code word. -/
def greatestWidth : Nat := 11

/-- The most weights that can be told. -/
def mostWeights : Nat := 255

/-- The patterns that a weight counts for. -/
def share (weight : Nat) : Nat := if weight = 0 then 0 else 1 <<< (weight - 1)

/-- The patterns of a code of this width, given the weights of all symbols. -/
def patternsOf (width : Nat) (weights : List Nat) : List CodePattern :=
  (List.finRange width).flatMap fun less =>
    (weights.zipIdx.filter (·.1 = less.val + 1)).flatMap fun (_, symbol) =>
      List.replicate (1 <<< less.val) ⟨symbol.toUInt8, width - less, Nat.sub_pos_of_lt less.isLt⟩

/-- The code that these weights tell, if they leave a power of two to the last
symbol. -/
def ofWeights? (weights : List Nat) : Option WeightCode :=
  let told := (weights.map share).foldr (· + ·) 0
  let width := told.log2 + 1
  let left := 1 <<< width - told
  if told = 0 ∨ greatestWidth < width ∨ 1 <<< left.log2 ≠ left then none
  else some ⟨width, (patternsOf width (weights ++ [left.log2 + 1])).toArray⟩

/-- Lets two readers take turns until the bits end: the first one tells the symbol
of its state and goes on.  When it cannot, the other tells a last one. -/
def takeTurns (c : StateCode) (b : Bytes) : (room : Nat) → (s other : State) → (top : Nat) →
    (seen : Array Nat) → Option (Array Nat)
  | 0, _, _, _, _ => none
  | room + 1, s, other, top, seen =>
    let seen := seen.push s.symbol
    match c.next? s b top with
    | none => some (seen.push other.symbol)
    | some (s, rest) => takeTurns c b room other s rest seen

/-- The weights that a state code and its symbols tell, from byte `start` up to
`stop`. -/
def coded? (b : Bytes) (start stop : Nat) : Option (List Nat) := do
  let (c, next) ← StateCode.read? 6 (b.extract 0 stop) start
  let stream : Bytes := b.extract next stop
  let (s, top) ← c.first? stream (← markOf? stream)
  let (other, top) ← c.first? stream top
  return (← takeTurns c stream (mostWeights - 1) s other top #[]).toList

/-- The weights that halves of bytes from `start` on tell. -/
def plain (b : Bytes) (start count : Nat) : List Nat :=
  (List.range count).map fun i =>
    let v := b.at0 (start + i / 2)
    if i % 2 = 0 then v / 16 else v % 16

/-- Reads a code from a byte on: the code, and the byte behind it. -/
def read? (b : Bytes) (start : Nat) : Option (WeightCode × Nat) := do
  let n ← b.number? .little start 1
  let stop := start + 1 + if n < 128 then n else (n - 127 + 1) / 2
  if b.size < stop then none
  let weights ← if n < 128 then coded? b (start + 1) stop else some (plain b (start + 1) (n - 127))
  return (← ofWeights? weights, stop)

variable (c : WeightCode)

/-- Appends the bytes whose code words are below a position, down to the first
bit. -/
def lettersBelow? (b : Bytes) (top : Nat) (out : Bytes) : Option Bytes :=
  if top = 0 then some out
  else
    match c.patterns[bitsBelow b top c.width]? with
    | none => none
    | some p => if p.width ≤ top then lettersBelow? b (top - p.width) (out.push p.value) else none
termination_by top
decreasing_by
  have := p.width_pos
  omega

/-- The bytes whose code words are in the data. -/
def letters? (b : Bytes) : Option Bytes := do c.lettersBelow? b (← markOf? b) #[]

end WeightCode
end Compression
end ParamAtlas
