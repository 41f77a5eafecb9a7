/-
# Sequences

A block is made of literals and of repetitions of what came before.  A sequence
says how many literals come next, and then how much is repeated from how far
before.  It is told by a symbol of each of three codes, which stand for spans:

| code | spans | greatest width | symbols |
| --- | --- | ---: | ---: |
| literals | from 0 on | 9 | 36 |
| distance | 2ⁿ with n bits for symbol n | 8 | 32 |
| length | from 3 on | 9 | 53 |

A code is the one of the format, one state of which the symbol is given, read, or
the one that the last block used.

Values of distances up to 3 mean one of the last three distances; others are three
greater than what they mean.  Where no literals precede, a value up to 3 means one
that is further back, and 3 means one byte less than the last distance.
-/
import ParamAtlas.Compression.StateCode

namespace ParamAtlas
namespace Compression

/-! ## Codes -/

/-- What a symbol of a sequence can stand for, and how its code may be told. -/
structure SequenceField where
  spans : List Span
  greatestWidth : Nat
  /-- The code of the format. -/
  usual : StateCode

namespace SequenceField

/-- So many symbols with the same share. -/
def run (count n : Nat) : List Share := List.replicate count (.states n)

/-- So many rare symbols. -/
def rare (count : Nat) : List Share := List.replicate count .rare

/-- How many literals come first. -/
def literals : SequenceField where
  spans := Span.chain 0
    (List.replicate 16 0 ++ [1, 1, 1, 1, 2, 2, 3, 3, 4, 6, 7, 8, 9, 10, 11, 12, 13, 14, 15, 16])
  greatestWidth := 9
  usual := .ofShares 6 (run 1 4 ++ run 1 3 ++ run 11 2 ++ run 3 1 ++ run 9 2 ++ run 1 3 ++
    run 1 2 ++ run 5 1 ++ rare 4)

/-- From how far before something is repeated. -/
def distance : SequenceField where
  spans := (List.range 32).map fun n => ⟨1 <<< n, n⟩
  greatestWidth := 8
  usual := .ofShares 5 (run 6 1 ++ run 3 2 ++ run 15 1 ++ rare 5)

/-- How much is repeated. -/
def length : SequenceField where
  spans := Span.chain 3 (List.replicate 32 0 ++
    [1, 1, 1, 1, 2, 2, 3, 3, 4, 4, 5, 7, 8, 9, 10, 11, 12, 13, 14, 15, 16])
  greatestWidth := 9
  usual := .ofShares 6 (run 1 1 ++ run 1 4 ++ run 1 3 ++ run 6 2 ++ run 37 1 ++ rare 7)

variable (f : SequenceField)

/-- The code that a block uses, told from a byte on, and the byte behind it. -/
def code? (mode : Nat) (last : Option StateCode) (b : Bytes) (start : Nat) :
    Option (StateCode × Nat) :=
  match mode with
  | 0 => some (f.usual, start)
  | 1 => do
    let symbol ← b.number? .little start 1
    some (.single symbol, start + 1)
  | 2 => StateCode.read? f.greatestWidth b start
  | _ => last.map (·, start)

/-- The value that a state and the bits below a position tell. -/
def value? (s : State) (b : Bytes) (top : Nat) : Option (Nat × Nat) := do
  (← f.spans[s.symbol]?).takeBelow? b top

end SequenceField

/-- Something for each of the three fields of a sequence. -/
structure PerField (α : Type) where
  literals : α
  distance : α
  length : α

/-- The codes that a block uses, told from a byte on, and the byte behind them.
The modes of the codes are in a byte, the first in its highest bits. -/
def codes? (modes : Nat) (last : PerField (Option StateCode)) (b : Bytes) (start : Nat) :
    Option (PerField StateCode × Nat) := do
  let (literals, next) ← SequenceField.literals.code? (modes / 64) last.literals b start
  let (distance, next) ← SequenceField.distance.code? (modes / 16 % 4) last.distance b next
  let (length, next) ← SequenceField.length.code? (modes / 4 % 4) last.length b next
  some (⟨literals, distance, length⟩, next)

/-! ## Telling sequences -/

/-- So many literals, and a repetition. -/
structure Sequence where
  literals : Nat
  distanceValue : Nat
  length : Nat
  deriving DecidableEq, Repr, Inhabited

/-- The sequence that three states and the bits below a position tell, and the
position below them. -/
def Sequence.take? (s : PerField State) (b : Bytes) (top : Nat) : Option (Sequence × Nat) := do
  let (distanceValue, top) ← SequenceField.distance.value? s.distance b top
  let (length, top) ← SequenceField.length.value? s.length b top
  let (literals, top) ← SequenceField.literals.value? s.literals b top
  some (⟨literals, distanceValue, length⟩, top)

namespace PerField

variable (c : PerField StateCode)

/-- The states that the bits below a position tell. -/
def first? (b : Bytes) (top : Nat) : Option (PerField State × Nat) := do
  let (literals, top) ← c.literals.first? b top
  let (distance, top) ← c.distance.first? b top
  let (length, top) ← c.length.first? b top
  some (⟨literals, distance, length⟩, top)

/-- The states that one goes to by the bits below a position. -/
def next? (s : PerField State) (b : Bytes) (top : Nat) : Option (PerField State × Nat) := do
  let (literals, top) ← c.literals.next? s.literals b top
  let (length, top) ← c.length.next? s.length b top
  let (distance, top) ← c.distance.next? s.distance b top
  some (⟨literals, distance, length⟩, top)

/-- One sequence and so many more.  They take all bits down to the first one. -/
def sequencesFrom? (b : Bytes) : (more : Nat) → (s : PerField State) → (top : Nat) →
    Option (List Sequence)
  | 0, s, top => do
    let (q, rest) ← Sequence.take? s b top
    if rest = 0 then some [q] else none
  | more + 1, s, top => do
    let (q, rest) ← Sequence.take? s b top
    let (s, rest) ← c.next? s b rest
    return q :: (← sequencesFrom? b more s rest)

/-- One sequence and so many more, told by all of the data. -/
def sequences? (b : Bytes) (more : Nat) : Option (List Sequence) := do
  let (s, top) ← c.first? b (← markOf? b)
  c.sequencesFrom? b more s top

end PerField

/-! ## Following sequences -/

/-- The last three distances, the latest first. -/
structure Recent where
  latest : Nat
  second : Nat
  third : Nat
  deriving DecidableEq, Repr, Inhabited

namespace Recent

/-- The distances that count as the last ones at first. -/
def initial : Recent := ⟨1, 4, 8⟩

/-- The last distances with another one, which is new. -/
def add (r : Recent) (distance : Nat) : Recent := ⟨distance, r.latest, r.second⟩

/-- The last distances once the distance of a sequence, which is the latest then,
is known. -/
def follow (r : Recent) (q : Sequence) : Recent :=
  if 3 < q.distanceValue then r.add (q.distanceValue - 3)
  else
    match q.distanceValue + if q.literals = 0 then 1 else 0 with
    | 0 | 1 => r
    | 2 => ⟨r.second, r.latest, r.third⟩
    | 3 => r.add r.third
    | _ => r.add (r.latest - 1)

end Recent

/-- Follows sequences, the literals being those from `next` on: the output, to which
the literals that are left are appended, and the last distances. -/
def followAll? (literals : Bytes) : List Sequence → (next : Nat) → Recent → (out : Bytes) →
    Option (Bytes × Recent)
  | [], next, r, out => some (out ++ literals.extract next literals.size, r)
  | q :: rest, next, r, out =>
    let stop := next + q.literals
    let out : Bytes := out ++ literals.extract next stop
    let r := r.follow q
    if literals.size < stop ∨ r.latest = 0 ∨ out.size < r.latest then none
    else followAll? literals rest stop r (repeatBack out r.latest q.length)

end Compression
end ParamAtlas
