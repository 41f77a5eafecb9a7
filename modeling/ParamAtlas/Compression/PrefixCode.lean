/-
# Prefix codes

A canonical prefix code is given by the length of every symbol's code word, 0 for
none:

* shorter code words come first, and of equally long ones the one of the lesser
  symbol;
* read as a number, each code word is the one before it plus one, with zeros
  appended up to its own length.

A code word has at most 15 bits, taken forward.  Bits mean nothing as soon as all
code words that they could start are passed.
-/
import ParamAtlas.Compression.Basic

namespace ParamAtlas
namespace Compression

/-- What reading a code word gives: a symbol and the position after it, no
symbol because the bits end, or none because the bits mean nothing. -/
inductive CodeWord where
  | symbol (s next : Nat)
  | cut
  | meaningless
  deriving DecidableEq, Repr, Inhabited

/-- A canonical prefix code: how many code words there are of each length from
1 on, and the symbols in order of their code words. -/
structure PrefixCode where
  counts : List Nat
  symbols : Array Nat
  deriving Repr, Inhabited

namespace PrefixCode

/-- The most bits in a code word. -/
def maxLength : Nat := 15

/-- The lengths that a code word may have. -/
def wordLengths : List Nat := List.range' 1 maxLength

/-- The code in which each symbol's code word has the given length. -/
def ofLengths (lengths : List Nat) : PrefixCode where
  counts := wordLengths.map fun l => lengths.count l
  symbols := (wordLengths.flatMap fun l =>
    (lengths.zipIdx.filter (·.1 = l)).map (·.2)).toArray

/-- Of the bit patterns of the greatest length, how many have a meaning. -/
def covered : List Nat → Nat
  | [] => 0
  | n :: rest => n <<< rest.length + covered rest

/-- Whether every bit pattern has exactly one meaning. -/
def isComplete (c : PrefixCode) : Bool := covered c.counts = 1 <<< maxLength

/-- Whether every bit pattern has exactly one meaning, or there is no symbol, or
there is one whose code word is one bit. -/
def isSound (c : PrefixCode) : Bool :=
  c.isComplete || c.symbols.isEmpty || (c.symbols.size = 1 && c.counts.head? = some 1)

/-- Follows the bits from `pos` on through the lengths left: `word` is the
number read so far, `first` the first code word of the next length without its
last bit, `index` the number of shorter code words. -/
def follow (symbols : Array Nat) (b : Bytes) : (counts : List Nat) →
    (pos word first index : Nat) → CodeWord
  | [], _, _, _, _ => .meaningless
  | n :: rest, pos, word, first, index =>
    match bit? b pos with
    | none => .cut
    | some v =>
      let word := 2 * word + v
      if word < 2 * first + n then
        match symbols[index + (word - 2 * first)]? with
        | some s => .symbol s (pos + 1)
        | none => .meaningless
      else if index + n < symbols.size then
        follow symbols b rest (pos + 1) word (2 * first + n) (index + n)
      else .meaningless

/-- The symbol whose code word stands at a position. -/
def read (c : PrefixCode) (b : Bytes) (pos : Nat) : CodeWord :=
  follow c.symbols b c.counts pos 0 0 0

/-- A code word takes bits that are there. -/
theorem follow_bounds (symbols : Array Nat) (b : Bytes) (counts : List Nat)
    (pos word first index s next : Nat)
    (h : follow symbols b counts pos word first index = .symbol s next) :
    pos < next ∧ next ≤ 8 * b.size := by
  fun_induction follow symbols b counts pos word first index with
  | case1 => cases h
  | case2 => cases h
  | case3 n rest pos word first index v hv word' hw s' hs =>
    cases h
    have := lt_of_bit? hv
    omega
  | case4 => cases h
  | case5 n rest pos word first index v hv word' hw hn ih => have := ih h; omega
  | case6 => cases h

/-- A code word has at least one bit. -/
theorem read_bounds (c : PrefixCode) (b : Bytes) (pos s next : Nat)
    (h : c.read b pos = .symbol s next) : pos < next ∧ next ≤ 8 * b.size :=
  follow_bounds _ _ _ _ _ _ _ _ _ h

end PrefixCode
end Compression
end ParamAtlas
