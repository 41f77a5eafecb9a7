/-
# Bits, spans and repetition

What the formats of compressed data share.  Bits are taken from bytes in one of
two directions:

| | the next bit | a number has |
| --- | --- | --- |
| forward | the lowest that is left of the first byte left | its low bit first |
| backward | the highest that is left of the last byte left | its high bit first |

Data to be taken backward ends in a mark: the highest bit that is set in its
last byte.

A code may stand for a span of numbers, told apart by further bits.  And output
may be repeated from so many bytes before.
-/
import ParamAtlas.Bytes.Basic

namespace ParamAtlas
namespace Compression

/-! ## Bits -/

/-- The bit at a position, if there is one. -/
def bit? (b : Bytes) (pos : Nat) : Option Nat :=
  (b[pos / 8]?).map fun v => v.toNat >>> (pos % 8) % 2

/-- A bit that can be read is in the bytes. -/
theorem lt_of_bit? {b : Bytes} {pos v : Nat} (h : bit? b pos = some v) : pos < 8 * b.size := by
  rw [bit?, Option.map_eq_some_iff] at h
  obtain ⟨_, h, -⟩ := h
  have := (Array.getElem?_eq_some_iff.1 h).1
  omega

/-- The number of `count` bits from `pos` on, the low bit first, if there are
that many. -/
def bits? (b : Bytes) (pos : Nat) : (count : Nat) → Option Nat
  | 0 => some 0
  | n + 1 => do
    let low ← bit? b pos
    let rest ← bits? b (pos + 1) n
    some (low + 2 * rest)

/-- Bits that can be taken are there. -/
theorem le_of_bits? {b : Bytes} {pos count v : Nat} (hcount : 0 < count)
    (h : bits? b pos count = some v) : pos + count ≤ 8 * b.size := by
  induction count generalizing pos v with
  | zero => omega
  | succ n ih =>
    simp only [bits?, Option.bind_eq_bind, Option.bind_eq_some_iff] at h
    obtain ⟨_, hlow, _, hrest, -⟩ := h
    rcases Nat.eq_zero_or_pos n with rfl | hn
    · exact lt_of_bit? hlow
    · have := ih hn hrest
      omega

/-- The number of `count` bits below `top`, the high bit first, with zeros below
the first bit. -/
def bitsBelow (b : Bytes) : (top count : Nat) → Nat
  | _, 0 => 0
  | 0, _ + 1 => 0
  | top + 1, n + 1 => (bit? b top).getD 0 <<< n + bitsBelow b top n

/-- Takes bits backward: their number, and the position below which the next
ones are. -/
def takeBelow? (b : Bytes) (top count : Nat) : Option (Nat × Nat) :=
  if count ≤ top then some (bitsBelow b top count, top - count) else none

/-- The position of the mark in data to be taken backward. -/
def markOf? (b : Bytes) : Option Nat :=
  match b.back? with
  | none => none
  | some v => if v = 0 then none else some (8 * (b.size - 1) + v.toNat.log2)

/-! ## Spans -/

/-- Numbers that start at `base`, told apart by `extra` bits. -/
structure Span where
  base : Nat
  extra : Nat
  deriving DecidableEq, Repr, Inhabited

namespace Span

/-- Spans one after another, given their bits. -/
def chain (base : Nat) : List Nat → List Span
  | [] => []
  | extra :: rest => ⟨base, extra⟩ :: chain (base + 1 <<< extra) rest

/-- Each number `k` below `n` so many times. -/
def stairs (n times : Nat) : List Nat := (List.range n).flatMap (List.replicate times)

/-- The number that a span and the bits below a position give, and the position
below these. -/
def takeBelow? (s : Span) (b : Bytes) (top : Nat) : Option (Nat × Nat) :=
  (Compression.takeBelow? b top s.extra).map fun (v, rest) => (s.base + v, rest)

end Span

/-! ## Repetition -/

/-- Appends `n` bytes, each a copy of the one `distance` before it. -/
def repeatBack (out : Bytes) (distance : Nat) : (n : Nat) → Bytes
  | 0 => out
  | n + 1 => repeatBack (out.push (out.getD (out.size - distance) 0)) distance n

end Compression
end ParamAtlas
