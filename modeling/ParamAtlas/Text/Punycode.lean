/-
# Punycode

Text written in ASCII alone: its ASCII characters in order, and for every other
character one number that says where it goes and which it is.  The numbers are
read in ascending order of characters.  Each counts the steps from the last
insertion, a step being a place in the text so far or, past the end, the next
character at the first place.

A number is written in digits `a`–`z`, `0`–`9` for 0 to 35, low ones first.
Digit `k` (from 1) ends the number if it is below the threshold
`max 1 (min 26 (36 k - bias))`; the bias follows the size of the last number.
-/

namespace ParamAtlas
namespace Text
namespace Punycode

/-- The value of a digit. -/
def digit? (c : Char) : Option Nat :=
  if c.isLower then some (c.toNat - 'a'.toNat)
  else if c.isDigit then some (c.toNat - '0'.toNat + 26)
  else none

/-- The threshold below which a digit ends its number. -/
def threshold (k bias : Nat) : Nat := min 26 (max 1 (k - bias))

/-- A threshold lets a number end, and leaves digits that go on. -/
theorem threshold_bounds (k bias : Nat) : 1 ≤ threshold k bias ∧ threshold k bias ≤ 26 := by
  unfold threshold; omega

/-- Reads a number, with `weight` the weight of the next digit and `n` what the
digits before it make: the number and what follows it. -/
def number (bias : Nat) : List Char → (k weight n : Nat) → Option (Nat × List Char)
  | [], _, _, _ => none
  | c :: cs, k, weight, n => do
    let d ← digit? c
    if d < threshold k bias then some (n + d * weight, cs)
    else number bias cs (k + 36) (weight * (36 - threshold k bias)) (n + d * weight)

/-- A number takes a character at least. -/
theorem number_shortens (bias : Nat) (cs : List Char) (k w n m : Nat) (rest : List Char)
    (h : number bias cs k w n = some (m, rest)) : rest.length < cs.length := by
  induction cs generalizing k w n with
  | nil => simp [number] at h
  | cons c cs ih =>
    simp only [number, Option.bind_eq_bind, Option.bind_eq_some_iff] at h
    obtain ⟨d, -, h⟩ := h
    split at h
    · cases h; simp
    · exact Nat.lt_succ_of_lt (ih _ _ _ h)

/-- Divides by 35 until at most 455 is left, adding 36 to `k` each time. -/
def shrink (delta k : Nat) : Nat × Nat :=
  if 455 < delta then shrink (delta / 35) (k + 36) else (delta, k)
termination_by delta
decreasing_by exact Nat.div_lt_self (by omega) (by omega)

/-- The bias after the number `delta`, with `size` characters in the text; the
first number counts for less. -/
def biasAfter (delta size : Nat) (isFirst : Bool) : Nat :=
  let damped := delta / (if isFirst then 700 else 2)
  let (left, k) := shrink (damped + damped / size) 0
  k + 36 * left / (left + 38)

/-- Inserts a character for each number into `out`, which is to stay within
`limit` characters.  The last insertion was of character `n`, before place `i`. -/
def insertAll (limit bias n i : Nat) (isFirst : Bool) (out : List Char) (digits : List Char) :
    Option (List Char) :=
  match digits with
  | [] => some out
  | c :: cs =>
    match _h : number bias (c :: cs) 36 1 0 with
    | none => none
    | some (delta, rest) =>
      let size := out.length + 1
      let n := n + (i + delta) / size
      let i := (i + delta) % size
      if out.length < limit ∧ n.isValidChar then
        insertAll limit (biasAfter delta size isFirst) n (i + 1) false
          (out.insertIdx i (Char.ofNat n)) rest
      else none
termination_by digits.length
decreasing_by exact number_shortens _ _ _ _ _ _ _ _h

/-- The text of at most `limit` characters with these ASCII characters and these
numbers for the others. -/
def decode? (limit : Nat) (ascii digits : List Char) : Option (List Char) :=
  if ascii.length ≤ limit then insertAll limit 72 0x80 0 true ascii digits else none

example : decode? 128 "gdel".toList "5qa".toList = some "gödel".toList := by decide +kernel

end Punycode
end Text
end ParamAtlas
