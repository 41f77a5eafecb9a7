/-
# Bytes and numbers in them

| order | the number of `b₀ b₁ … bₙ₋₁` |
| --- | --- |
| `little` | `b₀ + 256 b₁ + … + 256ⁿ⁻¹ bₙ₋₁` |
| `big` | `bₙ₋₁ + 256 bₙ₋₂ + … + 256ⁿ⁻¹ b₀` |
-/

namespace ParamAtlas

/-- A run of bytes, each with its position. -/
abbrev Bytes := Array UInt8

/-- Which end of a number comes first. -/
inductive ByteOrder where
  | little
  | big
  deriving DecidableEq, Repr, Inhabited

namespace Bytes

/-- The byte at a position, zero past the end. -/
def at0 (b : Bytes) (i : Nat) : Nat := (b.getD i 0).toNat

/-- The number of `width` bytes from `pos` on, least significant byte first. -/
def little (b : Bytes) (pos : Nat) : (width : Nat) → Nat
  | 0 => 0
  | w + 1 => b.at0 pos + 256 * b.little (pos + 1) w

/-- The number of `width` bytes from `pos` on, most significant byte first. -/
def big (b : Bytes) (pos : Nat) : (width : Nat) → Nat
  | 0 => 0
  | w + 1 => 256 * b.big pos w + b.at0 (pos + w)

/-- The number of `width` bytes from `pos` on. -/
def number (b : Bytes) (order : ByteOrder) (pos width : Nat) : Nat :=
  match order with
  | .little => b.little pos width
  | .big => b.big pos width

/-- The number of `width` bytes from `pos` on, if there are that many. -/
def number? (b : Bytes) (order : ByteOrder) (pos width : Nat) : Option Nat :=
  if pos + width ≤ b.size then some (b.number order pos width) else none

/-- The `count` bytes from `pos` on, if there are that many. -/
def slice? (b : Bytes) (pos count : Nat) : Option Bytes :=
  if pos + count ≤ b.size then some (b.extract pos (pos + count)) else none

/-- The position of the first zero byte from `pos` on. -/
def findZero? (b : Bytes) (pos : Nat) : Option Nat :=
  if h : pos < b.size then
    if b[pos] = 0 then some pos else b.findZero? (pos + 1)
  else none
termination_by b.size - pos

/-- A zero byte that is found is in the bytes, and not before where one looks. -/
theorem findZero?_bounds (b : Bytes) (pos i : Nat) (h : b.findZero? pos = some i) :
    pos ≤ i ∧ i < b.size := by
  fun_induction findZero? b pos with
  | case1 => simp only [Option.some.injEq] at h; omega
  | case2 _ _ _ ih => have := ih h; omega
  | case3 => simp at h

/-- The bytes from `pos` up to the next zero byte, if there is one. -/
def zeroEnded? (b : Bytes) (pos : Nat) : Option Bytes :=
  (b.findZero? pos).map fun i => b.extract pos i

/-- The bytes of a field of `size` bytes up to its first zero byte, or all of
them. -/
def field (b : Bytes) (pos size : Nat) : Bytes :=
  let whole : Bytes := b.extract pos (pos + size)
  whole.extract 0 ((findZero? whole 0).getD whole.size)

/-- Whether these bytes stand at `pos`. -/
def hasAt (b : Bytes) (pos : Nat) (expected : List Nat) : Bool :=
  pos + expected.length ≤ b.size &&
    (expected.zipIdx pos).all fun (v, i) => b.at0 i == v

/-- The bytes of a text. -/
def ofText (s : String) : Bytes := s.toUTF8.data

end Bytes
end ParamAtlas
