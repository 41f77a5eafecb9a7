/-
# Readers

A reader takes a value from bytes at a position and says where it stopped, or
names a fault.  It never moves back and never past the end (`forward`), so
whatever is put together from readers has both properties without further
proof, and reading over and over from where the last reading stopped ends.

| number | bytes |
| --- | --- |
| `number w` | `w` bytes in the byte order at hand |
| `unsigned` | groups of seven bits, low ones first, up to 64 bits |
| `unsigned16` | the same up to 16 bits, in at most three bytes |
| `signed` | the same in two's complement |
-/
import ParamAtlas.Bytes.Basic
import ParamAtlas.Dwarf.Fault

namespace ParamAtlas
namespace Dwarf

/-- A way to take a value from bytes, moving forward within them. -/
structure Reader (α : Type) where
  run : Bytes → Nat → Except Fault (α × Nat)
  forward : ∀ b p a q, run b p = .ok (a, q) → p ≤ q ∧ (p ≤ b.size → q ≤ b.size)

namespace Reader

variable {α β σ : Type}

/-- Takes nothing and gives a value. -/
def give (a : α) : Reader α where
  run _ p := .ok (a, p)
  forward _ _ _ _ h := by cases h; simp

/-- Always fails. -/
def fault (f : Fault) : Reader α where
  run _ _ := .error f
  forward _ _ _ _ h := by cases h

/-- One reader, then another that depends on what the first one gave. -/
def andThen (r : Reader α) (f : α → Reader β) : Reader β where
  run b p := match r.run b p with
    | .error e => .error e
    | .ok (a, q) => (f a).run b q
  forward b p c s h := by
    split at h
    · cases h
    · rename_i a q hr
      have h₁ := r.forward _ _ _ _ hr
      have h₂ := (f a).forward _ _ _ _ h
      exact ⟨Nat.le_trans h₁.1 h₂.1, fun hp => h₂.2 (h₁.2 hp)⟩

instance : Monad Reader where
  pure := give
  bind := andThen

/-- The value that a reader gives at a position, if none is faulty. -/
def value? (r : Reader α) (b : Bytes) (p : Nat) : Option α :=
  match r.run b p with
  | .ok (a, _) => some a
  | .error _ => none

/-- Repeats a step with a state until it gives a result.  A step that gives
none must have taken something. -/
def loopFrom (step : σ → Reader (σ ⊕ α)) (s : σ) (b : Bytes) (p : Nat) : Except Fault (α × Nat) :=
  match (step s).run b p with
  | .error e => .error e
  | .ok (.inr a, q) => .ok (a, q)
  | .ok (.inl s', q) => if p < q ∧ q ≤ b.size then loopFrom step s' b q else .error .endOfInput
termination_by b.size - p

theorem loopFrom_forward (step : σ → Reader (σ ⊕ α)) (s : σ) (b : Bytes) (p : Nat) (a : α) (q : Nat)
    (h : loopFrom step s b p = .ok (a, q)) : p ≤ q ∧ (p ≤ b.size → q ≤ b.size) := by
  fun_induction loopFrom step s b p with
  | case1 => cases h
  | case2 s p a' q' hr => cases h; exact (step s).forward _ _ _ _ hr
  | case3 s p s' q' hr hq ih => have := ih h; omega
  | case4 => cases h

/-- Repeats a step with a state until it gives a result. -/
def loop (step : σ → Reader (σ ⊕ α)) (s : σ) : Reader α where
  run := loopFrom step s
  forward b p a q := loopFrom_forward step s b p a q

/-- Reads items behind those already seen, until a reading gives none. -/
def itemsFrom (r : Reader (Option α)) (seen : Array α) : Reader (List α) :=
  loop (fun (seen : Array α) => do
    match ← r with
    | none => give (.inr seen.toList)
    | some a => give (.inl (seen.push a)))
    seen

/-- Reads items until a reading gives none. -/
def items (r : Reader (Option α)) : Reader (List α) := itemsFrom r #[]

/-- Reads one item after another, as many as said. -/
def times (r : Reader α) : Nat → Reader Unit
  | 0 => give ()
  | n + 1 => do
    let _ ← r
    times r n

/-- Takes `n` bytes. -/
def take (n : Nat) : Reader Bytes where
  run b p := if p + n ≤ b.size then .ok (b.extract p (p + n), p + n) else .error .endOfInput
  forward b p a q h := by
    split at h
    · cases h; omega
    · cases h

/-- Passes over `n` bytes. -/
def skip (n : Nat) : Reader Unit where
  run b p := if p + n ≤ b.size then .ok ((), p + n) else .error .endOfInput
  forward b p a q h := by
    split at h
    · cases h; omega
    · cases h

/-- Reads a number of `width` bytes. -/
def number (order : ByteOrder) (width : Nat) : Reader Nat where
  run b p := if p + width ≤ b.size then .ok (b.number order p width, p + width)
    else .error .endOfInput
  forward b p a q h := by
    split at h
    · cases h; omega
    · cases h

/-- Reads one byte. -/
def byte : Reader Nat := number .little 1

/-- Takes the bytes up to the next zero byte, and that byte as well. -/
def zeroEnded : Reader Bytes where
  run b p := match b.findZero? p with
    | some i => .ok (b.extract p i, i + 1)
    | none => .error .endOfInput
  forward b p a q h := by
    split at h
    · rename_i i hi
      have := b.findZero?_bounds _ _ hi
      cases h; omega
    · cases h

/-- Reads groups of seven bits, at most as many as said; the last of them may
only complete 64 bits. -/
def unsignedGroups : Nat → Reader Nat
  | 0 => fault .unsignedNumber
  | n + 1 => do
    let c ← byte
    if n = 0 ∧ 1 < c then fault .unsignedNumber
    else if c < 128 then give c
    else do
      let rest ← unsignedGroups n
      give (c % 128 + 128 * rest)

/-- Reads an unsigned number of up to 64 bits in groups of seven. -/
def unsigned : Reader Nat := unsignedGroups 10

/-- What a reader of two parts takes is at least what its first part takes. -/
theorem lt_of_andThen {r : Reader α} {f : α → Reader β}
    (hr : ∀ b p a q, r.run b p = .ok (a, q) → p < q) (b : Bytes) (p : Nat) (c : β) (q : Nat)
    (h : (r.andThen f).run b p = .ok (c, q)) : p < q := by
  simp only [andThen] at h
  split at h
  · cases h
  · rename_i a m hm
    have := hr _ _ _ _ hm; have := ((f a).forward _ _ _ _ h).1
    omega

/-- A byte is taken from somewhere. -/
theorem byte_lt (b : Bytes) (p a q : Nat) (h : byte.run b p = .ok (a, q)) : p < q := by
  simp only [byte, number] at h
  split at h
  · cases h; omega
  · cases h

/-- An unsigned number takes at least one byte. -/
theorem unsigned_lt (b : Bytes) (p a q : Nat) (h : unsigned.run b p = .ok (a, q)) : p < q :=
  lt_of_andThen byte_lt b p a q h

/-- Reads an unsigned number of up to 16 bits in groups of seven. -/
def unsigned16 : Reader Nat := do
  let a ← byte
  if a < 128 then give a
  else do
    let b ← byte
    if b < 128 then give (a % 128 + 128 * b)
    else do
      let c ← byte
      if 3 < c then fault .unsignedNumber else give (a % 128 + 128 * (b % 128) + 16384 * c)

/-- Reads groups of seven bits in two's complement, at most as many as said;
the last of them may only repeat the sign. -/
def signedGroups : Nat → Reader Int
  | 0 => fault .signedNumber
  | n + 1 => do
    let c ← byte
    if n = 0 ∧ c ≠ 0 ∧ c ≠ 127 then fault .signedNumber
    else if c < 64 then give (c : Int)
    else if c < 128 then give ((c : Int) - 128)
    else do
      let rest ← signedGroups n
      give ((c : Int) - 128 + 128 * rest)

/-- Reads a signed number of up to 64 bits in groups of seven. -/
def signed : Reader Int := signedGroups 10

end Reader
end Dwarf
end ParamAtlas
