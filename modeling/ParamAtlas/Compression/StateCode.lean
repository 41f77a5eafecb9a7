/-
# State codes

A code of this kind has states, each of which stands for a symbol.  From a state
one goes to another by as many bits, taken backward, as the state says.  Symbols
have shares of the states:

| share | states |
| --- | --- |
| a number | so many, spread over the states that are not rare |
| rare | one, behind all others; the first rare symbol has the last state |

With 2ʷ states in all, the one at place `(2ʷ / 2 + 2ʷ / 8 + 3) i` modulo 2ʷ is
the `i`-th in the order in which numbers of states are given out; rare states are
passed over.  The states of a symbol with `n` of them count on from `n`.  State
`m` of the symbol takes the bits that are missing from `m` to 2ʷ, and goes on
from there.

Shares are told forward.  A number is told by the fewest bits that tell 0 up to
one more than what is left to share, and lesser ones by one bit fewer: 0 means
rare, `n + 1` means `n` states.  Behind a share of no states two bits say how many
more such there are, and go on if it is three.
-/
import ParamAtlas.Compression.Basic

namespace ParamAtlas
namespace Compression

/-- What a symbol has of the states. -/
inductive Share where
  | rare
  | states (n : Nat)
  deriving DecidableEq, Repr, Inhabited

namespace Share

/-- How many states a share is. -/
def size : Share → Nat
  | rare => 1
  | states n => n

/-- The share that a number tells. -/
def ofNumber : Nat → Share
  | 0 => rare
  | n + 1 => states n

/-- The share told at a position, so many states being left, and the position
behind it. -/
def read? (b : Bytes) (pos left : Nat) : Option (Share × Nat) :=
  let width := (left + 1).log2
  let lesser := 1 <<< (width + 1) - (left + 2)
  match bits? b pos (width + 1) with
  | none => none
  | some v =>
    let low := v % 1 <<< width
    if low < lesser then some (ofNumber low, pos + width)
    else some (ofNumber (if low < v then v - lesser else v), pos + (width + 1))

/-- A share of what is left has at least one bit. -/
theorem read?_bounds {b : Bytes} {pos left next : Nat} {s : Share} (hleft : left ≠ 0)
    (h : read? b pos left = some (s, next)) : pos < next ∧ next ≤ 8 * b.size := by
  have hwidth : 0 < (left + 1).log2 := (Nat.le_log2 (Nat.succ_ne_zero left)).2 (by omega)
  simp only [read?] at h
  split at h
  · cases h
  · rename_i v hv
    have hle := le_of_bits? (Nat.succ_pos _) hv
    split at h <;> cases h <;> omega

/-- How many shares of no states two bits at a time announce, and the position
behind them. -/
def zeros? (b : Bytes) (pos seen : Nat) : Option (Nat × Nat) :=
  match _h : bits? b pos 2 with
  | none => none
  | some n => if n = 3 then zeros? b (pos + 2) (seen + 3) else some (seen + n, pos + 2)
termination_by 8 * b.size - pos
decreasing_by
  have := le_of_bits? Nat.two_pos _h
  omega

/-- Announcing shares of no states takes bits. -/
theorem zeros?_bounds {b : Bytes} {pos seen n next : Nat} (h : zeros? b pos seen = some (n, next)) :
    pos < next := by
  fun_induction zeros? b pos seen with
  | case1 => cases h
  | case2 pos seen _ ih =>
    have := ih h
    omega
  | case3 pos seen n _ =>
    cases h
    omega

/-- The most symbols that can have a share. -/
def mostSymbols : Nat := 256

/-- The shares told from a position on until none is left, and the position behind
them. -/
def readAll? (b : Bytes) (pos left : Nat) (seen : Array Share) : Option (List Share × Nat) :=
  if _hleft : left = 0 then if seen.size ≤ mostSymbols then some (seen.toList, pos) else none
  else
    match _hs : read? b pos left with
    | none => none
    | some (.states 0, next) =>
      match _hz : zeros? b next 1 with
      | none => none
      | some (n, last) => readAll? b last left (seen ++ Array.replicate n (.states 0))
    | some (s, next) => readAll? b next (left - s.size) (seen.push s)
termination_by 8 * b.size - pos
decreasing_by
  · have := read?_bounds _hleft _hs
    have := zeros?_bounds _hz
    omega
  · have := read?_bounds _hleft _hs
    omega

end Share

/-- A state: its symbol, and the states that one can go to from it. -/
structure State where
  symbol : Nat
  next : Span
  deriving DecidableEq, Repr, Inhabited

/-- States by number, told by so many bits. -/
structure StateCode where
  width : Nat
  states : Array State
  deriving DecidableEq, Repr, Inhabited

namespace StateCode

/-- The numbers of states in the order in which they are given out: so many rare
ones come last. -/
def order (width rare : Nat) : List Nat :=
  let count := 1 <<< width
  let step := count / 2 + count / 8 + 3
  ((List.range count).map (· * step % count)).filter (· < count - rare) ++
    (List.range' (count - rare) rare).reverse

/-- The symbols that states are given out to, one after another. -/
def takers (shares : List Share) : List Nat :=
  let common := shares.zipIdx.flatMap fun (s, symbol) =>
    match s with
    | .rare => []
    | .states n => List.replicate n symbol
  common ++ (shares.zipIdx.filter (·.1 = .rare)).map (·.2)

/-- The symbol of each state. -/
def symbols (width : Nat) (shares : List Share) : Array Nat :=
  ((order width (shares.count .rare)).zip (takers shares)).foldl
    (fun given (i, symbol) => given.setIfInBounds i symbol) (Array.replicate (1 <<< width) 0)

/-- The states with these symbols; `counts` says from where the states of a symbol
count on. -/
def number (width : Nat) : (symbols : List Nat) → (counts : Array Nat) → List State
  | [], _ => []
  | symbol :: rest, counts =>
    let m := counts.getD symbol 0
    let extra := width - m.log2
    ⟨symbol, m <<< extra - 1 <<< width, extra⟩ ::
      number width rest (counts.setIfInBounds symbol (m + 1))

/-- The code in which symbols have these shares. -/
def ofShares (width : Nat) (shares : List Share) : StateCode where
  width := width
  states := (number width (symbols width shares).toList (shares.map Share.size).toArray).toArray

/-- The code of one state. -/
def single (symbol : Nat) : StateCode := ⟨0, #[⟨symbol, 0, 0⟩]⟩

/-- The least number of bits that tell a state in a code that is read. -/
def leastWidth : Nat := 5

/-- Reads a code that starts with a byte: the code, and the byte behind it. -/
def read? (greatestWidth : Nat) (b : Bytes) (start : Nat) : Option (StateCode × Nat) := do
  let width := leastWidth + (← bits? b (8 * start) 4)
  if greatestWidth < width then none
  let (shares, pos) ← Share.readAll? b (8 * start + 4) (1 <<< width) #[]
  some (ofShares width shares, (pos + 7) / 8)

variable (c : StateCode)

/-- The state told by the bits below a position, and the position below them. -/
def first? (b : Bytes) (top : Nat) : Option (State × Nat) :=
  (takeBelow? b top c.width).map fun (i, rest) => (c.states.getD i default, rest)

/-- The state that one goes to by the bits below a position, and the position
below them. -/
def next? (s : State) (b : Bytes) (top : Nat) : Option (State × Nat) :=
  (s.next.takeBelow? b top).map fun (i, rest) => (c.states.getD i default, rest)

end StateCode
end Compression
end ParamAtlas
