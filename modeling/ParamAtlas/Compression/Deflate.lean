/-
# Deflate

`uncompressed_data`, for sections compressed in this way.

Data is a run of blocks, the last of them marked.  A block starts with a mark
bit and two bits for its kind:

| kind | what follows |
| ---: | --- |
| 0 | at the next byte: length, its complement (16 bits each), that many bytes |
| 1 | symbols of the fixed codes |
| 2 | the code lengths of two codes, then symbols of these |

A symbol below 256 is a byte, 256 ends the block, and a greater one repeats
what came before: it gives a length, and the symbol of the other code behind it
a distance.

The room for what comes out is limited.  Data that ends too early, or that
gives more than there is room for, is merely short; its output up to there
counts.  Data that means nothing is faulty.
-/
import ParamAtlas.Compression.PrefixCode

namespace ParamAtlas
namespace Compression

/-- Why decoding stops before the end of the data. -/
inductive Stop where
  | faulty
  | short
  deriving DecidableEq, Repr, Inhabited

namespace Span

/-- The lengths that the symbols from 257 on give. -/
def lengths : Array Span :=
  (chain 3 (List.replicate 4 0 ++ stairs 6 4)).toArray.push ⟨258, 0⟩

/-- The distances that the symbols of the other code give. -/
def distances : Array Span := (chain 1 (List.replicate 2 0 ++ stairs 14 2)).toArray

/-- The number that a span and the bits at a position give, and the position
after them. -/
def read (s : Span) (b : Bytes) (pos : Nat) : Except Stop (Nat × Nat) :=
  match bits? b pos s.extra with
  | none => .error .short
  | some v => .ok (s.base + v, pos + s.extra)

/-- Extra bits do not go back. -/
theorem read_bounds (s : Span) (b : Bytes) (pos n next : Nat) (h : s.read b pos = .ok (n, next)) :
    pos ≤ next := by
  unfold read at h
  split at h
  · cases h
  · cases h; omega

end Span

/-- The number `count` of bits at a position, and the position after them. -/
def bits (b : Bytes) (pos count : Nat) : Except Stop (Nat × Nat) := (Span.mk 0 count).read b pos

/-- The two codes of a block. -/
structure BlockCodes where
  literals : PrefixCode
  distances : PrefixCode

/-- The codes of blocks that bring none of their own. -/
def BlockCodes.fixed : BlockCodes where
  literals := .ofLengths (List.replicate 144 8 ++ List.replicate 112 9 ++ List.replicate 24 7 ++
    List.replicate 8 8)
  distances := .ofLengths (List.replicate 30 5)

/-- The distance that stands at a position. -/
def BlockCodes.distance (c : BlockCodes) (b : Bytes) (pos : Nat) : Except Stop (Nat × Nat) :=
  match c.distances.read b pos with
  | .cut => .error .short
  | .meaningless => .error .faulty
  | .symbol s next =>
    match Span.distances[s]? with
    | none => .error .faulty
    | some span => span.read b next

/-- What a symbol stands for. -/
inductive Letter where
  | literal (v : UInt8)
  | blockEnd
  | repetition (length : Span)
  deriving DecidableEq, Repr, Inhabited

/-- The letter of a symbol. -/
def Letter.ofSymbol? (s : Nat) : Option Letter :=
  if s < 256 then some (.literal s.toUInt8)
  else if s = 256 then some .blockEnd
  else (Span.lengths[s - 257]?).map .repetition

/-- The letter that stands at a position. -/
def BlockCodes.letter (c : BlockCodes) (b : Bytes) (pos : Nat) : Except Stop (Letter × Nat) :=
  match c.literals.read b pos with
  | .cut => .error .short
  | .meaningless => .error .faulty
  | .symbol s next =>
    match Letter.ofSymbol? s with
    | none => .error .faulty
    | some l => .ok (l, next)

/-- A length and the distance behind it. -/
def BlockCodes.repetition (c : BlockCodes) (b : Bytes) (span : Span) (pos : Nat) :
    Except Stop ((Nat × Nat) × Nat) :=
  match span.read b pos with
  | .error e => .error e
  | .ok (length, next) =>
    match c.distance b next with
    | .error e => .error e
    | .ok (distance, last) => .ok ((length, distance), last)

/-- A letter takes bits that are there; -/
theorem BlockCodes.letter_bounds (c : BlockCodes) (b : Bytes) (pos next : Nat) (l : Letter)
    (h : c.letter b pos = .ok (l, next)) : pos < next ∧ next ≤ 8 * b.size := by
  unfold letter at h
  split at h
  · cases h
  · cases h
  · rename_i hs
    split at h
    · cases h
    · cases h; exact c.literals.read_bounds _ _ _ _ hs

/-- a distance does not go back, -/
theorem BlockCodes.distance_bounds (c : BlockCodes) (b : Bytes) (pos n next : Nat)
    (h : c.distance b pos = .ok (n, next)) : pos ≤ next := by
  unfold distance at h
  split at h
  · cases h
  · cases h
  · rename_i s q hq
    split at h
    · cases h
    · have := (c.distances.read_bounds _ _ _ _ hq).1; have := Span.read_bounds _ _ _ _ _ h
      omega

/-- and neither does a repetition. -/
theorem BlockCodes.repetition_bounds (c : BlockCodes) (b : Bytes) (span : Span) (pos next : Nat)
    (r : Nat × Nat) (h : c.repetition b span pos = .ok (r, next)) : pos ≤ next := by
  unfold repetition at h
  split at h
  · cases h
  · rename_i hl
    split at h
    · cases h
    · rename_i hd
      cases h
      have := Span.read_bounds _ _ _ _ _ hl; have := c.distance_bounds _ _ _ _ hd
      omega

/-- Decodes letters up to the end of a block: the output, and the position after
the block or why there is none. -/
def BlockCodes.inflate (c : BlockCodes) (room : Nat) (b : Bytes) (pos : Nat) (out : Bytes) :
    Bytes × Except Stop Nat :=
  match _hl : c.letter b pos with
  | .error e => (out, .error e)
  | .ok (.blockEnd, next) => (out, .ok next)
  | .ok (.literal v, next) =>
    if out.size < room then c.inflate room b next (out.push v) else (out, .error .short)
  | .ok (.repetition span, next) =>
    match _hr : c.repetition b span next with
    | .error e => (out, .error e)
    | .ok ((length, distance), last) =>
      if out.size < distance then (out, .error .faulty)
      else if out.size + length ≤ room then
        c.inflate room b last (repeatBack out distance length)
      else (repeatBack out distance (room - out.size), .error .short)
termination_by 8 * b.size - pos
decreasing_by
  · have := c.letter_bounds _ _ _ _ _hl; omega
  · have := c.letter_bounds _ _ _ _ _hl; have := c.repetition_bounds _ _ _ _ _ _hr; omega

/-- Copies `count` bytes from a byte position on. -/
def stored (room : Nat) (b : Bytes) (start count : Nat) (out : Bytes) : Bytes × Except Stop Nat :=
  let n := min count (room - out.size)
  let out := out ++ b.extract start (start + n)
  if n = count ∧ start + count ≤ b.size then (out, .ok (8 * (start + count)))
  else (out, .error .short)

/-- The order in which a block gives the code lengths for code lengths. -/
def lengthOrder : List Nat := [16, 17, 18, 0, 8, 7, 9, 6, 10, 5, 11, 4, 12, 3, 13, 2, 14, 1, 15]

/-- The code for code lengths, `n` of its own code lengths being given. -/
def lengthCode (b : Bytes) (pos n : Nat) : Except Stop (PrefixCode × Nat) :=
  match (List.range n).mapM fun i => bits? b (pos + 3 * i) 3 with
  | none => .error .short
  | some given =>
    let c := PrefixCode.ofLengths ((List.range 19).map fun s =>
      (given[lengthOrder.idxOf s]?).getD 0)
    if c.isComplete then .ok (c, pos + 3 * n) else .error .faulty

/-- What a symbol for code lengths stands for: a length and how often it
counts. -/
def lengthRun (b : Bytes) (seen : Array Nat) (s pos : Nat) : Except Stop ((Nat × Nat) × Nat) :=
  if s < 16 then .ok ((s, 1), pos)
  else
    let span : Span := if s = 16 then ⟨3, 2⟩ else if s = 17 then ⟨3, 3⟩ else ⟨11, 7⟩
    match if s = 16 then seen.back? else some 0 with
    | none => .error .faulty
    | some length =>
      match span.read b pos with
      | .error e => .error e
      | .ok (times, next) => .ok ((length, times), next)

/-- A run of lengths does not go back. -/
theorem lengthRun_bounds (b : Bytes) (seen : Array Nat) (s pos next : Nat) (r : Nat × Nat)
    (h : lengthRun b seen s pos = .ok (r, next)) : pos ≤ next := by
  unfold lengthRun at h
  split at h
  · cases h; omega
  · simp only at h
    split at h
    · cases h
    · split at h
      · cases h
      · rename_i hr
        cases h
        exact Span.read_bounds _ _ _ _ _ hr

/-- Reads code lengths, `total` in all. -/
def codeLengths (c : PrefixCode) (total : Nat) (b : Bytes) (pos : Nat) (seen : Array Nat) :
    Except Stop (List Nat × Nat) :=
  if total ≤ seen.size then
    if seen.size = total then .ok (seen.toList, pos) else .error .faulty
  else
    match _hs : c.read b pos with
    | .cut => .error .short
    | .meaningless => .error .faulty
    | .symbol s next =>
      match _hr : lengthRun b seen s next with
      | .error e => .error e
      | .ok ((length, times), last) =>
        codeLengths c total b last (seen ++ Array.replicate times length)
termination_by 8 * b.size - pos
decreasing_by
  have := c.read_bounds _ _ _ _ _hs; have := lengthRun_bounds _ _ _ _ _ _ _hr; omega

/-- Reads the codes that a block brings: at most 286 symbols in the one, which has
to have the end of the block, at most 30 in the other. -/
def BlockCodes.read (b : Bytes) (pos : Nat) : Except Stop (BlockCodes × Nat) := do
  let (l, pos) ← bits b pos 5
  let (d, pos) ← bits b pos 5
  let (n, pos) ← bits b pos 4
  if 286 < l + 257 ∨ 30 < d + 1 then throw .faulty
  let (c, pos) ← lengthCode b pos (n + 4)
  let (lengths, pos) ← codeLengths c (l + 257 + (d + 1)) b pos #[]
  if lengths.getD 256 0 = 0 then throw .faulty
  let literals := PrefixCode.ofLengths (lengths.take (l + 257))
  let distances := PrefixCode.ofLengths (lengths.drop (l + 257))
  if literals.isSound ∧ distances.isSound then return (⟨literals, distances⟩, pos)
  throw .faulty

/-- Decodes what a block holds after its kind. -/
def block (kind room : Nat) (b : Bytes) (pos : Nat) (out : Bytes) : Bytes × Except Stop Nat :=
  match kind with
  | 0 =>
    let start := (pos + 7) / 8
    match b.number? .little start 2, b.number? .little (start + 2) 2 with
    | some count, some complement =>
      if count + complement = 0xffff then stored room b (start + 4) count out
      else (out, .error .faulty)
    | _, _ => (out, .error .short)
  | 1 => BlockCodes.fixed.inflate room b pos out
  | 2 =>
    match BlockCodes.read b pos with
    | .error e => (out, .error e)
    | .ok (c, next) => c.inflate room b next out
  | _ => (out, .error .faulty)

/-- Decodes blocks up to the last one: the output, and the position after it or
why there is none. -/
def inflate (room : Nat) (b : Bytes) (pos : Nat) (out : Bytes) : Bytes × Except Stop Nat :=
  match bits? b pos 3 with
  | none => (out, .error .short)
  | some head =>
    match block (head / 2) room b (pos + 3) out with
    | (out, .error e) => (out, .error e)
    | (out, .ok next) =>
      if head % 2 = 1 then (out, .ok next)
      else if pos < next ∧ next ≤ 8 * b.size then inflate room b next out
      else (out, .error .faulty)
termination_by 8 * b.size - pos

end Compression
end ParamAtlas
