/-
# Zstandard frames

`uncompressed_data`, for sections compressed in this way.

Data is a run of frames.  A frame to be skipped has one of sixteen numbers and
a length in front.  Any other frame has

| part | bytes |
| --- | ---: |
| number | 4 |
| descriptor: content size 2 bits, single segment 1, unused 2, checksum 1, dictionary 2 | 1 |
| window, unless single segment | 1 |
| dictionary | 0, 1, 2 or 4 |
| content size | 0 (1 if single segment), 2, 4 or 8 |
| blocks | – |
| checksum, if announced | 4 |

A block has three bytes in front: last 1 bit, kind 2 bits, size 21 bits.

| kind | block |
| ---: | --- |
| 0 | so many bytes as they are |
| 1 | one byte that counts so many times |
| 2 | literals and sequences, in so many bytes |

Literals are told in one of four ways, by the lowest bits in front of them:

| kind | literals |
| ---: | --- |
| 0 | bytes as they are |
| 1 | one byte that counts so many times |
| 2 | a weight code, and one or four runs of its code words |
| 3 | runs of code words of the last weight code |

Codes and distances are kept from block to block of one frame, and a repetition may
go back to the start of the frame.  Frames with a dictionary are not decoded, and
neither windows, content sizes nor checksums are checked.
-/
import ParamAtlas.Compression.Sequence
import ParamAtlas.Compression.WeightCode

namespace ParamAtlas
namespace Compression

/-! ## Literals -/

/-- What is in front of literals: their kind, how many bytes they are and how many
bytes tell them, in how many runs of code words, and how long it is itself. -/
structure LiteralsHead where
  kind : Nat
  size : Nat
  stored : Nat
  runs : Nat
  width : Nat
  deriving DecidableEq, Repr, Inhabited

namespace LiteralsHead

/-- How many bits a size has in front of runs of code words. -/
def sizeBits : Nat → Nat
  | 0 | 1 => 10
  | 2 => 14
  | _ => 18

/-- What is in front of literals at a position. -/
def read? (b : Bytes) (pos : Nat) : Option LiteralsHead := do
  let v ← b.number? .little pos 1
  let kind := v % 4
  let format := v / 4 % 4
  if kind < 2 then
    let width := [1, 2, 1, 3].getD format 0
    let n ← b.number? .little pos width
    let size := if width = 1 then n / 8 else n / 16
    some ⟨kind, size, if kind = 0 then size else 1, 0, width⟩
  else
    let width := [3, 3, 4, 5].getD format 0
    let n ← b.number? .little pos width
    let top := 1 <<< sizeBits format
    some ⟨kind, n / 16 % top, n / 16 / top % top, if format = 0 then 1 else 4, width⟩

end LiteralsHead

/-- The positions that cut four runs of code words out of `stop - start` bytes, which
start with the lengths of three of them. -/
def runBounds? (b : Bytes) (start stop : Nat) : Option (List (Nat × Nat)) :=
  let first := start + 6
  let second := first + b.number .little start 2
  let third := second + b.number .little (start + 2) 2
  let fourth := third + b.number .little (start + 4) 2
  if fourth ≤ stop then some [(first, second), (second, third), (third, fourth), (fourth, stop)]
  else none

/-- The bytes that runs of code words tell, one or four from `start` up to `stop`. -/
def letters? (c : WeightCode) (runs : Nat) (b : Bytes) (start stop : Nat) : Option Bytes := do
  let bounds ← if runs = 4 then runBounds? b start stop else some [(start, stop)]
  let parts ← bounds.mapM fun (i, j) => c.letters? (b.extract i j)
  return parts.toArray.flatten

/-- The literals at a position, the code that they leave to later ones, and the
position behind them. -/
def literals? (last : Option WeightCode) (b : Bytes) (pos : Nat) :
    Option (Bytes × Option WeightCode × Nat) := do
  let h ← LiteralsHead.read? b pos
  let start := pos + h.width
  let stop := start + h.stored
  if b.size < stop then none
  match h.kind with
  | 0 => some (b.extract start stop, last, stop)
  | 1 => some (Array.replicate h.size (b.getD start 0), last, stop)
  | _ =>
    let (c, runs) ← if h.kind = 2 then WeightCode.read? (b.extract 0 stop) start
      else last.map (·, start)
    let out ← letters? c h.runs b runs stop
    if out.size = h.size then some (out, c, stop) else none

/-! ## Blocks -/

/-- What a frame has given so far, and what it keeps for later blocks. -/
structure FrameState where
  out : Bytes
  letters : Option WeightCode
  codes : PerField (Option StateCode)
  recent : Recent

namespace FrameState

/-- A frame of which nothing is known yet. -/
def initial : FrameState := ⟨#[], none, ⟨none, none, none⟩, .initial⟩

/-- A frame that has given more bytes. -/
def append (m : FrameState) (bytes : Bytes) : FrameState := { m with out := m.out ++ bytes }

/-- The number of sequences at a position, and the position behind it. -/
def sequenceCount? (b : Bytes) (pos : Nat) : Option (Nat × Nat) := do
  let v ← b.number? .little pos 1
  if v < 128 then some (v, pos + 1)
  else if v < 255 then some ((v - 128) * 256 + (← b.number? .little (pos + 1) 1), pos + 2)
  else some (0x7f00 + (← b.number? .little (pos + 1) 2), pos + 3)

/-- Decodes a block of literals and sequences. -/
def compressed? (m : FrameState) (b : Bytes) : Option FrameState := do
  let (literals, letters, pos) ← literals? m.letters b 0
  let (count, pos) ← sequenceCount? b pos
  match count with
  | 0 => if pos = b.size then some { m.append literals with letters } else none
  | more + 1 =>
    let modes ← b.number? .little pos 1
    let (codes, start) ← codes? modes m.codes b (pos + 1)
    let sequences ← codes.sequences? (b.extract start b.size) more
    let (out, recent) ← followAll? literals sequences 0 m.recent m.out
    some ⟨out, letters, ⟨codes.literals, codes.distance, codes.length⟩, recent⟩

/-- Decodes what a block has behind its head. -/
def block? (m : FrameState) (kind size : Nat) (b : Bytes) : Option FrameState :=
  match kind with
  | 0 => some (m.append b)
  | 1 => some (m.append (Array.replicate size (b.getD 0 0)))
  | 2 => m.compressed? b
  | _ => none

end FrameState

/-- The largest block. -/
def maxBlock : Nat := 128 * 1024

/-- Decodes blocks up to the last one: what the frame holds, and the position behind
the last block. -/
def frameBlocks? (b : Bytes) (pos : Nat) (m : FrameState) : Option (Bytes × Nat) :=
  match b.number? .little pos 3 with
  | none => none
  | some head =>
    let size := head / 8
    let kind := head / 2 % 4
    let next := pos + 3 + if kind = 1 then 1 else size
    if maxBlock < size ∨ b.size < next then none
    else
      match m.block? kind size (b.extract (pos + 3) next) with
      | none => none
      | some m => if head % 2 = 1 then some (m.out, next) else frameBlocks? b next m
termination_by b.size - pos
decreasing_by omega

/-- Blocks take bytes that are there. -/
theorem frameBlocks?_bounds (b : Bytes) (pos : Nat) (m : FrameState) (r : Bytes) (next : Nat)
    (h : frameBlocks? b pos m = some (r, next)) : pos < next ∧ next ≤ b.size := by
  fun_induction frameBlocks? b pos m with
  | case1 => cases h
  | case2 => cases h
  | case3 => cases h
  | case4 => simp only [Option.some.injEq, Prod.mk.injEq] at h; omega
  | case5 _ _ _ _ _ _ _ _ _ _ _ ih => have := ih h; omega

/-! ## Frames -/

/-- The number in front of a frame. -/
def frameMark : Nat := 0xfd2fb528

/-- The sixteen numbers in front of frames to be skipped. -/
def isSkipMark (n : Nat) : Bool := n / 16 = 0x184d2a5

/-- The position of a frame's blocks, the descriptor being at `pos`, and whether
a checksum follows them. -/
def frameHead? (b : Bytes) (pos : Nat) : Option (Nat × Bool) := do
  let d ← b.number? .little pos 1
  let single := d / 32 % 2 = 1
  let dictionaryWidth := [0, 1, 2, 4].getD (d % 4) 0
  let sizeWidth := [if single then 1 else 0, 2, 4, 8].getD (d / 64) 0
  let dictionary := pos + 1 + if single then 0 else 1
  let size := dictionary + dictionaryWidth
  let blocks := size + sizeWidth
  if b.size < blocks ∨ b.number .little dictionary dictionaryWidth ≠ 0 then none
  else some (blocks, d / 4 % 2 = 1)

/-- The blocks are behind the descriptor. -/
theorem frameHead?_bounds (b : Bytes) (pos blocks : Nat) (checked : Bool)
    (h : frameHead? b pos = some (blocks, checked)) : pos < blocks := by
  simp only [frameHead?, Option.bind_eq_bind, Option.bind_eq_some_iff] at h
  obtain ⟨d, _, h⟩ := h
  simp only [Option.ite_none_left_eq_some, Option.some.injEq, Prod.mk.injEq] at h
  omega

/-- What all frames from a position on hold together. -/
def unzstandardFrom? (b : Bytes) (pos : Nat) (out : Bytes) : Option Bytes :=
  if pos < b.size then
    match b.number? .little pos 4 with
    | none => none
    | some mark =>
      if isSkipMark mark then
        match b.number? .little (pos + 4) 4 with
        | none => none
        | some length =>
          if pos + 8 + length ≤ b.size then unzstandardFrom? b (pos + 8 + length) out else none
      else if mark = frameMark then
        match _hh : frameHead? b (pos + 4) with
        | none => none
        | some (blocks, checked) =>
          match _hb : frameBlocks? b blocks .initial with
          | none => none
          | some (held, next) =>
            let rest := if checked then next + 4 else next
            if rest ≤ b.size then unzstandardFrom? b rest (out ++ held) else none
      else none
  else some out
termination_by b.size - pos
decreasing_by
  · omega
  · have := frameHead?_bounds _ _ _ _ _hh; have := frameBlocks?_bounds _ _ _ _ _ _hb
    have : next ≤ rest := by simp only [rest]; split <;> omega
    omega

/-- What Zstandard frames hold together; nothing if one cannot be decoded. -/
def unzstandard? (b : Bytes) : Option Bytes := unzstandardFrom? b 0 #[]

end Compression
end ParamAtlas
