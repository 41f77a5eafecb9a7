/-
# Text in bytes

UTF-8, read strictly or with replacement.  A lead byte fixes how many bytes
follow and which the first of them may be:

| lead byte | first following byte | further bytes |
| --- | --- | ---: |
| `00`–`7f` | – | – |
| `c2`–`df` | `80`–`bf` | 0 |
| `e0` | `a0`–`bf` | 1 |
| `e1`–`ec`, `ee`, `ef` | `80`–`bf` | 1 |
| `ed` | `80`–`9f` | 1 |
| `f0` | `90`–`bf` | 2 |
| `f1`–`f3` | `80`–`bf` | 2 |
| `f4` | `80`–`8f` | 2 |

A sequence that breaks off is replaced as a whole, as far as it went well, by
one U+FFFD.
-/
import ParamAtlas.Bytes.Basic

namespace ParamAtlas
namespace Utf8

/-- What a lead byte announces: the bits it gives, the range of the first
following byte, and the number of following bytes.  No byte is announced by a
lead byte that stands for itself or for nothing. -/
def announced (lead : Nat) : Option (Nat × Nat × Nat × Nat) :=
  if 0xc2 ≤ lead ∧ lead ≤ 0xdf then some (lead % 0x20, 0x80, 0xbf, 1)
  else if lead = 0xe0 then some (0, 0xa0, 0xbf, 2)
  else if lead = 0xed then some (0xd, 0x80, 0x9f, 2)
  else if 0xe1 ≤ lead ∧ lead ≤ 0xef then some (lead % 0x10, 0x80, 0xbf, 2)
  else if lead = 0xf0 then some (0, 0x90, 0xbf, 3)
  else if 0xf1 ≤ lead ∧ lead ≤ 0xf3 then some (lead % 8, 0x80, 0xbf, 3)
  else if lead = 0xf4 then some (4, 0x80, 0x8f, 3)
  else none

/-- Reads following bytes: the code point if all are there, and how many were. -/
def follow (b : Bytes) (pos bits low high : Nat) : (count : Nat) → Option Nat × Nat
  | 0 => (some bits, 0)
  | n + 1 =>
    if pos < b.size ∧ low ≤ b.at0 pos ∧ b.at0 pos ≤ high then
      let (c, used) := follow b (pos + 1) (bits * 64 + b.at0 pos % 64) 0x80 0xbf n
      (c, used + 1)
    else (none, 0)

/-- The character at a position, or none for a broken sequence, and the number
of bytes that it or the broken sequence takes after the first. -/
def step (b : Bytes) (pos : Nat) : Option Char × Nat :=
  let lead := b.at0 pos
  if lead < 0x80 then (some (Char.ofNat lead), 0)
  else match announced lead with
    | none => (none, 0)
    | some (bits, low, high, count) =>
      let (c, used) := follow b (pos + 1) bits low high count
      (c.map Char.ofNat, used)

/-- Reads all characters, none for each broken sequence. -/
def chars (b : Bytes) (pos : Nat) (seen : Array (Option Char)) : Array (Option Char) :=
  if pos < b.size then
    let (c, used) := step b pos
    chars b (pos + 1 + used) (seen.push c)
  else seen
termination_by b.size - pos

/-- The text of bytes, with each broken sequence replaced. -/
def lossy (b : Bytes) : String :=
  String.ofList ((chars b 0 #[]).toList.map (·.getD '\ufffd'))

/-- The text of bytes, if no sequence is broken. -/
def strict? (b : Bytes) : Option String :=
  ((chars b 0 #[]).toList.mapM id).map String.ofList

end Utf8
end ParamAtlas
