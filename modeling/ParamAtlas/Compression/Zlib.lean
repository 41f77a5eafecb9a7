/-
# Deflated data in a zlib frame

| part | bytes |
| --- | ---: |
| method 8 in the low half, window of up to 2¹⁵ bytes in the high half | 1 |
| no preset dictionary (bit 5); with the first byte a multiple of 31 | 1 |
| deflated data | – |
| Adler sum of what comes out, highest byte first | 4 |

The sum is checked only if it is there.
-/
import ParamAtlas.Compression.Deflate

namespace ParamAtlas
namespace Compression

/-- The Adler sum: the sum of all bytes plus one, and above it the sum of all
such sums on the way, both modulo 65521. -/
def adler (b : Bytes) : Nat :=
  let (low, high) := b.foldl (fun (low, high) v =>
    let low := (low + v.toNat) % 65521
    (low, (high + low) % 65521)) (1, 0)
  high * 65536 + low

/-- Whether two bytes start a zlib frame that can be decoded. -/
def zlibHead (first second : Nat) : Bool :=
  (first * 256 + second) % 31 = 0 && first % 16 = 8 && first / 16 ≤ 7 && second / 32 % 2 = 0

/-- What a zlib frame holds, cut off after `room` bytes; nothing if it is
faulty. -/
def unzlib? (room : Nat) (b : Bytes) : Option Bytes :=
  match b.number? .big 0 2 with
  | none => some #[]
  | some head =>
    if zlibHead (head / 256) (head % 256) then
      match inflate room b 16 #[] with
      | (out, .ok next) =>
        match b.number? .big ((next + 7) / 8) 4 with
        | some sum => if sum = adler out then some out else none
        | none => some out
      | (out, .error .short) => some out
      | (_, .error .faulty) => none
    else none

end Compression
end ParamAtlas
