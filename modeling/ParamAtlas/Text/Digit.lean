/-
# Digits in text

| digits | characters |
| --- | --- |
| decimal | `0`–`9` |
| hexadecimal | `0`–`9`, `a`–`f`, `A`–`F` |
-/

namespace ParamAtlas
namespace Text

/-- Whether a character is a hexadecimal digit of either case. -/
def isHexDigit (c : Char) : Bool := c.isDigit || ('a' ≤ c && c ≤ 'f') || ('A' ≤ c && c ≤ 'F')

/-- The number that the decimal digits at the front of characters make behind digits that
make `n`, and the characters after them. -/
def decimals (n : Nat) : List Char → Nat × List Char
  | [] => (n, [])
  | c :: cs => if c.isDigit then decimals (n * 10 + (c.toNat - '0'.toNat)) cs else (n, c :: cs)

/-- What is behind the digits is no longer than all there was. -/
theorem length_decimals_le (n : Nat) (cs : List Char) :
    (decimals n cs).2.length ≤ cs.length := by
  induction cs generalizing n with
  | nil => simp [decimals]
  | cons c cs ih =>
    simp only [decimals]
    split
    · exact Nat.le_succ_of_le (ih _)
    · simp

end Text
end ParamAtlas
