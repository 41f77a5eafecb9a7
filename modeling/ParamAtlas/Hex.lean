/-
# Hexadecimal text of addresses and offsets

Addresses in `format_line`, and offsets where a `DieRef` is told.

| value | written |
| --- | --- |
| an address | `0x`, then its digits without leading zeros |
| an offset of a debug entry | `<0x`, its digits filled up to eight, `>` |

Digits are lower case.
-/

namespace ParamAtlas

/-- A machine address: a 64-bit word. -/
abbrev Address := UInt64

namespace Hex

/-- The hexadecimal digits of `n`, lower case, without leading zeros. -/
def digits (n : Nat) : String := String.ofList (Nat.toDigits 16 n)

/-- The hexadecimal digits of `n`, filled with zeros on the left up to `width`. -/
def padded (width n : Nat) : String :=
  let ds := Nat.toDigits 16 n
  String.ofList (List.replicate (width - ds.length) '0' ++ ds)

/-- `0x` and the digits of `n`. -/
def marked (n : Nat) : String := "0x" ++ digits n

/-- Digits are told apart by their characters, -/
theorem digitChar_inj {a b : Nat} (ha : a < 16) (hb : b < 16)
    (h : Nat.digitChar a = Nat.digitChar b) : a = b := by
  have hall : ∀ a < 16, ∀ b < 16, Nat.digitChar a = Nat.digitChar b → a = b := by decide
  exact hall a ha b hb h

/-- and numbers by their digits. -/
theorem toDigits_inj {m n : Nat} (h : Nat.toDigits 16 m = Nat.toDigits 16 n) : m = n := by
  induction m using Nat.strongRecOn generalizing n with
  | ind m ih =>
    rcases Nat.lt_or_ge m 16 with hm | hm <;> rcases Nat.lt_or_ge n 16 with hn | hn
    · rw [Nat.toDigits_of_lt_base hm, Nat.toDigits_of_lt_base hn] at h
      exact digitChar_inj hm hn (List.singleton_inj.1 h)
    · rw [Nat.toDigits_of_lt_base hm, Nat.toDigits_of_base_le (by decide) hn] at h
      exact absurd (List.append_eq_singleton_iff.1 h.symm) (by simp [Nat.toDigits_ne_nil])
    · rw [Nat.toDigits_of_base_le (by decide) hm, Nat.toDigits_of_lt_base hn] at h
      exact absurd (List.append_eq_singleton_iff.1 h) (by simp [Nat.toDigits_ne_nil])
    · rw [Nat.toDigits_of_base_le (by decide) hm, Nat.toDigits_of_base_le (by decide) hn] at h
      obtain ⟨hinit, hlast⟩ := List.append_singleton_inj.1 h
      have hquotient : m / 16 = n / 16 := ih (m / 16) (by omega) hinit
      have hremainder : m % 16 = n % 16 := digitChar_inj (by omega) (by omega) hlast
      omega

/-- Numbers with the same digits are the same. -/
theorem digits_inj {m n : Nat} (h : digits m = digits n) : m = n :=
  toDigits_inj (String.ofList_injective h)

/-- What is no digit does not stand among digits. -/
theorem notMem_digits {c : Char} (hc : ∀ d, Nat.digitChar d ≠ c) (n : Nat) :
    c ∉ (digits n).toList := by
  rw [digits, String.toList_ofList]
  induction n using Nat.strongRecOn with
  | ind n ih =>
    rcases Nat.lt_or_ge n 16 with hn | hn
    · rw [Nat.toDigits_of_lt_base hn, List.mem_singleton]
      exact (hc n).symm
    · rw [Nat.toDigits_of_base_le (by decide) hn, List.mem_append, List.mem_singleton]
      rintro (h | h)
      · exact ih (n / 16) (by omega) h
      · exact hc _ h.symm

end Hex
end ParamAtlas
