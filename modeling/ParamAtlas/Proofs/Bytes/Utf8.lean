/-
# Text that is read back

A character is written as one to four bytes, of which the first says how many follow,
and reading turns exactly these bytes into the character again (`step_of_shows`):

| code point | lead byte | following bytes |
| --- | --- | ---: |
| up to `7f` | `00`–`7f` | 0 |
| up to `7ff` | `c2`–`df` | 1 |
| up to `ffff`, no surrogate | `e0`–`ef` | 2 |
| up to `10ffff` | `f0`–`f4` | 3 |

So a text is read back as it was (`lossy_toUTF8`, `strict?_toUTF8`), and no byte of it is
zero unless one of its characters is (`zero_notMem_toUTF8`).
-/

import ParamAtlas.Bytes.Utf8
import ParamAtlas.Proofs.Bytes.Basic

namespace ParamAtlas
namespace Utf8

open String (utf8EncodeChar)

/-! ## What lead bytes announce -/

/-- Lead bytes that announce one more byte. -/
theorem announced_two {lead : Nat} (h : 0xc2 ≤ lead ∧ lead ≤ 0xdf) :
    announced lead = some (lead % 0x20, 0x80, 0xbf, 1) := by
  rw [announced, if_pos h]

/-- Two bytes follow, and the first of them is in the range announced unless what is
written is too long or a surrogate. -/
theorem announced_three {lead next : Nat} (h : 0xe0 ≤ lead ∧ lead ≤ 0xef)
    (hnext : 0x80 ≤ next ∧ next ≤ 0xbf) (hlow : lead = 0xe0 → 0xa0 ≤ next)
    (hhigh : lead = 0xed → next ≤ 0x9f) :
    ∃ low high, announced lead = some (lead % 0x10, low, high, 2) ∧ low ≤ next ∧ next ≤ high := by
  rw [announced, if_neg (by omega)]
  by_cases he0 : lead = 0xe0
  · rw [if_pos he0, he0]
    exact ⟨_, _, rfl, hlow he0, hnext.2⟩
  by_cases hed : lead = 0xed
  · rw [if_neg he0, if_pos hed, hed]
    exact ⟨_, _, rfl, hnext.1, hhigh hed⟩
  · rw [if_neg he0, if_neg hed, if_pos (by omega)]
    exact ⟨_, _, rfl, hnext⟩

/-- Three bytes follow, and the first of them is in the range announced unless what is
written is too long or too large. -/
theorem announced_four {lead next : Nat} (h : 0xf0 ≤ lead ∧ lead ≤ 0xf4)
    (hnext : 0x80 ≤ next ∧ next ≤ 0xbf) (hlow : lead = 0xf0 → 0x90 ≤ next)
    (hhigh : lead = 0xf4 → next ≤ 0x8f) :
    ∃ low high, announced lead = some (lead % 8, low, high, 3) ∧ low ≤ next ∧ next ≤ high := by
  rw [announced, if_neg (by omega), if_neg (by omega), if_neg (by omega), if_neg (by omega)]
  by_cases hf0 : lead = 0xf0
  · rw [if_pos hf0, hf0]
    exact ⟨_, _, rfl, hlow hf0, hnext.2⟩
  by_cases hf4 : lead = 0xf4
  · rw [if_neg hf0, if_neg (by omega), if_pos hf4, hf4]
    exact ⟨_, _, rfl, hnext.1, hhigh hf4⟩
  · rw [if_neg hf0, if_pos (by omega)]
    exact ⟨_, _, rfl, hnext⟩

/-! ## Characters -/

variable {b : Bytes} {p : Nat}

/-- A following byte adds six bits. -/
theorem follow_of_shows {x : UInt8} {xs : List UInt8} {bits low high : Nat} (n : Nat)
    (h : b.Shows p (x :: xs)) (hx : low ≤ x.toNat ∧ x.toNat ≤ high) :
    follow b p bits low high (n + 1) =
      ((follow b (p + 1) (bits * 64 + x.toNat % 64) 0x80 0xbf n).1,
        (follow b (p + 1) (bits * 64 + x.toNat % 64) 0x80 0xbf n).2 + 1) := by
  have := h.le_size (List.cons_ne_nil x xs)
  rw [List.length_cons] at this
  rw [follow, h.at0, if_pos ⟨by omega, hx⟩]

/-- What stands behind a lead byte is followed as announced. -/
theorem step_of_announced {x : UInt8} {xs : List UInt8} {bits low high n : Nat}
    (h : b.Shows p (x :: xs)) (hx : 0x80 ≤ x.toNat)
    (hannounced : announced x.toNat = some (bits, low, high, n)) :
    step b p = ((follow b (p + 1) bits low high n).1.map Char.ofNat,
      (follow b (p + 1) bits low high n).2) := by
  simp only [step, h.at0, if_neg (Nat.not_lt.2 hx), hannounced]

section Sequences

variable {x y z w : UInt8}

/-- A character in two bytes is read from them, -/
theorem step_two (h : b.Shows p [x, y]) (hx : 0xc2 ≤ x.toNat ∧ x.toNat ≤ 0xdf)
    (hy : 0x80 ≤ y.toNat ∧ y.toNat ≤ 0xbf) :
    step b p = (some (Char.ofNat (x.toNat % 0x20 * 64 + y.toNat % 64)), 1) := by
  rw [step_of_announced h (by omega) (announced_two hx),
    follow_of_shows 0 (Bytes.shows_cons.1 h).2 hy, follow]
  rfl

/-- one in three bytes from those, where neither too short a form nor half a pair is meant,
-/
theorem step_three (h : b.Shows p [x, y, z]) (hx : 0xe0 ≤ x.toNat ∧ x.toNat ≤ 0xef)
    (hy : 0x80 ≤ y.toNat ∧ y.toNat ≤ 0xbf) (hlow : x.toNat = 0xe0 → 0xa0 ≤ y.toNat)
    (hhigh : x.toNat = 0xed → y.toNat ≤ 0x9f) (hz : 0x80 ≤ z.toNat ∧ z.toNat ≤ 0xbf) :
    step b p =
      (some (Char.ofNat ((x.toNat % 0x10 * 64 + y.toNat % 64) * 64 + z.toNat % 64)), 2) := by
  obtain ⟨low, high, hannounced, hrange⟩ := announced_three hx hy hlow hhigh
  have htail := (Bytes.shows_cons.1 h).2
  rw [step_of_announced h (by omega) hannounced, follow_of_shows 1 htail hrange,
    follow_of_shows 0 (Bytes.shows_cons.1 htail).2 hz, follow]
  rfl

/-- and one in four bytes from those, where neither too short a form nor too large a number
is meant. -/
theorem step_four (h : b.Shows p [x, y, z, w]) (hx : 0xf0 ≤ x.toNat ∧ x.toNat ≤ 0xf4)
    (hy : 0x80 ≤ y.toNat ∧ y.toNat ≤ 0xbf) (hlow : x.toNat = 0xf0 → 0x90 ≤ y.toNat)
    (hhigh : x.toNat = 0xf4 → y.toNat ≤ 0x8f) (hz : 0x80 ≤ z.toNat ∧ z.toNat ≤ 0xbf)
    (hw : 0x80 ≤ w.toNat ∧ w.toNat ≤ 0xbf) :
    step b p = (some (Char.ofNat
      (((x.toNat % 8 * 64 + y.toNat % 64) * 64 + z.toNat % 64) * 64 + w.toNat % 64)), 3) := by
  obtain ⟨low, high, hannounced, hrange⟩ := announced_four hx hy hlow hhigh
  have htail := (Bytes.shows_cons.1 h).2
  have htail' := (Bytes.shows_cons.1 htail).2
  rw [step_of_announced h (by omega) hannounced, follow_of_shows 2 htail hrange,
    follow_of_shows 1 htail' hz, follow_of_shows 0 (Bytes.shows_cons.1 htail').2 hw, follow]
  rfl

end Sequences

/-- **A character is read back** from its bytes. -/
theorem step_of_shows {c : Char} (h : b.Shows p (utf8EncodeChar c)) :
    step b p = (some c, (utf8EncodeChar c).length - 1) := by
  have hvalid : c.val.toNat < 0xd800 ∨ 0xdfff < c.val.toNat ∧ c.val.toNat < 0x110000 := c.valid
  have hchar : Char.ofNat c.val.toNat = c := Char.ofNat_toNat c
  unfold utf8EncodeChar at h ⊢
  dsimp only at h ⊢
  generalize c.val.toNat = v at h hvalid hchar ⊢
  have hfollowing : ∀ n, (UInt8.ofNat (n % 64 + 128)).toNat = n % 64 + 128 :=
    fun n => UInt8.toNat_ofNat_of_lt' (show _ < 256 by omega)
  have hlast := hfollowing v
  have hsixth := hfollowing (v / 64)
  split_ifs at h ⊢ with h₁ h₂ h₃
  · have hat := h.at0
    rw [UInt8.toNat_ofNat_of_lt' (show _ < 256 by omega)] at hat
    simp only [step, hat, if_pos (show v < 0x80 by omega), hchar]
    rfl
  · have hlead : (UInt8.ofNat (v / 64 % 32 + 192)).toNat = v / 64 % 32 + 192 :=
      UInt8.toNat_ofNat_of_lt' (show _ < 256 by omega)
    have hcode : (v / 64 % 32 + 192) % 0x20 * 64 + (v % 64 + 128) % 64 = v := by omega
    rw [step_two h (by omega) (by omega), hlead, hlast, hcode, hchar]
    rfl
  · have hlead : (UInt8.ofNat (v / 4096 % 16 + 224)).toNat = v / 4096 % 16 + 224 :=
      UInt8.toNat_ofNat_of_lt' (show _ < 256 by omega)
    have hcode : ((v / 4096 % 16 + 224) % 0x10 * 64 + (v / 64 % 64 + 128) % 64) * 64 +
        (v % 64 + 128) % 64 = v := by omega
    rw [step_three h (by omega) (by omega) (by omega) (by omega) (by omega), hlead, hsixth, hlast,
      hcode, hchar]
    rfl
  · have hlead : (UInt8.ofNat (v / 262144 % 8 + 240)).toNat = v / 262144 % 8 + 240 :=
      UInt8.toNat_ofNat_of_lt' (show _ < 256 by omega)
    have htwelfth := hfollowing (v / 4096)
    have hcode : (((v / 262144 % 8 + 240) % 8 * 64 + (v / 4096 % 64 + 128) % 64) * 64 +
        (v / 64 % 64 + 128) % 64) * 64 + (v % 64 + 128) % 64 = v := by omega
    rw [step_four h (by omega) (by omega) (by omega) (by omega) (by omega) (by omega), hlead,
      htwelfth, hsixth, hlast, hcode, hchar]
    rfl

/-! ## Texts -/

/-- **Characters are read as they were written,** up to the end. -/
theorem chars_of_shows {cs : List Char} (h : b.Shows p (cs.flatMap utf8EncodeChar))
    (hend : p + (cs.flatMap utf8EncodeChar).length = b.size) (seen : Array (Option Char)) :
    (chars b p seen).toList = seen.toList ++ cs.map some := by
  induction cs generalizing p seen with
  | nil =>
    rw [List.flatMap_nil, List.length_nil] at hend
    rw [chars, if_neg (by omega), List.map_nil, List.append_nil]
  | cons c cs ih =>
    rw [List.flatMap_cons, Bytes.shows_append] at h
    rw [List.flatMap_cons, List.length_append] at hend
    have hlength : 0 < (utf8EncodeChar c).length := by
      rw [String.length_utf8EncodeChar]
      exact Char.utf8Size_pos c
    have hnext : p + 1 + ((utf8EncodeChar c).length - 1) = p + (utf8EncodeChar c).length := by omega
    rw [chars, if_pos (by omega), step_of_shows h.1]
    dsimp only
    rw [hnext, ih h.2 (by omega), Array.toList_push, List.map_cons, List.append_assoc]
    rfl

/-- The bytes of a text are those of its characters. -/
theorem toList_toUTF8 (s : String) : s.toUTF8.data.toList = s.toList.flatMap utf8EncodeChar := by
  have hencode : s.toUTF8 = s.toList.utf8Encode := by
    rw [← String.toByteArray_ofList, String.ofList_toList]
    rfl
  rw [hencode, List.utf8Encode, List.toList_data_toByteArray]

/-- So the characters of a text are read from its bytes. -/
theorem chars_toUTF8 (s : String) : (chars s.toUTF8.data 0 #[]).toList = s.toList.map some := by
  have hbytes := toList_toUTF8 s
  have hchars := chars_of_shows (Bytes.shows_of_toList hbytes)
    (by rw [← hbytes, Nat.zero_add, Array.length_toList]) #[]
  rwa [List.nil_append] at hchars

/-- **A text is read back** as it was. -/
theorem lossy_toUTF8 (s : String) : lossy s.toUTF8.data = s := by
  rw [lossy, chars_toUTF8, List.map_map]
  exact (congrArg String.ofList (List.map_id _)).trans String.ofList_toList

/-- A strict reading takes a text as it was, for no sequence of its bytes is broken. -/
theorem strict?_toUTF8 (s : String) : strict? s.toUTF8.data = some s := by
  have hall : (s.toList.map some).mapM id = some s.toList :=
    List.mapM_map.trans ((List.mapM_pure (f := id)).trans (congrArg some (List.map_id _)))
  rw [strict?, chars_toUTF8, hall, Option.map_some, String.ofList_toList]

/-- A text without a zero character has no zero byte. -/
theorem zero_notMem_toUTF8 {s : String} (hs : '\x00' ∉ s.toList) : 0 ∉ s.toUTF8.data.toList := by
  rw [toList_toUTF8, List.mem_flatMap]
  rintro ⟨c, hc, hzero⟩
  have hpos : 0 < c.val.toNat := by
    refine Nat.pos_of_ne_zero fun h => hs ?_
    have : c = '\x00' := by
      rw [← Char.ofNat_toNat c, Char.toNat, h]
    exact this ▸ hc
  have hbyte : ∀ n, 0 < n → n < 256 → (0 : UInt8) ≠ UInt8.ofNat n := by
    intro n hn hlt heq
    have := congrArg UInt8.toNat heq
    rw [UInt8.toNat_ofNat_of_lt' hlt] at this
    exact Nat.ne_of_lt hn this
  unfold utf8EncodeChar at hzero
  dsimp only at hzero
  split_ifs at hzero <;> simp only [List.mem_cons, List.not_mem_nil, or_false] at hzero
  · exact hbyte _ hpos (by omega) hzero
  · rcases hzero with h | h <;> exact hbyte _ (by omega) (by omega) h
  · rcases hzero with h | h | h <;> exact hbyte _ (by omega) (by omega) h
  · rcases hzero with h | h | h | h <;> exact hbyte _ (by omega) (by omega) h

end Utf8
end ParamAtlas
