/-
# Bytes that stand at a position

What is read from bytes depends on a few of them only, those that stand from some
position on (`Bytes.Shows`).  A run of bytes stands at a position if its parts stand
one behind another (`shows_append`), so what is read is said part by part.  Bytes behind
do not change what is read (`number_append`, `slice?_append`), and bytes before move it
(`number_append_left`, `slice?_append_left`).
-/

import Mathlib.Data.List.Basic
import ParamAtlas.Bytes.Basic

namespace ParamAtlas
namespace Bytes

/-- These bytes stand from a position on. -/
def Shows (b : Bytes) (p : Nat) (xs : List UInt8) : Prop := xs <+: b.toList.drop p

variable {b : Bytes} {p : Nat} {x : UInt8} {xs ys : List UInt8}

@[simp] theorem shows_nil : b.Shows p [] := List.nil_prefix

/-- Bytes stand at a position if the first of them does, and the others behind it. -/
theorem shows_cons : b.Shows p (x :: xs) ↔ b[p]? = some x ∧ b.Shows (p + 1) xs := by
  unfold Shows
  by_cases hp : p < b.toList.length
  · rw [List.drop_eq_getElem_cons hp, List.cons_prefix_cons, ← Array.getElem?_toList,
      List.getElem?_eq_getElem hp, Option.some_inj]
    exact and_congr_left fun _ => eq_comm
  · rw [List.drop_eq_nil_of_le (Nat.le_of_not_lt hp), ← Array.getElem?_toList,
      List.getElem?_eq_none (Nat.le_of_not_lt hp)]
    simp

/-- So do two runs of bytes, one behind the other. -/
theorem shows_append : b.Shows p (xs ++ ys) ↔ b.Shows p xs ∧ b.Shows (p + xs.length) ys := by
  induction xs generalizing p with
  | nil => simp
  | cons x xs ih =>
    rw [List.cons_append, shows_cons, shows_cons, ih, List.length_cons, Nat.add_assoc p 1,
      Nat.add_comm 1, and_assoc]

/-- All bytes stand at their start. -/
theorem shows_of_toList (h : b.toList = xs) : b.Shows 0 xs := by
  rw [Shows, h]
  exact List.prefix_refl _

/-- The byte at a position is the first that stands there. -/
theorem Shows.at0 (h : b.Shows p (x :: xs)) : b.at0 p = x.toNat := by
  rw [Bytes.at0, Array.getD_eq_getD_getElem?, (shows_cons.1 h).1, Option.getD_some]

/-- Bytes that stand somewhere stand inside. -/
theorem Shows.le_size (h : b.Shows p xs) (hxs : xs ≠ []) : p + xs.length ≤ b.size := by
  have hlength := h.length_le
  simp only [List.length_drop, Array.length_toList] at hlength
  have := List.length_pos_iff.2 hxs
  omega

/-- What stands at a position is taken from there. -/
theorem Shows.extract (h : b.Shows p xs) : b.extract p (p + xs.length) = xs.toArray := by
  rw [← Array.toList_inj, Array.toList_extract, List.extract_eq_take_drop, Nat.add_sub_cancel_left]
  exact (List.prefix_iff_eq_take.1 h).symm

/-- The first zero byte behind others is the one that ends them. -/
theorem Shows.findZero? (h : b.Shows p (xs ++ [0])) (hxs : 0 ∉ xs) :
    b.findZero? p = some (p + xs.length) := by
  induction xs generalizing p with
  | nil =>
    obtain ⟨hp, hzero⟩ := Array.getElem?_eq_some_iff.1 (shows_cons.1 h).1
    rw [Bytes.findZero?, dif_pos hp, if_pos hzero]
    rfl
  | cons x xs ih =>
    rw [List.mem_cons, not_or] at hxs
    obtain ⟨hfirst, hrest⟩ := shows_cons.1 h
    obtain ⟨hp, hx⟩ := Array.getElem?_eq_some_iff.1 hfirst
    rw [Bytes.findZero?, dif_pos hp, if_neg (hx ▸ Ne.symm hxs.1), ih hrest hxs.2, List.length_cons]
    congr 1
    omega

/-! ## Bytes before and behind -/

section

variable (b more front : Bytes)

/-- Bytes are where they were if more follow, -/
theorem at0_append {i : Nat} (h : i < b.size) : (b ++ more).at0 i = b.at0 i := by
  rw [at0, at0, Array.getD_eq_getD_getElem?, Array.getD_eq_getD_getElem?,
    Array.getElem?_append_left h]

/-- and further on if others are put in front. -/
theorem at0_append_left (i : Nat) : (front ++ b).at0 (front.size + i) = b.at0 i := by
  rw [at0, at0, Array.getD_eq_getD_getElem?, Array.getD_eq_getD_getElem?,
    Array.getElem?_append_right (Nat.le_add_right ..), Nat.add_sub_cancel_left]

/-- A number does not depend on the bytes behind it. -/
theorem number_append (order : ByteOrder) {p w : Nat} (h : p + w ≤ b.size) :
    (b ++ more).number order p w = b.number order p w := by
  cases order with
  | little =>
    rw [number, number]
    induction w generalizing p with
    | zero => rfl
    | succ w ih => rw [little, little, at0_append b more (by omega), ih (by omega)]
  | big =>
    rw [number, number]
    induction w with
    | zero => rfl
    | succ w ih => rw [big, big, at0_append b more (by omega), ih (by omega)]

/-- A number moves with the bytes before it. -/
theorem number_append_left (order : ByteOrder) (p w : Nat) :
    (front ++ b).number order (front.size + p) w = b.number order p w := by
  cases order with
  | little =>
    rw [number, number]
    induction w generalizing p with
    | zero => rfl
    | succ w ih => rw [little, little, at0_append_left, Nat.add_assoc, ih]
  | big =>
    rw [number, number]
    induction w with
    | zero => rfl
    | succ w ih => rw [big, big, Nat.add_assoc, at0_append_left, ih]

/-- A slice has the size asked for. -/
theorem size_of_slice? {b bytes : Bytes} {p n : Nat} (h : b.slice? p n = some bytes) :
    bytes.size = n := by
  unfold slice? at h
  split at h
  · cases h
    rw [Array.size_extract]
    omega
  · cases h

/-- A slice does not depend on the bytes behind it. -/
theorem slice?_append {p n : Nat} (h : p + n ≤ b.size) : (b ++ more).slice? p n = b.slice? p n := by
  have hmore : more.extract (p - b.size) (p + n - b.size) = #[] :=
    Array.extract_eq_empty_of_le (by omega)
  rw [slice?, slice?, if_pos h, Array.size_append, if_pos (by omega), Array.extract_append, hmore,
    Array.append_empty]

/-- A slice moves with the bytes before it. -/
theorem slice?_append_left (p n : Nat) : (front ++ b).slice? (front.size + p) n = b.slice? p n := by
  have hfront : front.extract (front.size + p) (front.size + (p + n)) = #[] :=
    Array.extract_eq_empty_of_le (by omega)
  simp only [slice?, Array.size_append, Array.extract_append, Nat.add_assoc, hfront,
    Array.empty_append, Nat.add_le_add_iff_left, Nat.add_sub_cancel_left]

end

end Bytes
end ParamAtlas
