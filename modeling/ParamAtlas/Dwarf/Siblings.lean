/-
# Sibling links

`sibling_links`, which is run once for each unit that is loaded; specification,
section 4.2.

The sibling of an entry stands behind everything below it, so finding it means
reading all of that.  One reading of the whole unit finds all siblings: at each
depth the entry last seen there is remembered until the reading leaves its
list, and an entry read at a depth is the sibling of the one remembered there.

A link leads from an entry to a later one of the reading.  Nothing checks that
when a link is noted: it holds because what is remembered stands before the
entry that is read (`SiblingSearch.Before`), so links lead forward
(`lt_of_siblingLinks`).
-/
import ParamAtlas.Dwarf.Unit

namespace ParamAtlas
namespace Dwarf

/-- Links between the offsets of a unit. -/
abbrev Links := Std.HashMap Nat Nat

/-- The links found so far, and the entry last seen at each depth down to the
current one. -/
structure SiblingSearch where
  links : Links
  latest : Array Nat

namespace SiblingSearch

/-- Takes in the next entry of a reading: its depth and its offset. -/
def step (s : SiblingSearch) (entry : Nat × Nat) : SiblingSearch :=
  let (depth, o) := entry
  let latest := s.latest.shrink (depth + 1)
  match latest[depth]? with
  | some before => ⟨s.links.insert before o, latest.setIfInBounds depth o⟩
  | none => ⟨s.links, latest.push o⟩

/-- A step forgets the entries at the depth it reads or below, and remembers the
entry read. -/
theorem latest_step (s : SiblingSearch) (d o : Nat) :
    (s.step (d, o)).latest.toList = s.latest.toList.take d ++ [o] := by
  have hget : (s.latest.shrink (d + 1))[d]? = s.latest[d]? := by
    simp [← Array.getElem?_toList]
  simp only [step, hget]
  split
  · rename_i before hbefore
    have hd : d < s.latest.size := (Array.getElem?_eq_some_iff.1 hbefore).1
    rw [Array.toList_setIfInBounds, Array.toList_shrink, List.set_eq_take_append_cons_drop]
    rw [if_pos (by simp; omega), List.take_take, List.drop_take]
    simp
  · rename_i hnone
    have hd : s.latest.size ≤ d := Array.getElem?_eq_none_iff.1 hnone
    rw [Array.toList_push, Array.toList_shrink, List.take_of_length_le (by simpa using by omega),
      List.take_of_length_le (by simpa using hd)]

/-- A step adds a link from the entry that is remembered at the depth it reads,
and no other link. -/
theorem links_step (s : SiblingSearch) (d o i : Nat) :
    (s.step (d, o)).links[i]? = if s.latest.toList[d]? = some i then some o else s.links[i]? := by
  have hget : (s.latest.shrink (d + 1))[d]? = s.latest.toList[d]? := by
    simp [← Array.getElem?_toList]
  simp only [step, hget]
  cases s.latest.toList[d]? with
  | none => simp
  | some before => simp [Std.HashMap.getElem?_insert]

/-- What a search knows before it reads an entry at offset `b` or behind it: what is
remembered stands before `b`, and links lead forward to places before `b`. -/
structure Before (s : SiblingSearch) (b : Nat) : Prop where
  latest : ∀ o ∈ s.latest.toList, o < b
  links : ∀ i j, s.links[i]? = some j → i < j ∧ j < b

/-- The search starts before everything. -/
theorem before_init : (⟨∅, #[]⟩ : SiblingSearch).Before 0 where
  latest := by simp
  links := by simp

/-- A step keeps what a search knows. -/
theorem Before.step {s : SiblingSearch} {b d o : Nat} (h : s.Before b) (hb : b ≤ o) :
    (s.step (d, o)).Before (o + 1) where
  latest o' ho' := by
    rw [latest_step, List.mem_append, List.mem_singleton] at ho'
    rcases ho' with ho' | rfl
    · have := h.latest o' (List.mem_of_mem_take ho')
      omega
    · omega
  links i j hlink := by
    rw [links_step] at hlink
    split at hlink
    · rename_i hrecalled
      cases hlink
      have := h.latest i (List.mem_of_getElem? hrecalled)
      omega
    · have := h.links i j hlink
      omega

/-- So does a search among entries whose offsets rise. -/
theorem Before.foldl {s : SiblingSearch} {b n : Nat} {entries : List (Nat × Nat)} (h : s.Before b)
    (hrise : entries.Pairwise (·.2 < ·.2)) (hb : ∀ e ∈ entries, b ≤ e.2)
    (hn : b ≤ n ∧ ∀ e ∈ entries, e.2 < n) : (entries.foldl SiblingSearch.step s).Before n := by
  induction entries generalizing s b with
  | nil => exact ⟨fun o ho => Nat.lt_of_lt_of_le (h.latest o ho) hn.1,
      fun i j hij => ⟨(h.links i j hij).1, Nat.lt_of_lt_of_le (h.links i j hij).2 hn.1⟩⟩
  | cons e later ih =>
    obtain ⟨hlater, hrest⟩ := List.pairwise_cons.1 hrise
    exact ih (h.step (hb e (List.mem_cons_self ..))) hrest hlater
      ⟨hn.2 e (List.mem_cons_self ..), fun e' he' => hn.2 e' (List.mem_cons_of_mem _ he')⟩

end SiblingSearch

/-- The sibling links among entries read in a row. -/
def siblingLinks (entries : Array (Nat × Nat)) : Links :=
  (entries.foldl SiblingSearch.step ⟨∅, #[]⟩).links

/-- **Sibling links lead forward**, from an entry of a unit to a later place in it. -/
theorem lt_of_siblingLinks (u : EntryList) {i j : Nat}
    (h : (siblingLinks u.scan.entries)[i]? = some j) : i < j ∧ j < u.bytes.size := by
  obtain ⟨hrise, hinside⟩ := u.rising_scan
  rw [siblingLinks, ← Array.foldl_toList] at h
  exact (SiblingSearch.before_init.foldl hrise (fun _ _ => Nat.zero_le _)
    ⟨Nat.zero_le _, hinside⟩).links i j h

end Dwarf
end ParamAtlas
