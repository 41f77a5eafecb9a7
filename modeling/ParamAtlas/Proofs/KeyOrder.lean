/-
# Lists in ascending order of a key

Symbols and rows are listed in ascending order of a key that several of them may share,
and those that share it keep the order that they had.  Such a list is known as soon as
its part at each key is (`eq_of_filter_key`), so two ways to list the same things are
compared key by key:

| the list is made by | its part at a key |
| --- | --- |
| sorting | what it was before (`filter_mergeSort`) |
| one block behind another, each at a key of its own | the block there (`filter_key_flatMap`) |

Where no block has the key there is nothing (`filter_key_flatMap_of_forall_ne`).
-/

import Mathlib.Data.List.Nodup

namespace ParamAtlas
namespace KeyOrder

variable {α ι κ : Type} {key : α → κ}

/-- The first item of a list in ascending order has the least key. -/
theorem head_le [LE κ] [Std.IsPreorder κ] {a b : α} {l : List α}
    (h : (a :: l).Pairwise (key · ≤ key ·)) (hb : b ∈ a :: l) : key a ≤ key b := by
  rcases List.mem_cons.1 hb with rfl | hb
  · exact Std.IsPreorder.le_refl _
  · exact List.rel_of_pairwise_cons h hb

variable [DecidableEq κ]

/-- Lists with the same parts at each key have the same items. -/
theorem mem_iff_of_filter_key {l l' : List α}
    (hat : ∀ b, l.filter (key · = key b) = l'.filter (key · = key b)) (a : α) :
    a ∈ l ↔ a ∈ l' := by
  have := congrArg (a ∈ ·) (hat a)
  simpa using this

/-- **Lists in ascending order of a key** are known from their parts at each key. -/
theorem eq_of_filter_key [LE κ] [Std.IsPartialOrder κ] {l l' : List α}
    (h : l.Pairwise (key · ≤ key ·)) (h' : l'.Pairwise (key · ≤ key ·))
    (hat : ∀ b, l.filter (key · = key b) = l'.filter (key · = key b)) : l = l' := by
  have hmem := mem_iff_of_filter_key hat
  induction l generalizing l' with
  | nil => exact (List.eq_nil_iff_forall_not_mem.2 fun b hb => by cases (hmem b).2 hb).symm
  | cons a rest ih =>
    cases l' with
    | nil => cases (hmem a).1 List.mem_cons_self
    | cons b rest' =>
      have hkey : key a = key b := Std.le_antisymm
        (head_le h ((hmem b).2 List.mem_cons_self)) (head_le h' ((hmem a).1 List.mem_cons_self))
      have hhead := hat a
      rw [List.filter_cons_of_pos (by simp), List.filter_cons_of_pos (by simp [hkey])] at hhead
      obtain ⟨rfl, htail⟩ := List.cons.inj hhead
      have hrest : ∀ c, rest.filter (key · = key c) = rest'.filter (key · = key c) := by
        intro c
        by_cases hk : key a = key c
        · exact hk ▸ htail
        · have := hat c
          rwa [List.filter_cons_of_neg (by simpa using hk),
            List.filter_cons_of_neg (by simpa using hk)] at this
      rw [ih h.of_cons h'.of_cons hrest (mem_iff_of_filter_key hrest)]

/-- **Sorting keeps a part in its order** if its items are all level with each other. -/
theorem filter_mergeSort {le : α → α → Bool}
    (htrans : ∀ a b c, le a b = true → le b c = true → le a c = true)
    (htotal : ∀ a b, (le a b || le b a) = true) {p : α → Bool}
    (hlevel : ∀ a b, p a = true → p b = true → le a b = true) (l : List α) :
    (l.mergeSort le).filter p = l.filter p := by
  have hperm : (l.mergeSort le).Perm l := List.mergeSort_perm ..
  have hsame : (l.filter p).Pairwise (le · · = true) := by
    refine List.pairwise_of_forall_mem_list fun a ha b hb => ?_
    exact hlevel a b (List.mem_filter.1 ha).2 (List.mem_filter.1 hb).2
  have hsublist : (l.filter p).Sublist (l.mergeSort le) :=
    List.sublist_mergeSort htrans htotal hsame List.filter_sublist
  have hparts := hsublist.filter p
  rw [List.filter_filter] at hparts
  simp only [Bool.and_self] at hparts
  exact (hparts.eq_of_length (hperm.filter _).length_eq.symm).symm

section Blocks

variable {place : ι → κ} {block : ι → List α} {l : List ι}

/-- Where no block lies there is nothing. -/
theorem filter_key_flatMap_of_forall_ne (hkey : ∀ i ∈ l, ∀ a ∈ block i, key a = place i) {k : κ}
    (hk : ∀ i ∈ l, place i ≠ k) : (l.flatMap block).filter (key · = k) = [] := by
  rw [List.filter_eq_nil_iff]
  intro a ha
  obtain ⟨i, hi, hmem⟩ := List.mem_flatMap.1 ha
  rw [decide_eq_true_iff, hkey i hi a hmem]
  exact hk i hi

/-- **Of blocks that lie at keys of their own**, the part at the key of one is that block. -/
theorem filter_key_flatMap (hplaces : (l.map place).Nodup)
    (hkey : ∀ i ∈ l, ∀ a ∈ block i, key a = place i) {i : ι} (hi : i ∈ l) :
    (l.flatMap block).filter (key · = place i) = block i := by
  obtain ⟨before, after, rfl⟩ := List.append_of_mem hi
  rw [List.map_append, List.map_cons, List.nodup_append, List.nodup_cons] at hplaces
  obtain ⟨-, ⟨hafter, -⟩, hbefore⟩ := hplaces
  have hleft : (before.flatMap block).filter (key · = place i) = [] :=
    filter_key_flatMap_of_forall_ne (fun j hj => hkey j (by simp [hj])) fun j hj =>
      hbefore _ (List.mem_map_of_mem hj) _ List.mem_cons_self
  have hright : (after.flatMap block).filter (key · = place i) = [] :=
    filter_key_flatMap_of_forall_ne (fun j hj => hkey j (by simp [hj])) fun j hj heq =>
      hafter (heq ▸ List.mem_map_of_mem hj)
  have hself : (block i).filter (key · = place i) = block i :=
    List.filter_eq_self.2 fun a ha => decide_eq_true (hkey i hi a ha)
  rw [List.flatMap_append, List.flatMap_cons, List.filter_append, List.filter_append, hleft,
    hright, hself, List.nil_append, List.append_nil]

end Blocks

end KeyOrder
end ParamAtlas
