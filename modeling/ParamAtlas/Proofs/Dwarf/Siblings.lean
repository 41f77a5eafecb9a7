/-
# Where sibling links lead

The sibling of an entry, among entries read in a row, is the first later one
that is not deeper, if it has the same depth (`siblingIn`).  The search for
siblings keeps one entry for each depth instead, and yet finds just these: as
long as depths rise by one at most and offsets rise (`Climbs`), the link from
every entry leads to its sibling, and there is none where it has no sibling
(`getElem?_siblingLinks`).

One step cuts the remembered entries off at the depth of the entry read and
puts that entry there (`latest_step`); the only link it can add starts at the
entry that was remembered at this depth (`links_step`).  So what happens to the
link from an entry is decided while it is remembered (`links_of_recalled`), and
nothing happens to it afterwards (`links_of_forgotten`).
-/

import ParamAtlas.Dwarf.Siblings

namespace ParamAtlas
namespace Dwarf

/-- The sibling of an entry at depth `d` among the entries read after it: the
first one that is not deeper, if its depth is `d`. -/
def siblingIn (d : Nat) : List (Nat × Nat) → Option Nat
  | [] => none
  | (d', o) :: later => if d < d' then siblingIn d later else if d' = d then some o else none

/-- Entries that start at depth `n` or above it and at offset `b` or behind it,
each at most one step deeper than the one before it and behind it. -/
def Climbs : Nat → Nat → List (Nat × Nat) → Prop
  | _, _, [] => True
  | n, b, (d, o) :: later => d ≤ n ∧ b ≤ o ∧ Climbs (d + 1) (o + 1) later

/-- Climbing entries stand at the offset they start from or behind it. -/
theorem Climbs.le_offset {n b : Nat} {entries : List (Nat × Nat)} (h : Climbs n b entries) :
    ∀ e ∈ entries, b ≤ e.2 := by
  induction entries generalizing n b with
  | nil => simp
  | cons e later ih =>
    intro e' he'
    rcases List.mem_cons.1 he' with rfl | he'
    · exact h.2.1
    · have := ih h.2.2 e' he'
      have := h.2.1
      omega

namespace SiblingSearch

variable {s : SiblingSearch}

/-- Once an entry is forgotten, its link stays as it is. -/
theorem links_of_forgotten {o : Nat} (ho : o ∉ s.latest.toList) {later : List (Nat × Nat)}
    (hlater : ∀ e ∈ later, e.2 ≠ o) : (later.foldl step s).links[o]? = s.links[o]? := by
  induction later generalizing s with
  | nil => rfl
  | cons e rest ih =>
    obtain ⟨d, o'⟩ := e
    have hne : o' ≠ o := hlater (d, o') (List.mem_cons_self ..)
    rw [List.foldl_cons, ih, links_step, if_neg fun h => ho (List.mem_of_getElem? h)]
    · rw [latest_step]
      intro hmem
      rcases List.mem_append.1 hmem with hmem | hmem
      · exact ho (List.mem_of_mem_take hmem)
      · exact hne (List.mem_singleton.1 hmem).symm
    · exact fun e he => hlater e (List.mem_cons_of_mem _ he)

/-- **While an entry is remembered, its link becomes the one to its sibling.** -/
theorem links_of_recalled {above below : List Nat} {o : Nat}
    (hlatest : s.latest.toList = above ++ o :: below) (habove : o ∉ above) (hbelow : o ∉ below)
    (hfresh : s.links[o]? = none) {later : List (Nat × Nat)}
    (hlater : ∀ e ∈ later, o < e.2) :
    (later.foldl step s).links[o]? = siblingIn above.length later := by
  induction later generalizing s below with
  | nil => exact hfresh
  | cons e rest ih =>
    obtain ⟨d, o'⟩ := e
    have hlt : o < o' := hlater (d, o') (List.mem_cons_self ..)
    have hrest : ∀ e ∈ rest, o < e.2 := fun e he => hlater e (List.mem_cons_of_mem _ he)
    have hne : ∀ e ∈ rest, e.2 ≠ o := fun e he => Nat.ne_of_gt (hrest e he)
    have hstep := latest_step s d o'
    rw [hlatest] at hstep
    have hlink := links_step s d o' o
    rw [hlatest] at hlink
    rw [List.foldl_cons]
    rcases Nat.lt_trichotomy d above.length with hd | rfl | hd
    · -- The list of `o` has ended: `o` is cut off, and nothing follows it.
      rw [List.take_append_of_le_length (by omega)] at hstep
      rw [List.getElem?_append_left hd, if_neg fun h => habove (List.mem_of_getElem? h)] at hlink
      rw [links_of_forgotten _ hne, hlink, hfresh, siblingIn, if_neg (by omega), if_neg (by omega)]
      rw [hstep, List.mem_append, List.mem_singleton]
      rintro (h | h)
      · exact habove (List.mem_of_mem_take h)
      · omega
    · -- The entry read is the sibling: it takes the place of `o`.
      rw [List.take_left] at hstep
      rw [List.getElem?_append_right (Nat.le_refl _), Nat.sub_self, List.getElem?_cons_zero,
        if_pos rfl] at hlink
      rw [links_of_forgotten _ hne, hlink, siblingIn, if_neg (by omega), if_pos rfl]
      rw [hstep, List.mem_append, List.mem_singleton]
      rintro (h | h)
      · exact habove h
      · omega
    · -- The entry read lies below `o`, which stays where it is.
      obtain ⟨k, rfl⟩ : ∃ k, d = above.length + (k + 1) := ⟨d - above.length - 1, by omega⟩
      rw [List.take_length_add_append, List.take_succ_cons, List.append_assoc,
        List.cons_append] at hstep
      rw [List.getElem?_append_right (by omega), Nat.add_sub_cancel_left, List.getElem?_cons_succ,
        if_neg fun h => hbelow (List.mem_of_getElem? h)] at hlink
      rw [siblingIn, if_pos (by omega)]
      refine ih hstep ?_ (hlink.trans hfresh) hrest
      rw [List.mem_append, List.mem_singleton]
      rintro (h | h)
      · exact hbelow (List.mem_of_mem_take h)
      · omega

/-- What a search knows when the next entry stands at depth `n` or above it and at
offset `b` or behind it: one entry for each of the `n` depths so far, and all that was
read stands before `b`. -/
structure Behind (s : SiblingSearch) (n b : Nat) : Prop extends s.Before b where
  depth : s.latest.toList.length = n

/-- Before the first entry the search is behind nothing. -/
theorem behind_init : (⟨∅, #[]⟩ : SiblingSearch).Behind 0 0 := ⟨before_init, rfl⟩

/-- A step goes on below the entry it reads. -/
theorem Behind.step {n b d o : Nat} (h : s.Behind n b) (hd : d ≤ n) (hb : b ≤ o) :
    (s.step (d, o)).Behind (d + 1) (o + 1) := by
  refine ⟨h.toBefore.step hb, ?_⟩
  have := h.depth
  rw [latest_step, List.length_append, List.length_take, List.length_singleton]
  omega

/-- Nothing is linked from where no entry has been read. -/
theorem Before.links_eq_none {b o : Nat} (h : s.Before b) (ho : b ≤ o) : s.links[o]? = none := by
  rw [Option.eq_none_iff_forall_not_mem]
  intro j hj
  have := h.links o j hj
  omega

/-- **After a search among climbing entries, each links to its sibling.** -/
theorem Behind.links_foldl {n b : Nat} (h : s.Behind n b) {before later : List (Nat × Nat)}
    {d o : Nat} (hclimbs : Climbs n b (before ++ (d, o) :: later)) :
    ((before ++ (d, o) :: later).foldl SiblingSearch.step s).links[o]? = siblingIn d later := by
  induction before generalizing s n b with
  | nil =>
    obtain ⟨hd, hb, hlater⟩ := hclimbs
    have hlatest := latest_step s d o
    have hlen : (s.latest.toList.take d).length = d := by
      have := h.depth
      rw [List.length_take]
      omega
    have habove : o ∉ s.latest.toList.take d := fun ho => by
      have := h.latest o (List.mem_of_mem_take ho)
      omega
    have hfresh : (s.step (d, o)).links[o]? = none := by
      rw [links_step, if_neg, h.links_eq_none hb]
      intro hrecalled
      have := h.latest o (List.mem_of_getElem? hrecalled)
      omega
    have := links_of_recalled hlatest habove (by simp) hfresh fun e he => hlater.le_offset e he
    rwa [hlen] at this
  | cons e before ih => exact ih (h.step hclimbs.1 hclimbs.2.1) hclimbs.2.2

/-- A link leads where one led before, or to an entry that has been read since. -/
theorem mem_of_links_foldl {later : List (Nat × Nat)} {i j : Nat}
    (h : (later.foldl step s).links[i]? = some j) :
    s.links[i]? = some j ∨ j ∈ later.map (·.2) := by
  induction later generalizing s with
  | nil => exact .inl h
  | cons e rest ih =>
    obtain ⟨d, o⟩ := e
    rcases ih h with hstep | hmem
    · rw [links_step] at hstep
      split at hstep
      · cases hstep
        exact .inr (List.mem_cons_self ..)
      · exact .inl hstep
    · exact .inr (List.mem_cons_of_mem _ hmem)

/-- A link starts at an entry that was remembered before or has been read since. -/
theorem source_of_links_foldl {later : List (Nat × Nat)} {i j : Nat}
    (h : (later.foldl step s).links[i]? = some j) :
    s.links[i]? = some j ∨ i ∈ s.latest.toList ∨ i ∈ later.map (·.2) := by
  induction later generalizing s with
  | nil => exact .inl h
  | cons e rest ih =>
    obtain ⟨d, o⟩ := e
    rcases ih h with hstep | hlatest | hmem
    · rw [links_step] at hstep
      split at hstep
      · rename_i hlink
        exact .inr (.inl (List.mem_of_getElem? hlink))
      · exact .inl hstep
    · rw [latest_step, List.mem_append, List.mem_singleton] at hlatest
      rcases hlatest with hlatest | rfl
      · exact .inr (.inl (List.mem_of_mem_take hlatest))
      · exact .inr (.inr (List.mem_cons_self ..))
    · exact .inr (.inr (List.mem_cons_of_mem _ hmem))

end SiblingSearch

/-- Wherever a sibling link leads, it starts from an entry that was read. -/
theorem source_of_getElem?_siblingLinks {entries : Array (Nat × Nat)} {i j : Nat}
    (h : (siblingLinks entries)[i]? = some j) : i ∈ entries.toList.map (·.2) := by
  rw [siblingLinks, ← Array.foldl_toList] at h
  rcases SiblingSearch.source_of_links_foldl h with hnone | hlatest | hmem
  · simp at hnone
  · simp at hlatest
  · exact hmem

/-- Whatever a sibling link starts from, it leads to an entry that was read. -/
theorem mem_of_getElem?_siblingLinks {entries : Array (Nat × Nat)} {i j : Nat}
    (h : (siblingLinks entries)[i]? = some j) : j ∈ entries.toList.map (·.2) := by
  rw [siblingLinks, ← Array.foldl_toList] at h
  rcases SiblingSearch.mem_of_links_foldl h with hnone | hmem
  · simp at hnone
  · exact hmem

/-- **Sibling links lead to siblings.** -/
theorem getElem?_siblingLinks {entries : Array (Nat × Nat)} {before later : List (Nat × Nat)}
    {d o : Nat} (heq : entries.toList = before ++ (d, o) :: later)
    (hclimbs : Climbs 0 0 entries.toList) : (siblingLinks entries)[o]? = siblingIn d later := by
  rw [siblingLinks, ← Array.foldl_toList]
  rw [heq] at hclimbs ⊢
  exact SiblingSearch.behind_init.links_foldl hclimbs

end Dwarf
end ParamAtlas
