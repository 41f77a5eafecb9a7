/-
# What an index holds after a history

All answers of an index come from one list: the symbols of its history behind which no
symbol has their name, in order of definition (`lastOfEach`).

| question | answer |
| --- | --- |
| the symbols at an address | those of the list at that address, in the same order |
| all symbols | the list, sorted by address; symbols at one address keep their order |
| the number of names | the length of the list |
| whether there is no name | whether the list is empty |

Definitions one after another leave that list (`definitions_eq_lastOfEach`), and an index
follows it.  What is left is the order of all symbols.  They are read row by row, and a
list in ascending order of address is known as soon as its part at each address is
(`KeyOrder.eq_of_filter_key`): sorting by address does not change these parts
(`filter_address_mergeSort`), and neither does reading row by row
(`Follows.filter_address_toList`).
-/

import ParamAtlas.Proofs.KeyOrder
import ParamAtlas.Proofs.Symbol.History

namespace ParamAtlas
namespace SymbolIndex

/-- The symbols of a history behind which no symbol has their name, in order. -/
def lastOfEach : List Symbol → List Symbol
  | [] => []
  | s :: rest => if ∃ t ∈ rest, t.name = s.name then lastOfEach rest else s :: lastOfEach rest

variable {x : SymbolIndex} {kept : List Symbol}

/-! ## The list of a history -/

/-- A history takes from a list what it defines anew, and leaves its own last symbols
behind that. -/
theorem foldl_define (history kept : List Symbol) :
    history.foldl define kept =
      kept.filter (fun s => ∀ t ∈ history, t.name ≠ s.name) ++ lastOfEach history := by
  induction history generalizing kept with
  | nil => simp [lastOfEach]
  | cons s rest ih =>
    have hkept : (kept.filter (·.name ≠ s.name)).filter (fun t => ∀ u ∈ rest, u.name ≠ t.name) =
        kept.filter fun t => ∀ u ∈ s :: rest, u.name ≠ t.name := by
      rw [List.filter_filter]
      refine List.filter_congr fun t _ => ?_
      rw [← Bool.decide_and, decide_eq_decide, List.forall_mem_cons, and_comm, ne_comm]
    have hnew : [s].filter (fun t => ∀ u ∈ rest, u.name ≠ t.name) ++ lastOfEach rest =
        lastOfEach (s :: rest) := by
      by_cases hagain : ∃ t ∈ rest, t.name = s.name
      · rw [lastOfEach, if_pos hagain, List.filter_cons_of_neg (by simpa using hagain)]
        rfl
      · rw [lastOfEach, if_neg hagain, List.filter_cons_of_pos (by simpa using hagain)]
        rfl
    rw [List.foldl_cons, ih, define, List.filter_append, hkept, List.append_assoc, hnew]

/-- **A history leaves the last symbol of each name**, in order of definition. -/
theorem definitions_eq_lastOfEach (history : List Symbol) :
    definitions history = lastOfEach history := by
  rw [definitions, foldl_define, List.filter_nil, List.nil_append]

/-! ## The number of names -/

/-- The names that have a home are those of the symbols kept. -/
theorem Follows.mem_homes (h : x.Follows kept) {n : String} :
    n ∈ x.homes ↔ n ∈ kept.map (·.name) := by
  rw [Std.HashMap.mem_iff_isSome_getElem?, h.homes, Option.isSome_map, List.find?_isSome]
  simp

/-- **The index counts the symbols of the list that it follows.** -/
theorem Follows.size_eq (h : x.Follows kept) : x.size = kept.length := by
  have hperm : x.homes.keys.Perm (kept.map (·.name)) := by
    refine (List.perm_ext_iff_of_nodup (Std.HashMap.nodup_keys ..) h.names).2 fun n => ?_
    rw [Std.HashMap.mem_keys, h.mem_homes]
  rw [size, ← Std.HashMap.length_keys, hperm.length_eq, List.length_map]

/-! ## Symbols by address -/

/-- Whether symbols stand in ascending order of address. -/
def leByAddress (s t : Symbol) : Bool := s.address ≤ t.address

theorem leByAddress_trans (s t u : Symbol) (hst : leByAddress s t = true)
    (htu : leByAddress t u = true) : leByAddress s u = true :=
  decide_eq_true (UInt64.le_trans (of_decide_eq_true hst) (of_decide_eq_true htu))

theorem leByAddress_total (s t : Symbol) : (leByAddress s t || leByAddress t s) = true := by
  simpa [leByAddress] using UInt64.le_total s.address t.address

/-- Symbols sorted by address ascend. -/
theorem ascending_mergeSort (l : List Symbol) :
    (l.mergeSort leByAddress).Pairwise (·.address ≤ ·.address) :=
  (List.pairwise_mergeSort leByAddress_trans leByAddress_total l).imp of_decide_eq_true

/-- Sorting symbols by address leaves those at each address in their order. -/
theorem filter_address_mergeSort (l : List Symbol) (a : Address) :
    (l.mergeSort leByAddress).filter (·.address = a) = l.filter (·.address = a) := by
  refine KeyOrder.filter_mergeSort leByAddress_trans leByAddress_total (fun s t hs ht => ?_) l
  rw [decide_eq_true_iff] at hs ht
  exact decide_eq_true (hs ▸ ht ▸ UInt64.le_refl _)

/-! ## All symbols -/

/-- The row of an address holds the symbols of the list there; where there is no row
there are none. -/
theorem Follows.getD_rows (h : x.Follows kept) (a : Address) :
    (x.rows[a]?).getD [] = kept.filter (·.address = a) := by
  rw [← h.atAddress, SymbolIndex.atAddress, Std.TreeMap.getD_eq_getD_getElem?]

/-- A row of the index has the symbols kept that are at its address. -/
theorem Follows.eq_filter_of_mem_rows (h : x.Follows kept) {p : Address × List Symbol}
    (hp : p ∈ x.rows.toList) : p.2 = kept.filter (·.address = p.1) := by
  rw [← h.getD_rows, Std.TreeMap.mem_toList_iff_getElem?_eq_some.1 hp, Option.getD_some]

/-- Each symbol is in the row of its address. -/
theorem Follows.address_of_mem_rows (h : x.Follows kept) {p : Address × List Symbol}
    (hp : p ∈ x.rows.toList) {s : Symbol} (hs : s ∈ p.2) : s.address = p.1 := by
  rw [h.eq_filter_of_mem_rows hp, List.mem_filter, decide_eq_true_iff] at hs
  exact hs.2

/-- Rows stand in strictly ascending order of address. -/
theorem pairwise_rows (x : SymbolIndex) : x.rows.toList.Pairwise (·.1 < ·.1) :=
  Std.TreeMap.ordered_keys_toList.imp fun h => Std.compare_eq_lt.1 h

/-- The symbols of an index ascend by address. -/
theorem Follows.ascending_toList (h : x.Follows kept) :
    x.toList.Pairwise (·.address ≤ ·.address) := by
  refine List.pairwise_flatMap.2 ⟨fun p hp => ?_, ?_⟩
  · refine List.pairwise_of_forall_mem_list fun s hs t ht => ?_
    rw [h.address_of_mem_rows hp hs, h.address_of_mem_rows hp ht]
    exact UInt64.le_refl _
  · refine x.pairwise_rows.imp_of_mem fun hp hq hpq s hs t ht => ?_
    rw [h.address_of_mem_rows hp hs, h.address_of_mem_rows hq ht]
    exact UInt64.le_of_lt hpq

/-- Reading an index row by row leaves the symbols at each address in their order. -/
theorem Follows.filter_address_toList (h : x.Follows kept) (a : Address) :
    x.toList.filter (·.address = a) = kept.filter (·.address = a) := by
  have haddress : ∀ p ∈ x.rows.toList, ∀ s ∈ p.2, s.address = p.1 :=
    fun p hp s hs => h.address_of_mem_rows hp hs
  rw [toList]
  cases hrow : x.rows[a]? with
  | none =>
    rw [← h.getD_rows, hrow, Option.getD_none]
    refine KeyOrder.filter_key_flatMap_of_forall_ne haddress fun p hp ha => ?_
    rw [← ha, Std.TreeMap.mem_toList_iff_getElem?_eq_some.1 hp] at hrow
    cases hrow
  | some row =>
    have hmem : (a, row) ∈ x.rows.toList := Std.TreeMap.mem_toList_iff_getElem?_eq_some.2 hrow
    have haddresses : (x.rows.toList.map (·.1)).Nodup :=
      List.pairwise_map.2 (x.pairwise_rows.imp UInt64.ne_of_lt)
    exact (KeyOrder.filter_key_flatMap haddresses haddress hmem).trans
      (h.eq_filter_of_mem_rows hmem)

/-- **All symbols of an index** are those of the list that it follows, sorted by
address; symbols at one address keep their order. -/
theorem Follows.toList_eq (h : x.Follows kept) : x.toList = kept.mergeSort leByAddress := by
  refine KeyOrder.eq_of_filter_key h.ascending_toList (ascending_mergeSort kept) fun s => ?_
  rw [h.filter_address_toList, filter_address_mergeSort]

/-- **An index lists the symbols kept,** each once. -/
theorem Follows.toList_perm (h : x.Follows kept) : x.toList.Perm kept := by
  rw [h.toList_eq]
  exact List.mergeSort_perm ..

/-- **What an index answers after a history.**  Take the symbols of the history behind
which no symbol has their name, in order.  The index gives those of them at an address in
that order; it gives all of them sorted by address, in that order within an address; it
counts them, and is empty if there are none.  No name stands in it twice. -/
theorem answers_insertAll (history : List Symbol) :
    (∀ a, (empty.insertAll history).atAddress a =
        (lastOfEach history).filter (·.address = a)) ∧
      (empty.insertAll history).toList =
        (lastOfEach history).mergeSort (fun s t => s.address ≤ t.address) ∧
      (empty.insertAll history).size = (lastOfEach history).length ∧
      ((empty.insertAll history).isEmpty = true ↔ lastOfEach history = []) ∧
      ((empty.insertAll history).toList.map (·.name)).Nodup := by
  have h : (empty.insertAll history).Follows (lastOfEach history) :=
    definitions_eq_lastOfEach history ▸ follows_insertAll history
  refine ⟨h.atAddress, h.toList_eq, h.size_eq, ?_, ?_⟩
  · rw [isEmpty, Std.HashMap.isEmpty_eq_size_eq_zero, beq_iff_eq, ← List.length_eq_zero_iff,
      ← h.size_eq]
    rfl
  · exact (h.toList_perm.map _).nodup_iff.2 h.names

end SymbolIndex
end ParamAtlas
