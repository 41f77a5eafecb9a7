/-
# The rows as a join

A listing is made address by address from the table, and then sorted.  It can be told
symbol by symbol as well: a symbol whose address is in the table gives one row, with the
parameters stored there, and any other symbol gives none (`rowOf?`).  Both ways make the
same rows in the same order, since both go through the addresses upwards and take the
symbols at one address as the index has them (`flatMap_rowsAt`).

What the sorting adds is told by three conditions (`Joined`):

| condition | rules out |
| --- | --- |
| the rows are those of the symbols, in some order | a row lost, doubled or altered |
| they ascend by address and shown name | disorder |
| rows equal in both stand as their symbols do in the index | ties that change places |

Together they leave one list of rows only, which is the listing (`joined_iff`).
-/

import ParamAtlas.Proofs.Listing.Order

namespace ParamAtlas
namespace Listing

/-- The row of a symbol, if its address is in the table: the name shown for it, its own
name, its address, and the parameters stored there, an artificial one in a comment. -/
def rowOf? (rename : String → String) (t : ParameterTable) (s : Symbol) : Option Row :=
  (t.get? s.address).map fun ps => ⟨rename s.name, s.name, s.address,
    ps.map fun p => if p.artificial then "/* " ++ p.name ++ " */" else p.name⟩

/-- Rows that join symbols, in the order given, with a table. -/
structure Joined (rename : String → String) (symbols : List Symbol) (t : ParameterTable)
    (rs : List Row) : Prop where
  perm : rs.Perm (symbols.filterMap (rowOf? rename t))
  ascending : rs.Pairwise fun r r' =>
    r.address < r'.address ∨ r.address = r'.address ∧ r.shown ≤ r'.shown
  stable : ∀ a n, rs.filter (fun r => r.address = a ∧ r.shown = n) =
    (symbols.filterMap (rowOf? rename t)).filter fun r => r.address = a ∧ r.shown = n

variable {rename : String → String} {x : SymbolIndex} {t : ParameterTable} {kept : List Symbol}

/-! ## Row by row -/

/-- The row of a symbol has its address. -/
theorem address_of_rowOf? {s : Symbol} {r : Row} (h : rowOf? rename t s = some r) :
    r.address = s.address := by
  obtain ⟨ps, -, rfl⟩ := Option.map_eq_some_iff.1 h
  rfl

/-- Rows at an address have it. -/
theorem address_of_mem_rowsAt {a : Address} {ps : List Parameter} {r : Row}
    (hr : r ∈ rowsAt rename x a ps) : r.address = a := by
  obtain ⟨s, -, rfl⟩ := List.mem_map.1 hr
  rfl

/-- The rows of symbols at one address are those of the symbols there. -/
theorem filter_address_filterMap (symbols : List Symbol) (a : Address) :
    (symbols.filterMap (rowOf? rename t)).filter (·.address = a) =
      (symbols.filter (·.address = a)).filterMap (rowOf? rename t) := by
  rw [List.filter_filterMap, List.filterMap_filter]
  refine List.filterMap_congr fun s _ => ?_
  cases hrow : rowOf? rename t s with
  | none => simp
  | some r =>
    rw [Option.filter_some, address_of_rowOf? hrow]

/-- Symbols at an address in the table all have rows. -/
theorem filterMap_rowOf?_of_get? {a : Address} {ps : List Parameter} (hps : t.get? a = some ps)
    (h : x.Follows kept) :
    (kept.filter (·.address = a)).filterMap (rowOf? rename t) = rowsAt rename x a ps := by
  rw [rowsAt, h.atAddress, ← List.filterMap_eq_map]
  refine List.filterMap_congr fun s hs => ?_
  obtain rfl : s.address = a := by simpa using (List.mem_filter.1 hs).2
  rw [rowOf?, hps]
  rfl

/-- Symbols at an address that is not in the table have no rows. -/
theorem filterMap_rowOf?_of_get?_eq_none {a : Address} (hnone : t.get? a = none)
    (symbols : List Symbol) :
    (symbols.filter (·.address = a)).filterMap (rowOf? rename t) = [] := by
  refine List.filterMap_eq_nil_iff.2 fun s hs => ?_
  obtain rfl : s.address = a := by simpa using (List.mem_filter.1 hs).2
  rw [rowOf?, hnone]
  rfl

/-- **Address by address through the table, or symbol by symbol through the index:** the
rows are the same, in the same order. -/
theorem flatMap_rowsAt (h : x.Follows kept) :
    (t.toList.flatMap fun p => rowsAt rename x p.1 p.2) =
      x.toList.filterMap (rowOf? rename t) := by
  have hblock : ∀ p ∈ t.toList, ∀ r ∈ rowsAt rename x p.1 p.2, r.address = p.1 :=
    fun _ _ _ hr => address_of_mem_rowsAt hr
  have hleft : (t.toList.flatMap fun p => rowsAt rename x p.1 p.2).Pairwise
      (·.address ≤ ·.address) := by
    refine List.pairwise_flatMap.2
      ⟨fun p hp => ?_, t.toList_ascending.imp fun hpq r hr r' hr' => ?_⟩
    · refine List.pairwise_of_forall_mem_list fun r hr r' hr' => ?_
      rw [address_of_mem_rowsAt hr, address_of_mem_rowsAt hr']
      exact UInt64.le_refl _
    · rw [address_of_mem_rowsAt hr, address_of_mem_rowsAt hr']
      exact UInt64.le_of_lt hpq
  have hright : (x.toList.filterMap (rowOf? rename t)).Pairwise (·.address ≤ ·.address) := by
    refine List.Pairwise.filterMap _ (fun s s' hle r hr r' hr' => ?_) h.ascending_toList
    rw [address_of_rowOf? hr, address_of_rowOf? hr']
    exact hle
  refine KeyOrder.eq_of_filter_key hleft hright fun r => ?_
  generalize r.address = a
  rw [filter_address_filterMap, h.filter_address_toList]
  cases hps : t.get? a with
  | none =>
    rw [filterMap_rowOf?_of_get?_eq_none hps]
    refine KeyOrder.filter_key_flatMap_of_forall_ne hblock fun p hp ha => ?_
    rw [← ha, ParameterTable.mem_toList.1 hp] at hps
    cases hps
  | some ps =>
    rw [filterMap_rowOf?_of_get? hps h]
    exact KeyOrder.filter_key_flatMap t.nodup_addresses hblock (ParameterTable.mem_toList.2 hps)

/-! ## The sorting -/

/-- Places are compared by address, then by shown name. -/
theorem place_le_iff {r r' : Row} :
    r.place ≤ r'.place ↔
      r.address < r'.address ∨ r.address = r'.address ∧ r.shown ≤ r'.shown := by
  rw [Row.place, Row.place, Prod.Lex.toLex_le_toLex, UInt64.lt_iff_toNat_lt, UInt64.toNat_inj]

/-- Rows with one place have the same address and shown name. -/
theorem place_eq_iff {r r' : Row} :
    r.place = r'.place ↔ r.address = r'.address ∧ r.shown = r'.shown := by
  rw [Row.place, Row.place, toLex_inj, Prod.mk.injEq, UInt64.toNat_inj]

/-- **The rows are those of the symbols one by one,** sorted by place. -/
theorem rows_eq_mergeSort (h : x.Follows kept) :
    rows rename x t = (x.toList.filterMap (rowOf? rename t)).mergeSort Row.le := by
  rw [← flatMap_rowsAt h]
  rfl

/-- The listing joins the index with the table. -/
theorem joined_rows (h : x.Follows kept) : Joined rename x.toList t (rows rename x t) where
  perm := rows_eq_mergeSort h ▸ List.mergeSort_perm ..
  ascending := (sorted_rows rename x t).imp place_le_iff.1
  stable a n := by
    rw [rows_eq_mergeSort h]
    refine KeyOrder.filter_mergeSort Row.le_trans Row.le_total (fun r r' hr hr' => ?_) _
    rw [decide_eq_true_iff] at hr hr'
    have hplace : r.place = r'.place :=
      place_eq_iff.2 ⟨hr.1.trans hr'.1.symm, hr.2.trans hr'.2.symm⟩
    exact Row.le_iff.2 hplace.le

/-- Only one list of rows joins symbols with a table. -/
theorem Joined.eq {symbols : List Symbol} {rs rs' : List Row} (h : Joined rename symbols t rs)
    (h' : Joined rename symbols t rs') : rs = rs' := by
  refine KeyOrder.eq_of_filter_key (h.ascending.imp place_le_iff.2)
    (h'.ascending.imp place_le_iff.2) fun r => ?_
  simp only [place_eq_iff]
  rw [h.stable, h'.stable]

/-- **What a listing is.**  Take any history of definitions and any history of commits.
Rows are the listing of the index and the table that these leave exactly if each symbol of
the index whose address is in the table has one row, no other symbol has any, each row
shows its symbol's name, address and stored parameters, and the rows ascend by address and
shown name, those equal in both in the order of the index.  No two rows of the listing have
one symbol. -/
theorem joined_iff (s : Settings) (history : List Symbol) (policy : DuplicatePolicy)
    (commits : List Subprogram) :
    let x := SymbolIndex.empty.insertAll history
    let t := (ParameterTable.empty policy).commitAll commits
    (∀ rs, Joined s.rename x.toList t rs ↔ rs = rows s.rename x t) ∧
      ((rows s.rename x t).map Row.symbol).Nodup := by
  intro x t
  have hx : x.Follows (SymbolIndex.definitions history) := SymbolIndex.follows_insertAll history
  refine ⟨fun rs => ⟨fun h => h.eq (joined_rows hx), ?_⟩, nodup_symbols hx⟩
  rintro rfl
  exact joined_rows hx

end Listing
end ParamAtlas
