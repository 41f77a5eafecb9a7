/-
# The rows of a listing

A listing joins an index with a table.  Where the index follows a list of
symbols (`SymbolIndex.Follows`), the rows are those of the symbols of that list
whose address is in the table, each with the parameters stored there
(`mem_rows`), and no two rows have one symbol (`nodup_symbols`), so there are at most
as many rows as symbols (`length_rows_le`).
-/

import Mathlib.Data.List.Nodup
import Mathlib.Data.List.Perm.Subperm
import ParamAtlas.Listing.Row
import ParamAtlas.Proofs.ParameterTable
import ParamAtlas.Proofs.Symbol.Contents

namespace ParamAtlas
namespace Listing

variable {rename : String → String} {x : SymbolIndex} {t : ParameterTable} {kept : List Symbol}

/-- Sorting the rows neither adds nor loses any. -/
theorem rows_perm (rename : String → String) (x : SymbolIndex) (t : ParameterTable) :
    (rows rename x t).Perm (t.toList.flatMap fun p => rowsAt rename x p.1 p.2) :=
  List.mergeSort_perm ..

/-- The rows at an address are those of the symbols there. -/
theorem mem_rowsAt (h : x.Follows kept) {a : Address} {ps : List Parameter} {r : Row} :
    r ∈ rowsAt rename x a ps ↔
      ∃ s ∈ kept, s.address = a ∧ r = ⟨rename s.name, s.name, a, ps.map Parameter.shown⟩ := by
  rw [rowsAt, h.atAddress]
  simp [and_assoc, eq_comm]

/-- **There is a row for each symbol whose address is in the table**, with the
parameters stored there, and no other row. -/
theorem mem_rows (h : x.Follows kept) {r : Row} :
    r ∈ rows rename x t ↔ ∃ s ∈ kept, ∃ ps, t.get? s.address = some ps ∧
      r = ⟨rename s.name, s.name, s.address, ps.map Parameter.shown⟩ := by
  rw [(rows_perm rename x t).mem_iff, List.mem_flatMap]
  constructor
  · rintro ⟨⟨a, ps⟩, hp, hr⟩
    obtain ⟨s, hs, rfl, rfl⟩ := (mem_rowsAt h).1 hr
    exact ⟨s, hs, ps, ParameterTable.mem_toList.1 hp, rfl⟩
  · rintro ⟨s, hs, ps, hp, rfl⟩
    exact ⟨(s.address, ps), ParameterTable.mem_toList.2 hp, (mem_rowsAt h).2 ⟨s, hs, rfl, rfl⟩⟩

/-- They come in the order of the symbols. -/
theorem map_symbol_rowsAt (h : x.Follows kept) (a : Address) (ps : List Parameter) :
    (rowsAt rename x a ps).map Row.symbol = (kept.filter (·.address = a)).map Symbol.name := by
  rw [rowsAt, h.atAddress, List.map_map]
  rfl

/-- **No two rows have one symbol.** -/
theorem nodup_symbols (h : x.Follows kept) : ((rows rename x t).map Row.symbol).Nodup := by
  rw [((rows_perm rename x t).map _).nodup_iff, List.map_flatMap, List.nodup_flatMap]
  constructor
  · intro p _
    rw [map_symbol_rowsAt h]
    exact h.names.sublist (List.filter_sublist.map _)
  · refine t.toList_ascending.imp fun {p q} hpq => ?_
    simp only [Function.onFun, map_symbol_rowsAt h]
    intro n hn hn'
    obtain ⟨s, hs, rfl⟩ := List.mem_map.1 hn
    obtain ⟨s', hs', hname⟩ := List.mem_map.1 hn'
    rw [List.mem_filter, decide_eq_true_iff] at hs hs'
    have : s' = s := List.inj_on_of_nodup_map h.names hs'.1 hs.1 hname
    exact UInt64.ne_of_lt hpq (by rw [← hs.2, ← hs'.2, this])

/-- A table without any address gives no rows. -/
theorem rows_empty (h : x.Follows kept) (policy : DuplicatePolicy) :
    rows rename x (.empty policy) = [] := by
  refine List.eq_nil_iff_forall_not_mem.2 fun r hr => ?_
  obtain ⟨s, -, ps, hps, -⟩ := (mem_rows h).1 hr
  rw [ParameterTable.get?_empty] at hps
  cases hps

/-- **There are at most as many rows as symbols**, for each has a name of its own. -/
theorem length_rows_le (h : x.Follows kept) : (rows rename x t).length ≤ x.size := by
  have hsubset : (rows rename x t).map Row.symbol ⊆ kept.map Symbol.name := by
    intro n hn
    obtain ⟨r, hr, rfl⟩ := List.mem_map.1 hn
    obtain ⟨s, hs, ps, -, rfl⟩ := (mem_rows h).1 hr
    exact List.mem_map_of_mem hs
  have := ((nodup_symbols h).subperm hsubset).length_le
  rwa [List.length_map, List.length_map, ← h.size_eq] at this

end Listing
end ParamAtlas
