/-
# Two listings of one index

What changes in a listing when names are shown in another way, and what when the table
holds other parameters:

| differs | stays | may change |
| --- | --- | --- |
| the way names are shown | symbols, addresses and parameters | the order at one address |
| the parameters in the table | shown names, symbols, addresses and order | the parameters |

The first line is `map_content_rows_perm`, the second `map_title_rows`.

The sorting looks at the shown name, so the first kind of change moves rows, but never
past a row of another address (`map_address_rows`).  It does not look at parameters, so
the second kind moves none, and a row changes only if the two tables hold different
parameters at its address (`forall₂_rows`).
-/

import Mathlib.Data.List.Forall2
import ParamAtlas.Proofs.Listing.Order

namespace ParamAtlas

namespace Row

/-- What a row says of its symbol, whatever name it shows. -/
def content (r : Row) : String × Address × List String := (r.symbol, r.address, r.parameters)

/-- What a row says besides the parameters. -/
def title (r : Row) : String × String × Address := (r.shown, r.symbol, r.address)

/-- The row with the name shown in another way. -/
def renamed (rename : String → String) (r : Row) : Row := { r with shown := rename r.symbol }

/-- The row without its parameters. -/
def bare (r : Row) : Row := { r with parameters := [] }

end Row

namespace Listing

variable {rename rename' : String → String} {x : SymbolIndex} {t t' : ParameterTable}
  {kept : List Symbol}

/-! ## Other names -/

/-- **Shown in another way, the rows are the same** but for the names that they show. -/
theorem rows_perm_renamed (rename rename' : String → String) (x : SymbolIndex)
    (t : ParameterTable) :
    (rows rename' x t).Perm ((rows rename x t).map (Row.renamed rename')) := by
  have hblocks : (t.toList.flatMap fun p => rowsAt rename' x p.1 p.2) =
      (t.toList.flatMap fun p => rowsAt rename x p.1 p.2).map (Row.renamed rename') := by
    rw [List.map_flatMap]
    exact List.flatMap_congr fun p _ => by rw [rowsAt, rowsAt, List.map_map]; rfl
  refine (rows_perm rename' x t).trans ?_
  rw [hblocks]
  exact ((rows_perm rename x t).map _).symm

/-- A row shows its symbol in the way names are shown. -/
theorem shown_of_mem_rows {r : Row} (hr : r ∈ rows rename x t) : r.shown = rename r.symbol := by
  obtain ⟨r', -, rfl⟩ := List.mem_map.1 ((rows_perm_renamed rename rename x t).mem_iff.1 hr)
  rfl

/-- **However names are shown,** the rows have the same symbols, addresses and parameters.
-/
theorem map_content_rows_perm (rename rename' : String → String) (x : SymbolIndex)
    (t : ParameterTable) :
    ((rows rename' x t).map Row.content).Perm ((rows rename x t).map Row.content) := by
  have h := (rows_perm_renamed rename rename' x t).map Row.content
  rw [List.map_map] at h
  exact h

/-- The rows stand in ascending order of address. -/
theorem ascending_rows (rename : String → String) (x : SymbolIndex) (t : ParameterTable) :
    (rows rename x t).Pairwise (·.address ≤ ·.address) := by
  refine (sorted_rows rename x t).imp fun {r r'} h => ?_
  rcases Prod.Lex.toLex_le_toLex.1 h with hlt | ⟨heq, -⟩
  · exact UInt64.le_of_lt (UInt64.lt_iff_toNat_lt.2 hlt)
  · exact UInt64.le_of_eq (UInt64.toNat_inj.1 heq)

/-- **Row for row the addresses are the same**, in whatever way names are shown. -/
theorem map_address_rows (rename rename' : String → String) (x : SymbolIndex)
    (t : ParameterTable) :
    (rows rename' x t).map Row.address = (rows rename x t).map Row.address := by
  have hperm := (map_content_rows_perm rename rename' x t).map (·.2.1)
  rw [List.map_map, List.map_map] at hperm
  exact List.Perm.eq_of_pairwise (fun _ _ _ _ => UInt64.le_antisymm)
    (List.pairwise_map.2 (ascending_rows rename' x t))
    (List.pairwise_map.2 (ascending_rows rename x t)) hperm

/-! ## Other parameters -/

/-- Without their parameters the rows depend on the addresses in the table alone. -/
theorem map_bare_rows (rename : String → String) (x : SymbolIndex) (t : ParameterTable) :
    (rows rename x t).map Row.bare =
      (t.addresses.flatMap fun a => rowsAt rename x a []).mergeSort Row.le := by
  have hsort : (rows rename x t).map Row.bare =
      ((t.toList.flatMap fun p => rowsAt rename x p.1 p.2).map Row.bare).mergeSort Row.le :=
    List.map_mergeSort fun _ _ _ _ => rfl
  rw [hsort, List.map_flatMap, ParameterTable.addresses, List.flatMap_map]
  congr 1
  exact List.flatMap_congr fun p _ => by rw [rowsAt, rowsAt, List.map_map]; rfl

/-- **Tables with the same addresses give rows with the same titles**, in the same order. -/
theorem map_title_rows (h : t'.addresses = t.addresses) :
    (rows rename x t').map Row.title = (rows rename x t).map Row.title := by
  have hbare : (rows rename x t').map Row.bare = (rows rename x t).map Row.bare := by
    rw [map_bare_rows, map_bare_rows, h]
  have htitle := congrArg (List.map Row.title) hbare
  rwa [List.map_map, List.map_map] at htitle

/-- Rows of one title are the same if the tables agree at their address. -/
theorem eq_of_title_eq (hx : x.Follows kept) {r r' : Row} (hr : r ∈ rows rename x t)
    (hr' : r' ∈ rows rename x t') (htitle : r'.title = r.title)
    (hget : t'.get? r.address = t.get? r.address) : r' = r := by
  obtain ⟨s, -, ps, hps, rfl⟩ := (mem_rows hx).1 hr
  obtain ⟨s', -, ps', hps', rfl⟩ := (mem_rows hx).1 hr'
  simp only [Row.title, Prod.mk.injEq] at htitle hget
  obtain ⟨hshown, hsymbol, haddress⟩ := htitle
  rw [haddress, hget, hps, Option.some.injEq] at hps'
  rw [hsymbol, haddress, hps']

/-- **Row by row,** tables with the same addresses give the same titles, and the same
parameters wherever the tables agree. -/
theorem forall₂_rows (hx : x.Follows kept) (h : t'.addresses = t.addresses) :
    List.Forall₂ (fun r r' => r'.title = r.title ∧
      (t'.get? r.address = t.get? r.address → r' = r)) (rows rename x t) (rows rename x t') := by
  have htitles : (rows rename x t').map Row.title = (rows rename x t).map Row.title :=
    map_title_rows h
  have hlength := congrArg List.length htitles
  rw [List.length_map, List.length_map] at hlength
  refine List.forall₂_iff_get.2 ⟨hlength.symm, fun i hi hi' => ?_⟩
  have htitle : (rows rename x t')[i].title = (rows rename x t)[i].title := by
    have := congrArg (·[i]?) htitles
    simpa [hi, hi'] using this
  exact ⟨htitle, eq_of_title_eq hx (List.getElem_mem hi) (List.getElem_mem hi') htitle⟩

end Listing
end ParamAtlas
