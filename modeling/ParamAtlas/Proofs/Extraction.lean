/-
# The rows of an extraction

What a listing says of an image, in terms of its symbol table and its debug
information alone.  A name is defined by the entries of the table that stand
for ordinary code at a nonzero address under that name; the last of them
counts (`LastDefinition`).  It has a row exactly if a subprogram that a walk
reaches has its address as entry address, and the row shows the parameters of
the first or the last such subprogram (`rows_ofTable_harvest`).
-/

import ParamAtlas.Extraction
import ParamAtlas.Proofs.Forest.Harvest
import ParamAtlas.Proofs.Listing.Row
import ParamAtlas.Proofs.Symbol.Table

namespace ParamAtlas

/-- **What an extraction lists.**  No symbol has two rows.  A row belongs to a
name whose last definition has an address that some subprogram reached by the
walks claims; it has that address, and the parameters are those of the first or
the last such subprogram, as they are shown, in order.  There is no other row,
and each such name has one. -/
theorem rows_ofTable_harvest {ε : Type} (s : Settings) (table : List TableSymbol) (F : Forest ε) :
    ((Listing.rows s.rename (.ofTable table) (F.harvest (.empty s.duplicates)).table).map
        Row.symbol).Nodup ∧
      ∀ r, r ∈ Listing.rows s.rename (.ofTable table) (F.harvest (.empty s.duplicates)).table ↔
        ∃ n e d, LastDefinition table n e ∧
          s.duplicates.winner? (F.claimants e.address) = some d ∧
          r = ⟨s.rename n, n, e.address,
            (F.parameterEntries d).map fun p => (F.parameter p).shown⟩ := by
  have hx := SymbolIndex.follows_insertAll (table.filterMap TableSymbol.function?)
  refine ⟨Listing.nodup_symbols hx, fun r => ?_⟩
  rw [SymbolIndex.ofTable, Listing.mem_rows hx]
  constructor
  · rintro ⟨sym, hsym, ps, hps, rfl⟩
    obtain ⟨e, hlast, he⟩ := SymbolIndex.lastOfName_filterMap.1 (SymbolIndex.mem_definitions.1 hsym)
    obtain ⟨hd, hsym'⟩ := SymbolIndex.function?_eq_some_iff.1 he
    have haddr : sym.address = e.address := by rw [hsym']
    rw [haddr, F.get?_harvest, if_neg hd.address, Option.map_eq_some_iff] at hps
    obtain ⟨d, hwin, rfl⟩ := hps
    exact ⟨sym.name, e, d, hlast, hwin, by rw [haddr, List.map_map]; rfl⟩
  · rintro ⟨n, e, d, hlast, hwin, rfl⟩
    have hd : e.Defines n := by
      obtain ⟨_, _, _, hd, _⟩ := hlast
      exact hd
    have he := SymbolIndex.function?_isSome_of_defines hd
    refine ⟨_, SymbolIndex.mem_definitions.2 (SymbolIndex.lastOfName_filterMap.2 ⟨e, hlast, he⟩),
      (F.parameterEntries d).map F.parameter, ?_, by rw [List.map_map]; rfl⟩
    rw [F.get?_harvest, if_neg hd.address, hwin]
    rfl

end ParamAtlas
