/-
# The books of an extraction

Every count of an extraction is kept by a different hand: visits and subprograms by
the walks, addresses and collisions by the table, rows by the join.  They fit
together:

| count | is |
| --- | --- |
| units | the units that can be walked |
| entries visited, subprograms | sums over the walks of these units |
| addresses and collisions together | visited subprograms with a nonzero entry address |
| matched | the rows, at most one for each symbol |

One unit adds its own share to each of the first three (`gains_gather`), so a harvest
adds the shares of all units (`gains_harvest`), and an extraction shows the sums
(`balanced_of_ofBytes`).  Without debug information all counts but the symbols are 0.
-/

import Mathlib.Algebra.Order.BigOperators.Group.List
import Mathlib.Algebra.Order.Ring.Nat
import ParamAtlas.Proofs.Dwarf.Lookup
import ParamAtlas.Proofs.Extraction.Outcome

namespace ParamAtlas

@[simp] theorem WalkStats.visited_add (a b : WalkStats) :
    (a + b).visited = a.visited + b.visited := rfl

@[simp] theorem WalkStats.subprograms_add (a b : WalkStats) :
    (a + b).subprograms = a.subprograms + b.subprograms := rfl

namespace Forest

variable {ε : Type} (F : Forest ε)

/-- Whether an entry is a subprogram with a nonzero entry address. -/
def hasEntryAddress (e : ε) : Bool :=
  F.hasTag Tag.subprogram e && (F.address e .lowPc).any (· ≠ 0)

/-- The sum over units of what is counted among the entries that the walk of each
visits. -/
def sumOver (us : List (CompileUnit ε)) (count : List ε → Nat) : Nat :=
  (us.map fun u => count (F.visits u.root)).sum

/-- A harvest gains the shares of some units. -/
structure Gains (before after : Harvest) (us : List (CompileUnit ε)) : Prop where
  units : after.units = before.units + us.length
  visited : after.stats.visited = before.stats.visited + F.sumOver us List.length
  subprograms : after.stats.subprograms =
    before.stats.subprograms + F.sumOver us (List.countP (F.hasTag Tag.subprogram))
  claims : after.table.size + after.table.collisions =
    before.table.size + before.table.collisions + F.sumOver us (List.countP F.hasEntryAddress)

variable {F} {h h' h'' : Harvest} {us vs : List (CompileUnit ε)}

/-- Sums over two lists of units add up. -/
theorem sumOver_append (us vs : List (CompileUnit ε)) (count : List ε → Nat) :
    F.sumOver (us ++ vs) count = F.sumOver us count + F.sumOver vs count := by
  simp [sumOver]

/-- So do the gains of one list of units after another. -/
theorem Gains.append (h₁ : F.Gains h h' us) (h₂ : F.Gains h' h'' vs) :
    F.Gains h h'' (us ++ vs) where
  units := by rw [h₂.units, h₁.units, List.length_append, Nat.add_assoc]
  visited := by rw [h₂.visited, h₁.visited, sumOver_append, Nat.add_assoc]
  subprograms := by rw [h₂.subprograms, h₁.subprograms, sumOver_append, Nat.add_assoc]
  claims := by rw [h₂.claims, h₁.claims, sumOver_append, Nat.add_assoc]

/-- Of the subprograms visited those have a nonzero address that are counted. -/
theorem countP_subprogramsOf (visited : List ε) :
    ((F.subprogramsOf visited).map F.subprogram).countP (·.address ≠ 0) =
      visited.countP F.hasEntryAddress := by
  rw [List.countP_map, subprogramsOf, List.countP_filter]
  refine List.countP_congr fun e _ => ?_
  rw [Function.comp_apply, hasEntryAddress]
  cases h : F.address e .lowPc <;> simp [subprogram, h, and_comm]

/-- **A unit adds its share** to a harvest, and an index without one adds nothing. -/
theorem gains_gather (h : Harvest) (slot : UnitSlot ε) :
    F.Gains h (F.gather h slot) slot.unit?.toList := by
  cases slot with
  | blank => exact ⟨rfl, rfl, rfl, rfl⟩
  | rootless index info => exact ⟨rfl, rfl, rfl, rfl⟩
  | unit u =>
    refine ⟨rfl, ?_, ?_, ?_⟩
    · simp [gather_unit, UnitSlot.unit?, sumOver, statsOf]
    · simp [gather_unit, UnitSlot.unit?, sumOver, statsOf]
    · simp only [gather_unit, UnitSlot.unit?, Option.toList_some, sumOver, List.map_singleton,
        List.sum_singleton]
      rw [ParameterTable.size_add_collisions_commitAll, countP_subprogramsOf]

/-- **Units gathered one by one** add their shares. -/
theorem gains_foldl_gather (h : Harvest) (slots : List (UnitSlot ε)) :
    F.Gains h (slots.foldl F.gather h) (slots.filterMap (·.unit?)) := by
  induction slots generalizing h with
  | nil => exact ⟨rfl, rfl, rfl, rfl⟩
  | cons slot rest ih =>
    have := (gains_gather h slot).append (ih (F.gather h slot))
    cases hu : slot.unit? <;> simpa [hu] using this

/-- **A harvest adds the shares of all units** that can be walked. -/
theorem gains_harvest (F : Forest ε) (t : ParameterTable) :
    F.Gains ⟨t, 0, .zero, #[]⟩ (F.harvest t) F.compileUnits := gains_foldl_gather _ _

/-- What a harvest with an empty table counts: the sums over the units walked. -/
theorem counts_harvest_empty (F : Forest ε) (p : DuplicatePolicy) :
    (F.harvest (.empty p)).units = F.compileUnits.length ∧
      (F.harvest (.empty p)).stats.visited = F.sumOver F.compileUnits List.length ∧
      (F.harvest (.empty p)).stats.subprograms =
        F.sumOver F.compileUnits (List.countP (F.hasTag Tag.subprogram)) ∧
      (F.harvest (.empty p)).table.size + (F.harvest (.empty p)).table.collisions =
        F.sumOver F.compileUnits (List.countP F.hasEntryAddress) := by
  have h := F.gains_harvest (.empty p)
  exact ⟨h.units.trans (Nat.zero_add _), h.visited.trans (Nat.zero_add _),
    h.subprograms.trans (Nat.zero_add _), h.claims.trans (Nat.zero_add _)⟩

/-- A greater count for each unit makes a greater sum. -/
theorem sumOver_le_sumOver {count count' : List ε → Nat} (h : ∀ l, count l ≤ count' l) :
    F.sumOver us count ≤ F.sumOver us count' :=
  List.sum_le_sum fun _ _ => h _

/-- Among entries there are at most as many subprograms with a nonzero entry address
as subprograms, and at most as many of these as entries. -/
theorem countP_hasEntryAddress_le (l : List ε) :
    l.countP F.hasEntryAddress ≤ l.countP (F.hasTag Tag.subprogram) :=
  List.countP_mono_left fun _ _ h => (Bool.and_eq_true_iff.1 h).1

end Forest

namespace Extraction

/-- **The books of an extraction balance** with the debug information it was made from. -/
structure Balanced (x : Extraction) (debug : Except Failure (Dwarf.Store × List Event)) :
    Prop where
  matched : x.counts.matched = x.rows.length
  matched_le : x.counts.matched ≤ x.counts.symbols
  claims_le : x.counts.addresses + x.counts.collisions ≤ x.counts.subprograms
  subprograms_le : x.counts.subprograms ≤ x.counts.entriesVisited
  hasDebugInfo : x.counts.hasDebugInfo = debug.isOk
  /-- Without debug information there is nothing to count but symbols. -/
  absent : x.counts.hasDebugInfo = false →
    x.counts = ⟨x.counts.symbols, 0, 0, 0, 0, 0, 0, false⟩ ∧ x.rows = []
  /-- Otherwise the counts are sums over the units walked. -/
  present : x.counts.hasDebugInfo = true → ∃ s events, debug = .ok (s, events) ∧
    x.counts.units = s.forest.compileUnits.length ∧
    x.counts.entriesVisited = s.forest.sumOver s.forest.compileUnits List.length ∧
    x.counts.subprograms = s.forest.sumOver s.forest.compileUnits
      (List.countP (s.forest.hasTag Tag.subprogram)) ∧
    x.counts.addresses + x.counts.collisions = s.forest.sumOver s.forest.compileUnits
      (List.countP s.forest.hasEntryAddress)

/-- Joined with an index that follows a list, the findings of a store balance. -/
theorem balanced_join (s : Settings) {x : SymbolIndex} {kept : List Symbol}
    (hx : x.Follows kept) (path : String) (policy : DuplicatePolicy)
    (debug : Except Failure (Dwarf.Store × List Event)) :
    (join s x (.ofStore path policy debug)).Balanced debug := by
  have hmatched : (join s x (.ofStore path policy debug)).rows.length ≤ x.size :=
    Listing.length_rows_le hx
  rcases debug with f | ⟨store, events⟩
  · have hrows : (join s x (.ofStore path policy (.error f))).rows = [] :=
      Listing.rows_empty hx policy
    have hcounts : (join s x (.ofStore path policy (.error f))).counts =
        ⟨x.size, 0, 0, 0, 0, 0, 0, false⟩ := by
      change (⟨_, _, _, _, _, _, List.length (join s x _).rows, _⟩ : ExtractionCounts) = _
      rw [hrows]
      rfl
    refine ⟨rfl, hmatched, ?_, ?_, rfl, fun _ => ⟨by rw [hcounts], hrows⟩, fun h => ?_⟩
    · simp [hcounts]
    · simp [hcounts]
    · simp [hcounts] at h
  · obtain ⟨hunits, hvisited, hsubprograms, hclaims⟩ :=
      store.forest.counts_harvest_empty policy
    refine ⟨rfl, hmatched, ?_, ?_, rfl, fun h => Bool.noConfusion h,
      fun _ => ⟨store, events, rfl, hunits, hvisited, hsubprograms, hclaims⟩⟩
    · exact (hclaims.trans_le (Forest.sumOver_le_sumOver Forest.countP_hasEntryAddress_le)).trans
        hsubprograms.ge
    · exact (hsubprograms.trans_le (Forest.sumOver_le_sumOver fun _ => List.countP_le_length)).trans
        hvisited.ge

/-- **The books of every extraction balance.** -/
theorem balanced_of_ofBytes {s : Settings} {b : Bytes} {x : Extraction}
    (h : Extraction.ofBytes s b = .ok x) :
    ∃ i, Image.read s.input b = .ok i ∧ x.Balanced i.debugStore := by
  simp only [ofBytes, ofBytesBy, Dwarf.except_bind_eq_ok] at h
  obtain ⟨i, hi, ⟨index, indexed⟩, hindex, debug, hdebug, hx⟩ := h
  cases i.absorb_debugStore.symm.trans hdebug
  refine ⟨i, hi, ?_⟩
  unfold Image.symbolIndex at hindex
  split at hindex
  · cases hindex
  · rename_i table htable
    cases hindex
    cases hx
    have hfollows := SymbolIndex.follows_insertAll (table.filterMap TableSymbol.function?)
    have hjoin := balanced_join s hfollows s.input s.duplicates i.debugStore
    exact ⟨hjoin.matched, hjoin.matched_le, hjoin.claims_le, hjoin.subprograms_le,
      hjoin.hasDebugInfo, hjoin.absent, hjoin.present⟩

/-- A COFF file of two sections: one unit, whose root is a subprogram at address 16, and
the table of its abbreviations.  The one symbol of the file is a function there. -/
def oneFunction : Bytes :=
  #[100, 134, 2, 0, 0, 0, 0, 0, 100, 0, 0, 0, 1, 0, 0, 0, 0, 0, 0, 0,
    47, 52, 0, 0, 0, 0, 0, 0, 0, 0, 0, 0, 0, 0, 0, 0, 20, 0, 0, 0,
    148, 0, 0, 0, 0, 0, 0, 0, 0, 0, 0, 0, 0, 0, 0, 0, 0, 0, 0, 0,
    47, 49, 54, 0, 0, 0, 0, 0, 0, 0, 0, 0, 0, 0, 0, 0, 8, 0, 0, 0,
    168, 0, 0, 0, 0, 0, 0, 0, 0, 0, 0, 0, 0, 0, 0, 0, 0, 0, 0, 0,
    102, 0, 0, 0, 0, 0, 0, 0, 16, 0, 0, 0, 1, 0, 32, 0, 2, 0,
    30, 0, 0, 0, 46, 100, 101, 98, 117, 103, 95, 105, 110, 102, 111, 0,
    46, 100, 101, 98, 117, 103, 95, 97, 98, 98, 114, 101, 118, 0,
    16, 0, 0, 0, 4, 0, 0, 0, 0, 0, 8, 1, 16, 0, 0, 0, 0, 0, 0, 0,
    1, 46, 0, 17, 1, 0, 0, 0]

/-- The rows of its section table. -/
def oneFunctionSections : List Coff.SectionRow :=
  [⟨#[47, 52, 0, 0, 0, 0, 0, 0], 0, 0, 20, 148, 0⟩,
    ⟨#[47, 49, 54, 0, 0, 0, 0, 0], 0, 0, 8, 168, 0⟩]

/-- Its symbols, with the texts behind them. -/
def oneFunctionSymbols : Coff.SymbolTable :=
  ⟨[⟨100, 16, 1, 0x20, .external, []⟩], some ⟨118, 148⟩⟩

/-- What is in the file. -/
def oneFunctionImage : Image :=
  Coff.assemble oneFunction 0 oneFunctionSections.toArray oneFunctionSymbols
    (·.content oneFunction)

set_option maxRecDepth 2000 in
/-- Its sections are read, -/
theorem sectionRows_oneFunction :
    Coff.sectionRows oneFunction 20 2 = .ok oneFunctionSections.toArray := rfl

set_option maxRecDepth 2000 in
/-- its symbols are, -/
theorem symbolTable_oneFunction :
    Coff.symbolTable .short oneFunction 100 1 = .ok oneFunctionSymbols := by cbv

set_option maxRecDepth 2000 in
/-- and so is the whole file. -/
theorem parse_oneFunction : Image.parse oneFunction = .ok oneFunctionImage := by
  have hkind : Image.Kind.ofBytes? oneFunction = some .coff := by decide
  rw [Image.parse_eq_ok_iff, Image.ofBytes, hkind]
  change Coff.image oneFunction = _
  rw [Coff.image, show Coff.word oneFunction 16 2 = 0 from rfl,
    show Coff.word oneFunction 2 2 = 2 from rfl, show Coff.word oneFunction 8 4 = 100 from rfl,
    show Coff.word oneFunction 12 4 = 1 from rfl, sectionRows_oneFunction,
    symbolTable_oneFunction]
  rfl

set_option maxRecDepth 2000 in
/-- It has debug information. -/
theorem isOk_debugStore_oneFunction : oneFunctionImage.debugStore.isOk = true := by
  have hname : Coff.SectionRow.fullName ⟨#[47, 52, 0, 0, 0, 0, 0, 0], 0, 0, 20, 148, 0⟩
      oneFunction (some ⟨118, 148⟩) =
        some #[46, 100, 101, 98, 117, 103, 95, 105, 110, 102, 111] := by cbv
  have htext : Bytes.ofText ".debug_info" = #[46, 100, 101, 98, 117, 103, 95, 105, 110, 102, 111] :=
    rfl
  have hfound : oneFunctionImage.section? ".debug_info" = oneFunctionImage.sections.head? := by
    simp [Image.section?, Image.namesOf, oneFunctionImage, Coff.assemble, oneFunctionSections,
      oneFunctionSymbols, hname, htext]
  rw [Image.debugStore, Image.debugSections?, hfound]
  rfl

/-- Its books balance, with debug information to count. -/
theorem balanced_oneFunction :
    ∃ x i, ofBytes (.ofFiles "in.o" "out.txt") oneFunction = .ok x ∧
      x.counts.hasDebugInfo = true ∧ Image.read "in.o" oneFunction = .ok i ∧
      x.Balanced i.debugStore := by
  have hx : ofBytes (.ofFiles "in.o" "out.txt") oneFunction = .ok _ :=
    ofBytesBy_of_symbols_eq_some parse_oneFunction rfl
  obtain ⟨i, hi, hbalanced⟩ := balanced_of_ofBytes hx
  refine ⟨_, i, hx, ?_, hi, hbalanced⟩
  have hread : Image.read "in.o" oneFunction = .ok oneFunctionImage := by
    rw [Image.read, Image.readBy, parse_oneFunction]
    rfl
  rw [hbalanced.hasDebugInfo]
  cases hi.symm.trans hread
  exact isOk_debugStore_oneFunction

end Extraction
end ParamAtlas
