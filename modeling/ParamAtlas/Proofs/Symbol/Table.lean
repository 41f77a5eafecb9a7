/-
# The index of a symbol table

An entry of a symbol table defines its name if it stands for ordinary code at a nonzero
address (`TableSymbol.Defines`):

| entry | defines its name |
| --- | --- |
| of a kind other than code | no |
| with flags of ELF and a type other than that of functions | no |
| at address 0 | no |
| without a name that can be read | has none |
| any other | yes |

The index of a table holds one symbol for each name that the table defines, and that
symbol comes from the last entry that defines the name (`lastOfName_filterMap`).  Entries
that define nothing leave no trace, wherever they stand: the table without them has the
same index (`ofTable_append_cons`).
-/

import ParamAtlas.Proofs.Symbol.Contents

namespace ParamAtlas

/-- A table entry stands for ordinary code at a nonzero address under a readable
name. -/
structure TableSymbol.Defines (e : TableSymbol) (n : String) : Prop where
  name : e.name = some n
  kind : e.kind = .text
  plainFunction : e.plainFunction = true
  address : e.address ≠ 0

/-- `e` defines a name and no entry behind it in the table does. -/
def LastDefinition (table : List TableSymbol) (n : String) (e : TableSymbol) : Prop :=
  ∃ before after, table = before ++ e :: after ∧ e.Defines n ∧ ∀ e' ∈ after, ¬e'.Defines n

/-- What the flags of an entry must allow. -/
theorem TableSymbol.plainFunction_iff {e : TableSymbol} :
    e.plainFunction = true ↔
      ∀ info, e.flags = .elf info → info &&& 0xf = SymbolFlags.functionType := by
  unfold TableSymbol.plainFunction
  cases e.flags with
  | elf info => simp [SymbolFlags.plainFunction]
  | other => simp [SymbolFlags.plainFunction]

/-- **When an entry defines a name,** told part by part. -/
theorem TableSymbol.defines_iff {e : TableSymbol} {n : String} :
    e.Defines n ↔ e.name = some n ∧ e.kind = .text ∧
      (∀ info, e.flags = .elf info → info &&& 0xf = SymbolFlags.functionType) ∧
      e.address ≠ 0 := by
  rw [← TableSymbol.plainFunction_iff]
  constructor
  · intro h
    exact ⟨h.name, h.kind, h.plainFunction, h.address⟩
  · rintro ⟨hname, hkind, hflags, haddress⟩
    exact ⟨hname, hkind, hflags, haddress⟩

/-- The last definition of a name defines it. -/
theorem LastDefinition.defines {table : List TableSymbol} {n : String} {e : TableSymbol}
    (h : LastDefinition table n e) : e.Defines n := by
  obtain ⟨-, -, -, hd, -⟩ := h
  exact hd

namespace SymbolIndex

/-- An entry gives the symbol that it defines. -/
theorem function?_eq_some_iff {e : TableSymbol} {s : Symbol} :
    e.function? = some s ↔
      e.Defines s.name ∧ s = ⟨s.name, e.address, e.size, e.kind.toClass, e.scope.toScope⟩ := by
  unfold TableSymbol.function?
  constructor
  · intro h
    split at h
    · cases h
    · rename_i n hn
      split at h
      · rename_i hc
        cases h
        exact ⟨⟨hn, hc.1, hc.2.1, hc.2.2⟩, rfl⟩
      · cases h
  · rintro ⟨hd, hs⟩
    rw [hd.name]
    simp only [hd.kind, hd.plainFunction, hd.address, and_self, ne_eq, not_false_eq_true, if_true]
    rw [hd.kind] at hs
    rw [← hs]

/-- An entry that defines a name gives a symbol. -/
theorem function?_isSome_of_defines {e : TableSymbol} {n : String} (h : e.Defines n) :
    e.function? = some ⟨n, e.address, e.size, e.kind.toClass, e.scope.toScope⟩ :=
  function?_eq_some_iff.2 ⟨h, rfl⟩

/-- **The last symbol of a name comes from the last entry that defines it.** -/
theorem lastOfName_filterMap {table : List TableSymbol} {s : Symbol} :
    LastOfName (table.filterMap TableSymbol.function?) s ↔
      ∃ e, LastDefinition table s.name e ∧ e.function? = some s := by
  constructor
  · rintro ⟨before, after, heq, hafter⟩
    obtain ⟨front, back, rfl, rfl, hback⟩ := List.filterMap_eq_append_iff.1 heq
    obtain ⟨skipped, e, back', rfl, -, he, rfl⟩ := List.filterMap_eq_cons_iff.1 hback
    refine ⟨e, ⟨front ++ skipped, back', by simp, (function?_eq_some_iff.1 he).1, ?_⟩, he⟩
    intro e' he' hd
    exact hafter _ (List.mem_filterMap.2 ⟨e', he', function?_isSome_of_defines hd⟩) rfl
  · rintro ⟨e, ⟨before, after, rfl, -, hafter⟩, he⟩
    refine ⟨before.filterMap TableSymbol.function?, after.filterMap TableSymbol.function?,
      by simp [he], fun t ht hname => ?_⟩
    obtain ⟨e', he', ht⟩ := List.mem_filterMap.1 ht
    exact hafter e' he' (hname ▸ (function?_eq_some_iff.1 ht).1)

/-- An entry that gives none defines nothing. -/
theorem function?_eq_none_iff {e : TableSymbol} : e.function? = none ↔ ∀ n, ¬e.Defines n := by
  constructor
  · intro hnone n hd
    rw [function?_isSome_of_defines hd] at hnone
    cases hnone
  · intro hd
    rw [Option.eq_none_iff_forall_ne_some]
    intro s hs
    exact hd s.name (function?_eq_some_iff.1 hs).1

/-- **A name that a table defines has a last definition** there. -/
theorem exists_lastDefinition_iff {table : List TableSymbol} {n : String} :
    (∃ e, LastDefinition table n e) ↔ ∃ e ∈ table, e.Defines n := by
  constructor
  · rintro ⟨e, before, after, rfl, hd, -⟩
    exact ⟨e, by simp, hd⟩
  · intro h
    induction table with
    | nil => simp at h
    | cons first rest ih =>
      by_cases hrest : ∃ e ∈ rest, e.Defines n
      · obtain ⟨e, before, after, rfl, hlast⟩ := ih hrest
        exact ⟨e, first :: before, after, rfl, hlast⟩
      · rw [List.exists_mem_cons_iff] at h
        refine ⟨first, [], rest, rfl, h.resolve_right hrest, fun e he hd => hrest ⟨e, he, hd⟩⟩

/-- **The index of a table holds what last definitions make**, and nothing else. -/
theorem mem_toList_ofTable {table : List TableSymbol} {s : Symbol} :
    s ∈ (ofTable table).toList ↔ ∃ e, LastDefinition table s.name e ∧
      s = ⟨s.name, e.address, e.size, .function, e.scope.toScope⟩ := by
  rw [ofTable, (follows_insertAll _).toList_perm.mem_iff, mem_definitions, lastOfName_filterMap]
  constructor
  · rintro ⟨e, hlast, he⟩
    have hs := (function?_eq_some_iff.1 he).2
    rw [hlast.defines.kind] at hs
    exact ⟨e, hlast, hs⟩
  · rintro ⟨e, hlast, hs⟩
    refine ⟨e, hlast, function?_eq_some_iff.2 ⟨hlast.defines, ?_⟩⟩
    rw [hlast.defines.kind]
    exact hs

/-- The names in the index of a table are those that the table defines. -/
theorem mem_names_ofTable {table : List TableSymbol} {n : String} :
    n ∈ (ofTable table).toList.map (·.name) ↔ ∃ e ∈ table, e.Defines n := by
  rw [List.mem_map, ← exists_lastDefinition_iff]
  constructor
  · rintro ⟨s, hs, rfl⟩
    obtain ⟨e, hlast, -⟩ := mem_toList_ofTable.1 hs
    exact ⟨e, hlast⟩
  · rintro ⟨e, hlast⟩
    refine ⟨⟨n, e.address, e.size, .function, e.scope.toScope⟩, ?_, rfl⟩
    exact mem_toList_ofTable.2 ⟨e, hlast, rfl⟩

/-- No name is in the index of a table twice. -/
theorem nodup_names_ofTable (table : List TableSymbol) :
    ((ofTable table).toList.map (·.name)).Nodup := by
  have hfollows := follows_insertAll (table.filterMap TableSymbol.function?)
  exact (hfollows.toList_perm.map _).nodup_iff.2 hfollows.names

/-- **An entry that defines nothing leaves no trace.** -/
theorem ofTable_append_cons (before after : List TableSymbol) {e : TableSymbol}
    (he : ∀ n, ¬e.Defines n) : ofTable (before ++ e :: after) = ofTable (before ++ after) := by
  rw [ofTable, ofTable, List.filterMap_append, List.filterMap_append,
    List.filterMap_cons_none (function?_eq_none_iff.2 he)]

/-- **What the index of a table keeps.**  An entry defines its name if it has one that can
be read, is code, is a function by its type if it has flags of ELF, and has an address
other than 0.  The index holds one symbol for each name that some entry defines, made
from the last entry that does, and no other.  Entries that define nothing do not change
it, wherever they stand.  All its symbols are functions at addresses other than 0. -/
theorem ofTable_keeps_last (table : List TableSymbol) :
    (∀ (e : TableSymbol) (n : String), e.Defines n ↔ e.name = some n ∧ e.kind = .text ∧
        (∀ info, e.flags = .elf info → info &&& 0xf = SymbolFlags.functionType) ∧
        e.address ≠ 0) ∧
      (∀ s, s ∈ (ofTable table).toList ↔ ∃ e, LastDefinition table s.name e ∧
        s = ⟨s.name, e.address, e.size, .function, e.scope.toScope⟩) ∧
      ((ofTable table).toList.map (·.name)).Nodup ∧
      (∀ n, n ∈ (ofTable table).toList.map (·.name) ↔ ∃ e ∈ table, e.Defines n) ∧
      (∀ before e after, table = before ++ e :: after → (∀ n, ¬e.Defines n) →
        ofTable table = ofTable (before ++ after)) ∧
      ∀ s ∈ (ofTable table).toList, s.kind = .function ∧ s.address ≠ 0 := by
  refine ⟨fun e n => TableSymbol.defines_iff, fun s => mem_toList_ofTable,
    nodup_names_ofTable table, fun n => mem_names_ofTable, ?_, ?_⟩
  · rintro before e after rfl he
    exact ofTable_append_cons before after he
  · intro s hs
    obtain ⟨e, hlast, hs⟩ := mem_toList_ofTable.1 hs
    rw [hs]
    exact ⟨rfl, hlast.defines.address⟩

/-- A function `f` of an ELF image. -/
def plainEntry : TableSymbol := ⟨some "f", 0x10, 4, .text, .linkage, .elf 0x12⟩

/-- Code of an ELF image under the same name that chooses a function at run time. -/
def choosingEntry : TableSymbol := ⟨some "f", 0x20, 4, .text, .linkage, .elf 0x1a⟩

/-- The entry for a function that is chosen at run time defines nothing. -/
theorem not_defines_choosingEntry (n : String) : ¬choosingEntry.Defines n := by
  intro h
  have hplain : choosingEntry.plainFunction = false := by decide
  rw [h.plainFunction] at hplain
  cases hplain

/-- So it takes nothing from the function of the same name. -/
theorem ofTable_keeps_last_choosingEntry :
    (∀ n, ¬choosingEntry.Defines n) ∧
      ofTable [plainEntry, choosingEntry] = ofTable [plainEntry] ∧
      ∀ s ∈ (ofTable [plainEntry, choosingEntry]).toList, s.kind = .function ∧ s.address ≠ 0 := by
  obtain ⟨-, -, -, -, hdrop, hall⟩ := ofTable_keeps_last [plainEntry, choosingEntry]
  exact ⟨not_defines_choosingEntry, hdrop [plainEntry] choosingEntry [] rfl
    not_defines_choosingEntry, hall⟩

end SymbolIndex
end ParamAtlas
