/-
# What a history of definitions leaves in an index

A symbol index is filled by one definition after another.  What a history
leaves is a list with one symbol for each name, in order of definition:
defining a symbol takes the one of its name out of the list, wherever it
stands, and puts the new one behind all others (`SymbolIndex.define`).

The two halves of an index follow that list (`SymbolIndex.Follows`): the
symbols at an address are those of the list there, in the same order, and a
name has the address that the list gives it.  One definition keeps this
(`Follows.insert`), so it holds after every history (`follows_insertAll`).
Which symbols are left is then a question about the history alone: those
behind which no symbol has the same name (`mem_definitions`).
-/

import Mathlib.Data.List.Nodup
import ParamAtlas.Symbol.Index

namespace ParamAtlas
namespace SymbolIndex

/-- The list that is left when a symbol is defined behind those of a list. -/
def define (kept : List Symbol) (s : Symbol) : List Symbol :=
  kept.filter (·.name ≠ s.name) ++ [s]

/-- What a history of definitions leaves: the last symbol of each name, in
order of definition. -/
def definitions (history : List Symbol) : List Symbol := history.foldl define []

/-- An index follows a list: each address holds the symbols of the list there,
each name leads to the address that the list gives it, and no name stands in
the list twice. -/
structure Follows (x : SymbolIndex) (kept : List Symbol) : Prop where
  atAddress : ∀ a, x.atAddress a = kept.filter (·.address = a)
  homes : ∀ n, x.homes[n]? = (kept.find? (·.name = n)).map (·.address)
  names : (kept.map (·.name)).Nodup

variable {x : SymbolIndex} {kept : List Symbol}

/-- The empty index keeps nothing. -/
theorem follows_empty : empty.Follows [] where
  atAddress a := by simp [empty, atAddress]
  homes n := by simp [empty]
  names := by simp

/-- Unlinking a name at an address takes it from there and from nowhere else. -/
theorem getD_unlink (rows : Std.TreeMap Address (List Symbol) compare) (n : String)
    (a b : Address) :
    (unlink rows n a).getD b [] =
      if a = b then (rows.getD b []).filter (·.name ≠ n) else rows.getD b [] := by
  unfold unlink
  split
  · rename_i hnil
    rw [Std.TreeMap.getD_erase]
    by_cases hab : a = b
    · subst hab
      rw [if_pos (Std.compare_self), if_pos rfl, hnil]
    · rw [if_neg (by simpa using hab), if_neg hab]
  · rw [Std.TreeMap.getD_insert]
    by_cases hab : a = b
    · subst hab
      rw [if_pos (Std.compare_self), if_pos rfl]
    · rw [if_neg (by simpa using hab), if_neg hab]

/-- In a list that an index follows, a name has only one address. -/
theorem Follows.address_eq (h : x.Follows kept) {s : Symbol} (hs : s ∈ kept) {a : Address}
    (ha : x.homes[s.name]? = some a) : s.address = a := by
  rw [h.homes, Option.map_eq_some_iff] at ha
  obtain ⟨s', hs', rfl⟩ := ha
  have hname : s'.name = s.name := by simpa using List.find?_some hs'
  rw [List.inj_on_of_nodup_map h.names hs (List.mem_of_find?_eq_some hs') hname.symm]

/-- The rows of an index without the symbol of a name. -/
def rowsWithout (x : SymbolIndex) (n : String) : Std.TreeMap Address (List Symbol) compare :=
  match x.homes[n]? with
  | some a => unlink x.rows n a
  | none => x.rows

/-- Inserting takes the name out of its row, and puts the symbol at the end of its own. -/
theorem insert_eq (x : SymbolIndex) (s : Symbol) :
    x.insert s = ⟨(x.rowsWithout s.name).insert s.address
      ((x.rowsWithout s.name).getD s.address [] ++ [s]), x.homes.insert s.name s.address⟩ := rfl

/-- Without a name, each address holds what the list keeps there without it. -/
theorem Follows.getD_rowsWithout (h : x.Follows kept) (n : String) (b : Address) :
    (x.rowsWithout n).getD b [] = (kept.filter (·.name ≠ n)).filter (·.address = b) := by
  have hb : x.rows.getD b [] = kept.filter (·.address = b) := h.atAddress b
  have hcomm : (kept.filter (·.name ≠ n)).filter (·.address = b) =
      (x.rows.getD b []).filter (·.name ≠ n) := by
    rw [hb, List.filter_filter, List.filter_filter]
    exact List.filter_congr fun _ _ => Bool.and_comm ..
  rw [hcomm, rowsWithout]
  split
  · rename_i a ha
    rw [getD_unlink]
    split_ifs with hab
    · rfl
    · rw [hb, eq_comm, List.filter_eq_self]
      intro s hs
      obtain ⟨hs, hsb⟩ := List.mem_filter.1 hs
      rw [decide_eq_true_iff] at hsb ⊢
      rintro rfl
      exact hab ((h.address_eq hs ha).symm.trans hsb)
  · rename_i hnone
    rw [h.homes, Option.map_eq_none_iff, List.find?_eq_none] at hnone
    rw [hb, eq_comm, List.filter_eq_self]
    intro s hs
    simpa using hnone s (List.mem_filter.1 hs).1

/-- A name that is defined has the symbol just defined; all others keep theirs. -/
theorem find?_define (kept : List Symbol) (s : Symbol) (n : String) :
    (define kept s).find? (·.name = n) =
      if s.name = n then some s else kept.find? (·.name = n) := by
  rw [define, List.find?_append]
  split_ifs with hn
  · have hnone : (kept.filter (·.name ≠ s.name)).find? (·.name = n) = none := by
      rw [List.find?_eq_none]
      intro t ht
      simpa [hn] using (List.mem_filter.1 ht).2
    rw [hnone]
    simp [hn]
  · have hsame : (kept.filter (·.name ≠ s.name)).find? (·.name = n) =
        kept.find? (·.name = n) := by
      rw [List.find?_filter]
      congr 1
      funext t
      by_cases ht : t.name = n <;> simp [ht, Ne.symm hn]
    rw [hsame]
    simp [hn]

/-- **A definition keeps an index in step with its list.** -/
theorem Follows.insert (h : x.Follows kept) (s : Symbol) :
    (x.insert s).Follows (define kept s) where
  atAddress a := by
    rw [insert_eq, SymbolIndex.atAddress, Std.TreeMap.getD_insert, define, List.filter_append,
      h.getD_rowsWithout, h.getD_rowsWithout]
    by_cases ha : s.address = a
    · subst ha
      simp
    · rw [if_neg (by simpa using ha)]
      simp [ha]
  homes n := by
    rw [insert_eq, Std.HashMap.getElem?_insert, find?_define, h.homes]
    by_cases hn : s.name = n <;> simp [hn]
  names := by
    rw [define, List.map_append, List.nodup_append]
    refine ⟨h.names.sublist (List.filter_sublist.map _), by simp, ?_⟩
    simp only [List.mem_map, List.mem_filter, List.map_cons, List.map_nil, List.mem_singleton]
    rintro _ ⟨s', ⟨-, hs'⟩, rfl⟩ _ rfl
    simpa using hs'

/-- **An index that symbols are inserted into follows the list that they are defined in.**
-/
theorem Follows.insertAll (h : x.Follows kept) (history : List Symbol) :
    (x.insertAll history).Follows (history.foldl define kept) := by
  induction history generalizing x kept with
  | nil => exact h
  | cons s rest ih => exact ih (h.insert s)

/-- **After every history the index follows what the history leaves.** -/
theorem follows_insertAll (history : List Symbol) :
    (empty.insertAll history).Follows (definitions history) :=
  follows_empty.insertAll history

/-- What is kept after a definition: what was kept under other names, and the symbol. -/
theorem mem_define {s t : Symbol} : t ∈ define kept s ↔ (t ∈ kept ∧ t.name ≠ s.name) ∨ t = s := by
  simp [define]

/-- `s` stands in a history and no symbol behind it has its name. -/
def LastOfName (history : List Symbol) (s : Symbol) : Prop :=
  ∃ before after, history = before ++ s :: after ∧ ∀ t ∈ after, t.name ≠ s.name

/-- The first symbol is the last of its name if no later one has it. -/
theorem lastOfName_cons {history : List Symbol} {s t : Symbol} :
    LastOfName (s :: history) t ↔
      (t = s ∧ ∀ u ∈ history, u.name ≠ t.name) ∨ LastOfName history t := by
  constructor
  · rintro ⟨before, after, heq, hafter⟩
    rcases before with _ | ⟨b, before⟩
    · obtain ⟨rfl, rfl⟩ := List.cons.inj heq
      exact Or.inl ⟨rfl, hafter⟩
    · obtain ⟨rfl, rfl⟩ := List.cons.inj heq
      exact Or.inr ⟨before, after, rfl, hafter⟩
  · rintro (⟨rfl, hafter⟩ | ⟨before, after, rfl, hafter⟩)
    · exact ⟨[], history, rfl, hafter⟩
    · exact ⟨s :: before, after, rfl, hafter⟩

/-- What a history keeps: the last symbol of each name, and what no symbol of it replaces.
-/
theorem mem_foldl_define (history kept : List Symbol) (t : Symbol) :
    t ∈ history.foldl define kept ↔
      LastOfName history t ∨ (t ∈ kept ∧ ∀ u ∈ history, u.name ≠ t.name) := by
  induction history generalizing kept with
  | nil => simp [LastOfName]
  | cons s rest ih =>
    rw [List.foldl_cons, ih, mem_define, lastOfName_cons, List.forall_mem_cons]
    constructor
    · rintro (h | ⟨⟨hk, hn⟩ | rfl, hr⟩)
      · exact Or.inl (Or.inr h)
      · exact Or.inr ⟨hk, Ne.symm hn, hr⟩
      · exact Or.inl (Or.inl ⟨rfl, hr⟩)
    · rintro ((⟨rfl, hr⟩ | h) | ⟨hk, hn, hr⟩)
      · exact Or.inr ⟨Or.inr rfl, hr⟩
      · exact Or.inl h
      · exact Or.inr ⟨Or.inl ⟨hk, Ne.symm hn⟩, hr⟩

/-- **A history leaves the last symbol of each name.** -/
theorem mem_definitions {history : List Symbol} {t : Symbol} :
    t ∈ definitions history ↔ LastOfName history t := by
  rw [definitions, mem_foldl_define]
  simp

end SymbolIndex
end ParamAtlas
