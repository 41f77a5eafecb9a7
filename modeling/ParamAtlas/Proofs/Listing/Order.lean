/-
# The order of the symbol table does not show

An index that is filled in another order has the same symbols at each address,
in another order.  The rows are sorted, but by address and shown name only, so
rows that agree in both may change places.  Neither form of the listing shows
which of them comes first:

* in text, rows at one address have the same parameters, so rows that agree in
  address and shown name have the same line;
* in JSON, rows that show the same name have different keys, and of rows with the
  same key the sorting knows the last one.

The first holds line by line (`map_place_rows`), the second key by key
(`filter_keyIn_rows`), so a listing of symbols with distinct names is the same
to the last byte in whatever order they are defined (`write_rows_perm`).
-/

import Mathlib.Data.Prod.Lex
import Mathlib.Data.String.Basic
import ParamAtlas.Proofs.Listing.Document

namespace ParamAtlas

namespace Row

/-- What rows are sorted by: the address, then the shown name. -/
def place (r : Row) : ℕ ×ₗ String := toLex (r.address.toNat, r.shown)

/-- Rows are ordered by place. -/
theorem le_iff {a b : Row} : a.le b = true ↔ a.place ≤ b.place := by
  simp [le, place, Prod.Lex.toLex_le_toLex, UInt64.lt_iff_toNat_lt, UInt64.toNat_inj]

theorem le_trans (a b c : Row) (hab : a.le b = true) (hbc : b.le c = true) : a.le c = true := by
  rw [le_iff] at hab hbc ⊢
  exact hab.trans hbc

theorem le_total (a b : Row) : (a.le b || b.le a) = true := by
  rw [Bool.or_eq_true, le_iff, le_iff]
  exact LinearOrder.le_total a.place b.place

end Row

namespace SymbolIndex

/-- Symbols of distinct names stay as they are defined. -/
theorem definitions_eq_self {history : List Symbol} (hn : (history.map (·.name)).Nodup) :
    definitions history = history := by
  suffices h : ∀ kept : List Symbol, ((kept ++ history).map (·.name)).Nodup →
      history.foldl define kept = kept ++ history from h [] hn
  clear hn
  induction history with
  | nil => simp
  | cons s rest ih =>
    intro kept hn
    have hkept : kept.filter (·.name ≠ s.name) = kept := by
      rw [List.filter_eq_self]
      intro t ht
      rw [List.map_append, List.map_cons] at hn
      have hne := (List.nodup_append.1 hn).2.2 t.name (List.mem_map_of_mem ht) s.name
        (List.mem_cons_self ..)
      exact decide_eq_true hne
    rw [List.foldl_cons, define, hkept, ih, List.append_assoc]
    · rfl
    · rwa [List.append_assoc]

end SymbolIndex

namespace Listing

variable {rename : String → String} {x x' : SymbolIndex} {t : ParameterTable}
  {kept kept' : List Symbol}

/-- The rows of a listing ascend by place. -/
theorem sorted_rows (rename : String → String) (x : SymbolIndex) (t : ParameterTable) :
    (rows rename x t).Pairwise fun a b => a.place ≤ b.place :=
  (List.pairwise_mergeSort Row.le_trans Row.le_total _).imp Row.le_iff.1

/-- Indexes that follow the same symbols in different orders have the same rows. -/
theorem rows_perm_rows (h : x.Follows kept) (h' : x'.Follows kept') (hperm : kept.Perm kept') :
    (rows rename x t).Perm (rows rename x' t) := by
  refine ((rows_perm rename x t).trans ?_).trans (rows_perm rename x' t).symm
  refine List.Perm.flatMap_left _ fun p _ => ?_
  rw [rowsAt, rowsAt, h.atAddress, h'.atAddress]
  exact (hperm.filter _).map _

/-! ## Lines -/

/-- The line of a row by its place: the table knows the parameters. -/
def lineAt (t : ParameterTable) (place : ℕ ×ₗ String) : String :=
  let address := (ofLex place).1.toUInt64
  Row.line ⟨(ofLex place).2, "", address, ((t.get? address).getD []).map Parameter.shown⟩

/-- **The line of a row depends on its place alone,** since its parameters are those stored
at the address. -/
theorem line_eq_lineAt (h : x.Follows kept) {r : Row} (hr : r ∈ rows rename x t) :
    r.line = lineAt t r.place := by
  obtain ⟨s, -, ps, hps, rfl⟩ := (mem_rows h).1 hr
  have haddress : s.address.toNat.toUInt64 = s.address := UInt64.ofNat_toNat
  simp only [lineAt, Row.place, Row.line, ofLex_toLex, haddress, hps, Option.getD_some]

/-- **The places of the rows are the same in any order.** -/
theorem map_place_rows (hperm : (rows rename x t).Perm (rows rename x' t)) :
    (rows rename x t).map Row.place = (rows rename x' t).map Row.place :=
  List.Perm.eq_of_pairwise (fun _ _ _ _ => le_antisymm)
    (List.pairwise_map.2 (sorted_rows rename x t)) (List.pairwise_map.2 (sorted_rows rename x' t))
    (hperm.map _)

/-! ## Keys -/

/-- The keys of rows do not depend on their order. -/
theorem keyIn_perm {rs rs' : List Row} (hperm : rs.Perm rs') : keyIn rs = keyIn rs' := by
  funext r
  rw [keyIn, keyIn, key, key, getD_nameUses, getD_nameUses, uses, uses,
    hperm.countP_eq]

/-- Rows with the same key that show the same name are the same row. -/
theorem eq_of_keyIn_eq {rs : List Row} (hs : (rs.map Row.symbol).Nodup) {r r' : Row} (hr : r ∈ rs)
    (hr' : r' ∈ rs) (hshown : r.shown = r'.shown) (hkey : keyIn rs r = keyIn rs r') : r = r' := by
  by_contra hne
  have hone : ¬ShownOnce rs r := fun h => hne (h r' hr' hshown.symm).symm
  have hone' : ¬ShownOnce rs r' := fun h => hne (h r hr hshown)
  rw [keyIn_of_not_shownOnce hr hone, keyIn_of_not_shownOnce hr' hone'] at hkey
  exact hne (List.inj_on_of_nodup_map hs hr hr' hkey)

/-- **The rows with a certain key are the same in any order, and stand in the same order.** -/
theorem filter_keyIn_rows (h : x.Follows kept)
    (hperm : (rows rename x t).Perm (rows rename x' t)) (n : String) :
    (rows rename x t).filter (keyIn (rows rename x t) · = n) =
      (rows rename x' t).filter (keyIn (rows rename x' t) · = n) := by
  rw [← keyIn_perm hperm]
  refine List.Perm.eq_of_pairwise (fun r r' hr hr' hle hle' => ?_)
    ((sorted_rows rename x t).filter _) ((sorted_rows rename x' t).filter _) (hperm.filter _)
  rw [List.mem_filter, decide_eq_true_iff] at hr hr'
  have hplace : r.place = r'.place := le_antisymm hle hle'
  exact eq_of_keyIn_eq (nodup_symbols h) hr.1 (hperm.mem_iff.2 hr'.1)
    (congrArg (fun p => (ofLex p).2) hplace) (hr.2.trans hr'.2.symm)

/-- The same rows in another order make the same document. -/
theorem toList_document_rows (h : x.Follows kept)
    (hperm : (rows rename x t).Perm (rows rename x' t)) :
    (document (rows rename x t)).toList = (document (rows rename x' t)).toList := by
  refine (Std.TreeMap.Equiv.of_forall_constGet?_eq fun n => ?_).toList_eq
  rw [getElem?_document_filter, getElem?_document_filter, filter_keyIn_rows h hperm]

/-! ## Listings -/

/-- So both forms are written in the same pieces. -/
theorem pieces_rows (h : x.Follows kept) (h' : x'.Follows kept') (hperm : kept.Perm kept')
    (format : OutputFormat) :
    pieces format (rows rename x t) = pieces format (rows rename x' t) := by
  have hrows : (rows rename x t).Perm (rows rename x' t) := rows_perm_rows h h' hperm
  cases format with
  | text =>
    have hline : ∀ {y : SymbolIndex} {kept : List Symbol}, y.Follows kept →
        pieces .text (rows rename y t) =
          ((rows rename y t).map Row.place).flatMap fun p => [lineAt t p, "\n"] := by
      intro y kept hy
      rw [List.flatMap_map]
      exact List.flatMap_congr fun r hr => by rw [line_eq_lineAt hy hr]
    rw [hline h, hline h', map_place_rows hrows]
  | json => simp only [pieces, Document.pieces, toList_document_rows h hrows]

/-- **A listing does not depend on the order of the symbol table.**  Symbols with
distinct names, defined in any order, give a listing of the same bytes, whatever
the table holds, whether names are demangled or not, in either form, and also
where the listing finds no room to the end. -/
theorem write_rows_perm (s : Settings) {history history' : List Symbol}
    (hnames : (history.map (·.name)).Nodup) (hperm : history.Perm history') (t : ParameterTable)
    (format : OutputFormat) (sink : Sink) :
    write format (rows s.rename (SymbolIndex.empty.insertAll history) t) sink =
      write format (rows s.rename (SymbolIndex.empty.insertAll history') t) sink := by
  have hnames' : (history'.map (·.name)).Nodup := (hperm.map _).nodup_iff.1 hnames
  have h := SymbolIndex.follows_insertAll history
  have h' := SymbolIndex.follows_insertAll history'
  rw [SymbolIndex.definitions_eq_self hnames] at h
  rw [SymbolIndex.definitions_eq_self hnames'] at h'
  rw [write, write, pieces_rows h h' hperm]

/-- Two functions at one address, both of which are shown as `foo` when names are
demangled. -/
def aliases : List Symbol :=
  [⟨"foo", 0x10, 0, .function, .global⟩, ⟨"_Z3foo", 0x10, 0, .function, .global⟩]

/-- A run that demangles names and lists them as an object. -/
def demangling : Settings := ⟨"", "", .json, .lastWins, true, false, none⟩

/-- Two names of one address, which are shown alike, may be defined in either order. -/
theorem write_rows_perm_aliases :
    (aliases.map (·.name)).Nodup ∧ aliases.Perm aliases.reverse ∧
      write .json (rows demangling.rename (SymbolIndex.empty.insertAll aliases)
          ((ParameterTable.empty .lastWins).commitAll [⟨0x10, [⟨"x", false⟩]⟩])) (.fresh none) =
        write .json (rows demangling.rename (SymbolIndex.empty.insertAll aliases.reverse)
          ((ParameterTable.empty .lastWins).commitAll [⟨0x10, [⟨"x", false⟩]⟩])) (.fresh none) := by
  have hnames : (aliases.map (·.name)).Nodup := by decide
  have hperm : aliases.Perm aliases.reverse := (List.reverse_perm aliases).symm
  exact ⟨hnames, hperm, write_rows_perm demangling hnames hperm _ .json (.fresh none)⟩

end Listing
end ParamAtlas
