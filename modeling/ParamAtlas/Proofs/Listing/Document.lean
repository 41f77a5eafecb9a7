/-
# When every row of a listing has a key of its own

The key of a row is the name it shows, or its symbol if another row shows that
name too.  Keys are thus drawn from two kinds of names at once, and the object
holds for each key the parameters of the last row with it
(`getElem?_document`).

Rows of distinct symbols share a key in one way only (`MixedClash`):

| row | shows | symbol | key |
| --- | --- | --- | --- |
| one | `n`, and no other row does | `p` | `n` |
| two | `q`, and so does a third row | `n` | `n` |

`nodup_keys_iff` says so of any rows, `oneKeyPerRow_join_iff` of the rows that
a history of definitions and a history of commits give, and `document_of_uses`
says the same by counting how many rows show a name.  The three symbols
`foo`, `_Z3foo` and `_Z6_Z3foo` are such rows, so the object may miss one.
-/

import Mathlib.Data.List.Dedup
import Mathlib.Data.List.Perm.Subperm
import ParamAtlas.Extraction
import ParamAtlas.Proofs.Listing.Row

namespace ParamAtlas
namespace Listing

/-- How many rows show a name. -/
def uses (rs : List Row) (n : String) : Nat := rs.countP (·.shown = n)

/-- Counting the names that rows show gives each name its number of rows. -/
theorem getD_nameUses (rs : List Row) (n : String) : (nameUses rs).getD n 0 = uses rs n := by
  suffices h : ∀ m : Std.HashMap String Nat,
      (rs.foldl (fun m r => m.insert r.shown (m.getD r.shown 0 + 1)) m).getD n 0 =
        m.getD n 0 + rs.countP (·.shown = n) by
    rw [nameUses, h, uses]
    simp
  induction rs with
  | nil => simp
  | cons r rest ih =>
    intro m
    rw [List.foldl_cons, ih, Std.HashMap.getD_insert, List.countP_cons]
    by_cases hn : r.shown = n
    · simp [hn]
      omega
    · simp [hn]

/-- The key of a row among others. -/
def keyIn (rs : List Row) (r : Row) : String := key (nameUses rs) r

/-- Of all rows, this one alone shows its name. -/
def ShownOnce (rs : List Row) (r : Row) : Prop := ∀ r' ∈ rs, r'.shown = r.shown → r' = r

/-- A name that is shown once is used once at most. -/
theorem uses_le_one_of_shownOnce {rs : List Row} (hn : rs.Nodup) {r : Row}
    (h : ShownOnce rs r) : uses rs r.shown ≤ 1 := by
  have : uses rs r.shown ≤ rs.count r := by
    refine List.countP_mono_left fun r' hr' hs => ?_
    simpa using h r' hr' (by simpa using hs)
  exact Nat.le_trans this (List.nodup_iff_count_le_one.1 hn r)

/-- A name that is shown by several rows is used more than once. -/
theorem one_lt_uses_of_not_shownOnce {rs : List Row} {r : Row} (hr : r ∈ rs)
    (h : ¬ShownOnce rs r) : 1 < uses rs r.shown := by
  unfold ShownOnce at h
  push Not at h
  obtain ⟨r', hr', hs, hne⟩ := h
  have hboth : [r, r'].Subperm rs := by
    refine List.subperm_of_subset (by simp [Ne.symm hne]) ?_
    simp [hr, hr']
  have : 2 ≤ rs.countP (·.shown = r.shown) := by
    simpa [hs] using hboth.countP_le (·.shown = r.shown)
  exact this

/-- The name that a row shows is used. -/
theorem uses_pos {rs : List Row} {r : Row} (hr : r ∈ rs) : 0 < uses rs r.shown :=
  List.countP_pos_iff.2 ⟨r, hr, by simp⟩

/-- **Being shown once is being used once,** where no row occurs twice. -/
theorem shownOnce_iff_uses {rs : List Row} (hn : rs.Nodup) {r : Row} (hr : r ∈ rs) :
    ShownOnce rs r ↔ uses rs r.shown = 1 := by
  constructor
  · intro h
    exact Nat.le_antisymm (uses_le_one_of_shownOnce hn h) (uses_pos hr)
  · intro h
    by_contra hnot
    exact absurd h (Nat.ne_of_gt (one_lt_uses_of_not_shownOnce hr hnot))

/-- A name that one row alone shows is that row's key. -/
theorem keyIn_of_shownOnce {rs : List Row} (hn : rs.Nodup) {r : Row} (h : ShownOnce rs r) :
    keyIn rs r = r.shown := by
  have := uses_le_one_of_shownOnce hn h
  rw [keyIn, key, getD_nameUses, if_neg (by omega)]

/-- A row whose name another row shows too has its symbol as key. -/
theorem keyIn_of_not_shownOnce {rs : List Row} {r : Row} (hr : r ∈ rs) (h : ¬ShownOnce rs r) :
    keyIn rs r = r.symbol := by
  have := one_lt_uses_of_not_shownOnce hr h
  rw [keyIn, key, getD_nameUses, if_pos this]

/-- What a fold of insertions holds at a key: the value of the last item with
that key, and without one what was there before. -/
theorem getElem?_foldl_insert (k : Row → String) (rs : List Row) (d : Document) (n : String) :
    (rs.foldl (fun d r => d.insert (k r) r.parameters) d)[n]? =
      ((rs.reverse.find? (k · = n)).map (·.parameters)).or d[n]? := by
  induction rs generalizing d with
  | nil => simp
  | cons r rest ih =>
    rw [List.foldl_cons, ih, Std.TreeMap.getElem?_insert, List.reverse_cons, List.find?_append]
    by_cases hn : k r = n
    · cases rest.reverse.find? (k · = n) <;> simp [hn]
    · cases rest.reverse.find? (k · = n) <;> simp [hn]

/-- **The object holds for each key the parameters of the last row with it.** -/
theorem getElem?_document (rs : List Row) (n : String) :
    (document rs)[n]? = (rs.reverse.find? (keyIn rs · = n)).map (·.parameters) := by
  rw [document, getElem?_foldl_insert, Std.TreeMap.getElem?_emptyc, Option.or_none]
  rfl

/-- The object holds under a key the parameters of the last row with that key. -/
theorem getElem?_document_filter (rs : List Row) (n : String) :
    (document rs)[n]? = ((rs.filter (keyIn rs · = n)).getLast?).map (·.parameters) := by
  rw [getElem?_document, ← List.head?_filter, List.filter_reverse, List.head?_reverse]

/-- The keys of a document are those of its rows. -/
theorem mem_keys_document (rs : List Row) (n : String) :
    n ∈ (document rs).keys ↔ n ∈ rs.map (keyIn rs) := by
  rw [Std.TreeMap.mem_keys, Std.TreeMap.mem_iff_isSome_getElem?, getElem?_document,
    Option.isSome_map, List.find?_isSome]
  simp

/-- The object has as many keys as the rows have different keys. -/
theorem size_document (rs : List Row) :
    (document rs).size = (rs.map (keyIn rs)).dedup.length := by
  have hperm : (document rs).keys.Perm (rs.map (keyIn rs)).dedup := by
    rw [List.perm_ext_iff_of_nodup Std.TreeMap.nodup_keys (List.nodup_dedup _)]
    intro n
    rw [mem_keys_document, List.mem_dedup]
  rw [← Std.TreeMap.length_keys, hperm.length_eq]

/-- A document has as many keys as rows exactly if all keys differ. -/
theorem size_eq_length_iff_nodup (rs : List Row) :
    (document rs).size = rs.length ↔ (rs.map (keyIn rs)).Nodup := by
  rw [size_document, ← List.dedup_eq_self, ← List.length_map (keyIn rs)]
  exact ⟨(List.dedup_sublist _).eq_of_length, fun h => by rw [h]⟩

/-- The object has one key for each row, and under it stand that row's own
parameters. -/
structure OneKeyPerRow (rs : List Row) : Prop where
  size : (document rs).size = rs.length
  parameters : ∀ r ∈ rs, (document rs)[keyIn rs r]? = some r.parameters

/-- So it has one for each row exactly then. -/
theorem oneKeyPerRow_iff_nodup (rs : List Row) :
    OneKeyPerRow rs ↔ (rs.map (keyIn rs)).Nodup := by
  constructor
  · intro h
    exact (size_eq_length_iff_nodup rs).1 h.size
  · intro h
    refine ⟨(size_eq_length_iff_nodup rs).2 h, fun r hr => ?_⟩
    have hsome : (rs.reverse.find? (keyIn rs · = keyIn rs r)).isSome := by
      rw [List.find?_isSome]
      exact ⟨r, List.mem_reverse.2 hr, by simp⟩
    obtain ⟨r', hr'⟩ := Option.isSome_iff_exists.1 hsome
    have hmem : r' ∈ rs := List.mem_reverse.1 (List.mem_of_find?_eq_some hr')
    have hkey : keyIn rs r' = keyIn rs r := by simpa using List.find?_some hr'
    rw [getElem?_document, hr', List.inj_on_of_nodup_map h hmem hr hkey]
    rfl

/-- One row alone shows a name, which is the symbol of a row whose own name is
shown twice. -/
def MixedClash (rs : List Row) : Prop :=
  ∃ r ∈ rs, ∃ r' ∈ rs, ShownOnce rs r ∧ ¬ShownOnce rs r' ∧ r.shown = r'.symbol

/-- **Rows of distinct symbols have distinct keys, a mixed clash apart.** -/
theorem nodup_keys_iff {rs : List Row} (hs : (rs.map Row.symbol).Nodup) :
    (rs.map (keyIn rs)).Nodup ↔ ¬MixedClash rs := by
  have hn : rs.Nodup := hs.of_map
  rw [List.nodup_map_iff_inj_on hn]
  constructor
  · rintro h ⟨r, hr, r', hr', hone, htwo, heq⟩
    have hkey : keyIn rs r = keyIn rs r' := by
      rw [keyIn_of_shownOnce hn hone, keyIn_of_not_shownOnce hr' htwo, heq]
    exact htwo (h r hr r' hr' hkey ▸ hone)
  · intro h r hr r' hr' hkey
    by_cases hone : ShownOnce rs r <;> by_cases hone' : ShownOnce rs r'
    · rw [keyIn_of_shownOnce hn hone, keyIn_of_shownOnce hn hone'] at hkey
      exact hone' r hr hkey
    · rw [keyIn_of_shownOnce hn hone, keyIn_of_not_shownOnce hr' hone'] at hkey
      exact absurd ⟨r, hr, r', hr', hone, hone', hkey⟩ h
    · rw [keyIn_of_not_shownOnce hr hone, keyIn_of_shownOnce hn hone'] at hkey
      exact absurd ⟨r', hr', r, hr, hone', hone, hkey.symm⟩ h
    · rw [keyIn_of_not_shownOnce hr hone, keyIn_of_not_shownOnce hr' hone'] at hkey
      exact List.inj_on_of_nodup_map hs hr hr' hkey

/-! ## Keys by count -/

/-- The name of a row if it is shown once among others, and its symbol otherwise. -/
def keyByUses (rs : List Row) (r : Row) : String :=
  if uses rs r.shown = 1 then r.shown else r.symbol

/-- A row's key is the shown name if that is used once, and the symbol otherwise. -/
theorem keyIn_eq_keyByUses {rs : List Row} {r : Row} (hr : r ∈ rs) :
    keyIn rs r = keyByUses rs r := by
  have hpos := uses_pos hr
  rw [keyIn, key, getD_nameUses, keyByUses]
  by_cases hone : uses rs r.shown = 1
  · rw [if_pos hone, if_neg (by omega)]
  · rw [if_neg hone, if_pos (by omega)]

/-- A clash is between a name used once and the symbol of a row whose name is used more
often. -/
theorem mixedClash_iff_uses {rs : List Row} (hn : rs.Nodup) :
    MixedClash rs ↔ ∃ r ∈ rs, ∃ r' ∈ rs,
      uses rs r.shown = 1 ∧ 1 < uses rs r'.shown ∧ r.shown = r'.symbol := by
  refine exists_congr fun r => and_congr_right fun hr => exists_congr fun r' =>
    and_congr_right fun hr' => ?_
  have := uses_pos hr'
  rw [shownOnce_iff_uses hn hr, shownOnce_iff_uses hn hr']
  exact and_congr_right fun _ => and_congr_left fun _ => by omega

/-- **Which keys an object has, and what stands under them.**  Where symbols are distinct,
the object has one key for each row exactly if no row shows, alone, a name that is the
symbol of a row whose own name is shown more than once.  Under a key stand in any case the
parameters of the last row with that key, where a row's key is its name if that is shown
once and its symbol otherwise. -/
theorem document_of_uses (rs : List Row) :
    ((rs.map Row.symbol).Nodup → ((document rs).size = rs.length ↔
        ¬∃ r ∈ rs, ∃ r' ∈ rs,
          uses rs r.shown = 1 ∧ 1 < uses rs r'.shown ∧ r.shown = r'.symbol)) ∧
      ∀ n, (document rs)[n]? =
        ((rs.filter (keyByUses rs · = n)).getLast?).map Row.parameters := by
  constructor
  · intro hs
    rw [size_eq_length_iff_nodup, nodup_keys_iff hs, mixedClash_iff_uses hs.of_map]
  · intro n
    have hkeys : rs.filter (keyIn rs · = n) = rs.filter (keyByUses rs · = n) :=
      List.filter_congr fun r hr => by rw [keyIn_eq_keyByUses hr]
    rw [getElem?_document_filter, hkeys]

/-- Three rows, the first two of which show one name, and the third the symbol of the
second. -/
def clashingRows : List Row :=
  [⟨"foo", "foo", 0x10, ["x"]⟩, ⟨"foo", "_Z3foo", 0x20, ["y"]⟩,
    ⟨"_Z3foo", "_Z6_Z3foo", 0x30, ["z"]⟩]

/-- Two of the rows have one key, and the later one has the value. -/
theorem document_of_uses_clashingRows :
    (clashingRows.map Row.symbol).Nodup ∧
      (document clashingRows).size ≠ clashingRows.length ∧
      (document clashingRows)["_Z3foo"]? = some ["z"] := by
  have hs : (clashingRows.map Row.symbol).Nodup := by decide
  obtain ⟨hsize, hvalue⟩ := document_of_uses clashingRows
  refine ⟨hs, fun h => (hsize hs).1 h (by decide), ?_⟩
  rw [hvalue]
  decide

/-! ## The rows of a join -/

/-- **The rows of a join have one key each, a mixed clash apart.**  Whatever was
defined and committed before, and whether names are demangled or not, the
object has one key for each row, with that row's own parameters, exactly if no
name that one row alone shows is the symbol of a row whose own name is shown
twice. -/
theorem oneKeyPerRow_join_iff (s : Settings) (history : List Symbol) (policy : DuplicatePolicy)
    (commits : List Subprogram) :
    OneKeyPerRow (rows s.rename (SymbolIndex.empty.insertAll history)
        ((ParameterTable.empty policy).commitAll commits)) ↔
      ¬MixedClash (rows s.rename (SymbolIndex.empty.insertAll history)
        ((ParameterTable.empty policy).commitAll commits)) := by
  rw [oneKeyPerRow_iff_nodup]
  exact nodup_keys_iff (nodup_symbols (SymbolIndex.follows_insertAll history))

/-- Without demangling a row shows its symbol, and nothing clashes. -/
theorem not_mixedClash_of_raw {x : SymbolIndex} {kept : List Symbol} (h : x.Follows kept)
    (t : ParameterTable) : ¬MixedClash (rows id x t) := by
  have hshown : ∀ r ∈ rows id x t, r.shown = r.symbol := by
    intro r hr
    obtain ⟨s, -, ps, -, rfl⟩ := (mem_rows h).1 hr
    rfl
  rintro ⟨r, hr, r', hr', hone, htwo, heq⟩
  have : r' = r := hone r' hr' (by rw [hshown r' hr', heq])
  exact htwo (this ▸ hone)

/-- Three functions of one parameter each, the first two of which are both
shown as `foo`, and the third as the symbol of the second. -/
def clashing : List Symbol :=
  [⟨"foo", 0x10, 0, .function, .global⟩, ⟨"_Z3foo", 0x20, 0, .function, .global⟩,
    ⟨"_Z6_Z3foo", 0x30, 0, .function, .global⟩]

/-- The parameters of the three functions. -/
def clashingCommits : List Subprogram :=
  [⟨0x10, [⟨"x", false⟩]⟩, ⟨0x20, [⟨"y", false⟩]⟩, ⟨0x30, [⟨"z", false⟩]⟩]

/-- What the rows of the clashing symbols are. -/
theorem mem_rows_clashing (r : Row) :
    r ∈ rows Demangle.name (SymbolIndex.empty.insertAll clashing)
        ((ParameterTable.empty .lastWins).commitAll clashingCommits) ↔
      r = ⟨"foo", "foo", 0x10, ["x"]⟩ ∨ r = ⟨"foo", "_Z3foo", 0x20, ["y"]⟩ ∨
        r = ⟨"_Z3foo", "_Z6_Z3foo", 0x30, ["z"]⟩ := by
  have foo : Demangle.name "foo" = "foo" := by decide +kernel
  have mangled : Demangle.name "_Z3foo" = "foo" := by decide +kernel
  have twice : Demangle.name "_Z6_Z3foo" = "_Z3foo" := by decide +kernel
  have hkept : SymbolIndex.definitions clashing = clashing := by decide
  rw [mem_rows (SymbolIndex.follows_insertAll clashing), hkept]
  simp only [ParameterTable.get?_commitAll_empty]
  simp [clashing, clashingCommits, DuplicatePolicy.winner?, Parameter.shown, foo, mangled, twice]

/-- **The object may miss a row.**  It has not always one key for each row. -/
theorem not_forall_oneKeyPerRow :
    ¬∀ (s : Settings) (history : List Symbol) (policy : DuplicatePolicy)
      (commits : List Subprogram),
      OneKeyPerRow (rows s.rename (SymbolIndex.empty.insertAll history)
        ((ParameterTable.empty policy).commitAll commits)) := by
  intro hall
  have h := hall ⟨"", "", .json, .lastWins, true, false, none⟩ clashing .lastWins clashingCommits
  rw [oneKeyPerRow_iff_nodup,
    nodup_keys_iff (nodup_symbols (SymbolIndex.follows_insertAll clashing))] at h
  refine h ⟨⟨"_Z3foo", "_Z6_Z3foo", 0x30, ["z"]⟩, (mem_rows_clashing _).2 (by simp),
    ⟨"foo", "_Z3foo", 0x20, ["y"]⟩, (mem_rows_clashing _).2 (by simp), ?_, ?_, rfl⟩
  · intro r hr hshown
    rcases (mem_rows_clashing r).1 hr with rfl | rfl | rfl
    · simp at hshown
    · simp at hshown
    · rfl
  · intro hone
    have := hone ⟨"foo", "foo", 0x10, ["x"]⟩ ((mem_rows_clashing _).2 (by simp)) rfl
    simp at this

end Listing
end ParamAtlas
