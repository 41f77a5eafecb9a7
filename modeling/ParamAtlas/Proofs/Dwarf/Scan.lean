/-
# The entries of a unit in a row

A plain reading of a unit takes one entry after another and knows how deep it
is only by counting: one step down after an entry that may have children, one
step up at each end of a list.  `entriesFrom` is that reading as a list, up to
the first code that cannot be read, the first values that cannot be passed over,
or the first entry above depth 0; it is what the scan of a unit finds
(`scan_entries`).

Depths and offsets in that list climb (`climbs_entriesFrom`).  What follows an
entry in the list is what a reading from the end of its values finds
(`entriesAfter`, `suffix_entriesFrom`), so its first child is the next entry of
the list, if that is one step deeper (`firstChild?_eq_childIn`).
-/

import ParamAtlas.Proofs.Dwarf.Siblings

namespace ParamAtlas
namespace Dwarf
namespace EntryList

variable (u : EntryList)

/-- Depth and offset of the entries read in a row from an offset on, where the
first of them stands at depth `depth`. -/
def entriesFrom (u : EntryList) (depth : Int) (o : Nat) : List (Nat × Nat) :=
  if o < u.bytes.size then
    match _ : u.code.run u.bytes o with
    | .error _ => []
    | .ok (none, p) => u.entriesFrom (depth - 1) p
    | .ok (some a, p) =>
      if depth < 0 then []
      else
        match _ : u.valuesEnd? ⟨a, p⟩ with
        | .error _ => [(depth.toNat, o)]
        | .ok q =>
          (depth.toNat, o) :: u.entriesFrom (if a.hasChildren then depth + 1 else depth) q
  else []
termination_by u.bytes.size - o
decreasing_by
  · have := u.code_lt _ _ _ _ ‹_›; omega
  · have := u.code_lt _ _ _ _ ‹u.code.run u.bytes o = _›
    have : p ≤ q := u.le_valuesEnd? ⟨a, p⟩ q ‹_›
    omega

/-- The entries read in a row behind an entry at depth `d`. -/
def entriesAfter (d : Nat) (e : EntryHead) : List (Nat × Nat) :=
  match u.valuesEnd? e with
  | .error _ => []
  | .ok q => u.entriesFrom (if e.abbreviation.hasChildren then (d : Int) + 1 else d) q

/-- The first child of an entry at depth `d` among the entries read after it: the
next one, if it is one step deeper. -/
def childIn (d : Nat) : List (Nat × Nat) → Option Nat
  | [] => none
  | (d', o) :: _ => if d' = d + 1 then some o else none

variable {u}

/-- Behind the unit there are no entries. -/
theorem entriesFrom_end {depth : Int} {o : Nat} (h : u.bytes.size ≤ o) :
    u.entriesFrom depth o = [] := by
  rw [entriesFrom, if_neg (by omega)]

/-- A code that cannot be read ends the entries. -/
theorem entriesFrom_fault {depth : Int} {o : Nat} {f : Fault}
    (h : u.code.run u.bytes o = .error f) : u.entriesFrom depth o = [] := by
  rw [entriesFrom]
  split
  · split <;> simp_all
  · rfl

/-- A null entry ends the children of one depth. -/
theorem entriesFrom_null {depth : Int} {o p : Nat} (ho : o < u.bytes.size)
    (h : u.code.run u.bytes o = .ok (none, p)) :
    u.entriesFrom depth o = u.entriesFrom (depth - 1) p := by
  rw [entriesFrom, if_pos ho]
  split <;> simp_all

/-- Above the root there are no entries. -/
theorem entriesFrom_above {depth : Int} {o p : Nat} {a : Abbreviation} (hd : depth < 0)
    (h : u.code.run u.bytes o = .ok (some a, p)) : u.entriesFrom depth o = [] := by
  rw [entriesFrom]
  split
  · split <;> simp_all
  · rfl

/-- A code other than 0 names its abbreviation. -/
theorem code_of_getElem? {o p c : Nat} {a : Abbreviation}
    (h : Reader.unsigned.run u.bytes o = .ok (c, p)) (hc : c ≠ 0)
    (ha : u.abbreviations[c]? = some a) : u.code.run u.bytes o = .ok (some a, p) := by
  simp [code, bind, Reader.andThen, h, hc, ha, Reader.give]

/-- An entry is found where a code with an abbreviation stands, behind the header and in the
unit. -/
theorem headAt?_eq_some_iff {o : Nat} {e : EntryHead} :
    u.headAt? o = some e ↔ u.headerSize ≤ o ∧ o < u.bytes.size ∧
      u.code.run u.bytes o = .ok (some e.abbreviation, e.values) := by
  constructor
  · intro h
    have hinside := u.inside_of_headAt? o e h
    simp only [headAt?, hinside, if_true] at h
    simp only [inside, Bool.and_eq_true, decide_eq_true_eq] at hinside
    refine ⟨hinside.1, hinside.2, ?_⟩
    split at h
    · rename_i hcode
      cases h
      exact hcode
    · cases h
    · cases h
  · rintro ⟨hhead, hlt, hcode⟩
    simp [headAt?, inside, hhead, hlt, hcode]

/-- An entry right behind the header is the root. -/
theorem root_of_headAt? {e : EntryHead} (h : u.headAt? u.headerSize = some e) :
    u.root = .ok (u.headerSize, e) := by
  obtain ⟨-, hlt, hcode⟩ := headAt?_eq_some_iff.1 h
  rw [root, rootFrom, if_pos hlt]
  split <;> simp_all

/-- The root is an entry. -/
theorem headAt?_of_rootFrom {o o' : Nat} {e : EntryHead} (hhead : u.headerSize ≤ o)
    (h : u.rootFrom o = .ok (o', e)) : u.headAt? o' = some e := by
  fun_induction u.rootFrom o with
  | case1 => cases h
  | case2 o hlt p hcode ih =>
    have := u.code_lt _ _ _ _ hcode
    exact ih (by omega) h
  | case3 o hlt a p hcode =>
    cases h
    exact headAt?_eq_some_iff.2 ⟨hhead, hlt, hcode⟩
  | case4 => cases h

/-- A first child is an entry. -/
theorem isSome_headAt?_of_firstChild? {o c : Nat} (h : u.firstChild? o = some c) :
    (u.headAt? c).isSome := by
  unfold firstChild? at h
  split at h
  · cases h
  · split at h
    · split at h
      · cases h
      · split at h
        · rename_i hc
          cases h
          exact hc
        · cases h
    · cases h

/-- A reading that starts at an entry finds it, and then what follows it. -/
theorem entriesFrom_entry {d o p : Nat} {a : Abbreviation} (ho : o < u.bytes.size)
    (h : u.code.run u.bytes o = .ok (some a, p)) :
    u.entriesFrom d o = (d, o) :: u.entriesAfter d ⟨a, p⟩ := by
  rw [entriesFrom, if_pos ho, entriesAfter]
  split
  · rename_i hcode
    rw [h] at hcode
    cases hcode
  · rename_i hcode
    rw [h] at hcode
    cases hcode
  · rename_i hcode
    rw [h] at hcode
    cases hcode
    rw [if_neg (by omega), Int.toNat_natCast]
    split
    · rename_i hend
      rw [hend]
    · rename_i hend
      rw [hend]

/-- **What a scan finds is the list of the entries in a row.** -/
theorem scanFrom_entries (seen : Array (Nat × Nat)) (depth : Int) (o : Nat) :
    (u.scanFrom seen depth o).entries.toList = seen.toList ++ u.entriesFrom depth o := by
  fun_induction u.scanFrom seen depth o with
  | case1 seen depth o hlt f hcode => rw [entriesFrom_fault hcode, List.append_nil]
  | case2 seen depth o hlt p hcode ih => rw [ih, entriesFrom_null hlt hcode]
  | case3 seen depth o hlt a p hcode hd => rw [entriesFrom_above hd hcode, List.append_nil]
  | case4 seen depth o hlt a p hcode hd seen' f hend =>
    obtain ⟨d, rfl⟩ := Int.eq_ofNat_of_zero_le (Int.not_lt.1 hd)
    rw [entriesFrom_entry hlt hcode, entriesAfter, hend]
    simp [seen']
  | case5 seen depth o hlt a p hcode hd seen' q hend ih =>
    obtain ⟨d, rfl⟩ := Int.eq_ofNat_of_zero_le (Int.not_lt.1 hd)
    rw [dite_eq_ite] at ih
    rw [ih, entriesFrom_entry hlt hcode, entriesAfter, hend]
    simp [seen']
  | case6 seen depth o hlt => rw [entriesFrom_end (by omega), List.append_nil]

/-- The entries that a scan of a unit finds. -/
theorem scan_entries (u : EntryList) : u.scan.entries.toList = u.entriesFrom 0 u.headerSize := by
  rw [scan, scanFrom_entries]
  rfl

/-- The offsets of the entries in a row rise. -/
theorem rising_entriesFrom (u : EntryList) :
    (u.entriesFrom 0 u.headerSize).Pairwise (·.2 < ·.2) :=
  u.scan_entries ▸ u.rising_scan.1

/-- **Depths and offsets of the entries in a row climb.** -/
theorem climbs_entriesFrom {n b o : Nat} {depth : Int} (hn : depth ≤ n) (hb : b ≤ o) :
    Climbs n b (u.entriesFrom depth o) := by
  fun_induction u.entriesFrom depth o generalizing n b with
  | case1 => trivial
  | case2 depth o hlt p hcode ih =>
    have := u.code_lt _ _ _ _ hcode
    exact ih (by omega) (by omega)
  | case3 => trivial
  | case4 depth o hlt a p hcode hd f hend => exact ⟨by omega, hb, trivial⟩
  | case5 depth o hlt a p hcode hd q hend ih =>
    have := u.code_lt _ _ _ _ hcode
    have hpq : p ≤ q := u.le_valuesEnd? _ _ hend
    exact ⟨by omega, hb, ih (by split <;> omega) (by omega)⟩
  | case6 => trivial

/-- Behind an entry depths rise by one at most, from that of its children on. -/
theorem climbs_entriesAfter {d o : Nat} {e : EntryHead} (he : u.headAt? o = some e) :
    Climbs (d + 1) (o + 1) (u.entriesAfter d e) := by
  have := u.lt_values o e he
  unfold entriesAfter
  split
  · trivial
  · rename_i q hend
    have := u.le_valuesEnd? _ _ hend
    exact climbs_entriesFrom (by split <;> omega) (by omega)

/-- **What follows an entry in the list** is what is read behind its values. -/
theorem suffix_entriesFrom {o d o' : Nat} {depth : Int} {later : List (Nat × Nat)}
    (hhead : u.headerSize ≤ o) (h : (d, o') :: later <:+ u.entriesFrom depth o) :
    ∃ e, u.headAt? o' = some e ∧ later = u.entriesAfter d e := by
  fun_induction u.entriesFrom depth o with
  | case1 => simp at h
  | case2 depth o hlt p hcode ih =>
    have := u.code_lt _ _ _ _ hcode
    exact ih (by omega) h
  | case3 => simp at h
  | case4 depth o hlt a p hcode hd f hend =>
    rcases List.suffix_cons_iff.1 h with heq | hnil
    · cases heq
      exact ⟨⟨a, p⟩, headAt?_eq_some_iff.2 ⟨hhead, hlt, hcode⟩, by rw [entriesAfter, hend]⟩
    · simp at hnil
  | case5 depth o hlt a p hcode hd q hend ih =>
    have := u.code_lt _ _ _ _ hcode
    have hpq : p ≤ q := u.le_valuesEnd? _ _ hend
    rcases List.suffix_cons_iff.1 h with heq | hrest
    · cases heq
      refine ⟨⟨a, p⟩, headAt?_eq_some_iff.2 ⟨hhead, hlt, hcode⟩, ?_⟩
      rw [entriesAfter, hend, Int.toNat_of_nonneg (by omega)]
    · exact ih (by omega) hrest
  | case6 => simp at h

/-- All that is read in a row is entries. -/
theorem isSome_headAt?_of_mem_entriesFrom {e : Nat × Nat} {depth : Int}
    (he : e ∈ u.entriesFrom depth u.headerSize) : (u.headAt? e.2).isSome := by
  obtain ⟨before, later, heq⟩ := List.append_of_mem he
  obtain ⟨head, hhead, -⟩ :=
    suffix_entriesFrom (Nat.le_refl u.headerSize) (heq ▸ List.suffix_append before (e :: later))
  exact Option.isSome_of_eq_some hhead

/-- No child follows where nothing is deeper. -/
theorem childIn_eq_none {n b d : Nat} {entries : List (Nat × Nat)} (h : Climbs n b entries)
    (hn : n ≤ d) : childIn d entries = none := by
  rcases entries with _ | ⟨⟨d', o'⟩, later⟩
  · rfl
  · have := h.1
    exact if_neg (by omega)

/-- A list of entries that starts at depth `d` or above it has no entry below that. -/
theorem childIn_entriesFrom (u : EntryList) (d o : Nat) : childIn d (u.entriesFrom d o) = none :=
  childIn_eq_none (climbs_entriesFrom (Int.le_refl d) (Nat.le_refl o)) (Nat.le_refl d)

/-- **The first child of an entry** is the next entry read, if that is one step
deeper. -/
theorem firstChild?_eq_childIn {d o : Nat} {e : EntryHead} (he : u.headAt? o = some e) :
    u.firstChild? o = childIn d (u.entriesAfter d e) := by
  obtain ⟨hhead, -, -⟩ := headAt?_eq_some_iff.1 he
  have hvalues := u.lt_values o e he
  simp only [firstChild?, he, entriesAfter]
  cases hend : u.valuesEnd? e with
  | error f => simp [childIn]
  | ok q =>
    have hq := u.le_valuesEnd? e q hend
    cases hc : e.abbreviation.hasChildren with
    | false => simp [childIn_entriesFrom]
    | true =>
      simp only [if_true]
      by_cases hlt : q < u.bytes.size
      · cases hcode : u.code.run u.bytes q with
        | error f =>
          rw [entriesFrom_fault hcode]
          simp [headAt?, hcode, childIn]
        | ok r =>
          obtain ⟨_ | a, p⟩ := r
          · rw [entriesFrom_null hlt hcode, Int.add_sub_cancel, childIn_entriesFrom]
            simp [headAt?, hcode]
          · have hentry := (headAt?_eq_some_iff (e := ⟨a, p⟩)).2 ⟨by omega, hlt, hcode⟩
            rw [show ((d : Int) + 1) = ((d + 1 : Nat) : Int) from rfl, entriesFrom_entry hlt hcode]
            simp [hentry, childIn]
      · rw [entriesFrom_end (by omega)]
        simp [headAt?, inside, hlt, childIn]

end EntryList
end Dwarf
end ParamAtlas
