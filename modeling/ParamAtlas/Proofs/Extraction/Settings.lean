/-
# What a setting changes

Two extractions from one image that differ in one setting either fail alike or both
yield something (`EndAlike`), and what they yield is the same but for this:

| setting | changes |
| --- | --- |
| names are demangled | the names shown, and the order of rows at one address |
| who keeps a contested address | the parameters at addresses that several subprograms claim |

These are `demangling_endAlike` and `policies_endAlike`.

A switch of names leaves the table of parameters alone, and the listing is compared row
by row.  A switch of the policy changes the table, but both tables come from one history
of commits (`table_ofStore`), so they have the same addresses and collisions, and the
same parameters wherever there is only one claimant (`get?_harvest_of_claimedOnce`), or
everywhere if no two claims collide (`get?_eq_of_nodup_claimed`).
-/

import ParamAtlas.Proofs.Accounting
import ParamAtlas.Proofs.Extraction.Outcome
import ParamAtlas.Proofs.Forest.Reach
import ParamAtlas.Proofs.Listing.Comparison

namespace ParamAtlas

namespace Forest

variable {ε : Type}

/-- **If one subprogram alone claims an address, the policy does not matter there.** -/
theorem get?_harvest_of_claimedOnce {F : Forest ε} {a : Address} (h : ∃! x, F.Claims a x)
    (p p' : DuplicatePolicy) :
    (F.harvest (.empty p)).table.get? a = (F.harvest (.empty p')).table.get? a := by
  rw [get?_harvest, get?_harvest]
  refine ite_congr rfl (fun _ => rfl) fun _ => ?_
  rw [p.winner?_eq_of_forall_eq p' fun x hx y hy =>
    h.unique (mem_claimants_iff.1 hx) (mem_claimants_iff.1 hy)]

end Forest

namespace Findings

/-- The subprograms committed for what is known of an image's debug information. -/
def history : Except Failure (Dwarf.Store × List Event) → List Subprogram
  | .error _ => []
  | .ok (store, _) => store.forest.reached.map store.forest.subprogram

/-- **The table is made by commits,** which the policy does not choose. -/
theorem table_ofStore (path : String) (policy : DuplicatePolicy)
    (debug : Except Failure (Dwarf.Store × List Event)) :
    (ofStore path policy debug).table =
      (ParameterTable.empty policy).commitAll (history debug) := by
  rcases debug with f | ⟨store, events⟩
  · rfl
  · exact store.forest.table_harvest _

/-- **Under either policy the findings are the same** but for the parameters. -/
theorem counts_ofStore (path : String) (p p' : DuplicatePolicy)
    (debug : Except Failure (Dwarf.Store × List Event)) :
    (ofStore path p debug).table.SameClaims (ofStore path p' debug).table ∧
      (ofStore path p' debug).units = (ofStore path p debug).units ∧
      (ofStore path p' debug).stats.visited = (ofStore path p debug).stats.visited ∧
      (ofStore path p' debug).stats.subprograms = (ofStore path p debug).stats.subprograms ∧
      (ofStore path p' debug).hasDebugInfo = (ofStore path p debug).hasDebugInfo := by
  refine ⟨?_, ?_⟩
  · rw [table_ofStore, table_ofStore]
    exact ParameterTable.sameClaims_commitAll p p' (.refl _)
  · rcases debug with f | ⟨store, events⟩
    · exact ⟨rfl, rfl, rfl, rfl⟩
    · obtain ⟨hunits, hvisited, hsubprograms, -⟩ := store.forest.counts_harvest_empty p
      obtain ⟨hunits', hvisited', hsubprograms', -⟩ := store.forest.counts_harvest_empty p'
      exact ⟨hunits'.trans hunits.symm, hvisited'.trans hvisited.symm,
        hsubprograms'.trans hsubprograms.symm, rfl⟩

/-- **Without collisions the parameters are the same** too. -/
theorem toList_ofStore_of_collisions_eq_zero {path : String} {p : DuplicatePolicy}
    {debug : Except Failure (Dwarf.Store × List Event)}
    (h : (ofStore path p debug).table.collisions = 0) (p' : DuplicatePolicy) :
    (ofStore path p' debug).table.toList = (ofStore path p debug).table.toList := by
  rw [table_ofStore, ParameterTable.collisions_eq_zero_iff] at h
  rw [table_ofStore, table_ofStore]
  exact ParameterTable.toList_eq_of_get? (ParameterTable.get?_eq_of_nodup_claimed _ _ h)

end Findings

/-- One subprogram alone, of all that the walks of an image's units visit, has this entry
address. -/
def Image.ClaimedOnce (i : Image) (a : Address) : Prop :=
  ∃ store events, i.debugStore = .ok (store, events) ∧ ∃! e, store.forest.Claims a e

namespace Extraction

variable {s s' : Settings} {b : Bytes}

/-- Two runs end alike: with the same failure, or each with an extraction, and the two
are related. -/
def EndAlike (R : Extraction → Extraction → Prop) :
    Except Failure Extraction → Except Failure Extraction → Prop
  | .ok x, .ok y => R x y
  | .error f, .error g => f = g
  | .ok _, .error _ => False
  | .error _, .ok _ => False

/-- Extractions from one image end alike if they are related wherever the image has a
table of symbols. -/
theorem endAlike_ofBytes {R : Extraction → Extraction → Prop} (hinput : s'.input = s.input)
    (h : ∀ i table, Image.ofBytes b = .ok i → R (ofTable s i table) (ofTable s' i table)) :
    EndAlike R (ofBytes s b) (ofBytes s' b) := by
  rw [ofBytes, ofBytes]
  cases hi : Image.parse b with
  | error why =>
    rw [ofBytesBy_of_error hi, ofBytesBy_of_error hi, hinput]
    rfl
  | ok i =>
    cases hsymbols : i.symbols with
    | none =>
      rw [ofBytesBy_of_symbols_eq_none hi hsymbols, ofBytesBy_of_symbols_eq_none hi hsymbols,
        hinput]
      rfl
    | some table =>
      rw [ofBytesBy_of_symbols_eq_some hi hsymbols, ofBytesBy_of_symbols_eq_some hi hsymbols]
      exact h i table (Image.parse_eq_ok_iff.1 hi)

/-- The rows of an extraction are those of its index and its findings. -/
theorem rows_ofTable (s : Settings) (i : Image) (table : List TableSymbol) :
    (ofTable s i table).rows = Listing.rows s.rename (.ofTable table)
      (Findings.ofStore s.input s.duplicates i.debugStore).table := rfl

/-! ## Names -/

/-- The second extraction is the first one with names demangled. -/
structure Demangles (x y : Extraction) : Prop where
  counts : y.counts = x.counts
  /-- Every row has a counterpart with the same symbol, address and parameters. -/
  content : (y.rows.map Row.content).Perm (x.rows.map Row.content)
  plain : ∀ r ∈ x.rows, r.shown = r.symbol
  demangled : ∀ r ∈ y.rows, r.shown = Demangle.name r.symbol
  ascending : x.rows.Pairwise (·.address ≤ ·.address) ∧ y.rows.Pairwise (·.address ≤ ·.address)
  /-- Row for row the addresses are the same, so only rows at one address change places. -/
  addresses : y.rows.map Row.address = x.rows.map Row.address
  atAddress : ∀ a, ((y.rows.filter (·.address = a)).map Row.content).Perm
    ((x.rows.filter (·.address = a)).map Row.content)

/-- **Demangling is cosmetic.**  Two extractions that differ in it alone end alike.  They
have the same counts, and the same rows but for the names shown and the order of the
rows at one address. -/
theorem demangling_endAlike (s : Settings) (b : Bytes) :
    EndAlike Demangles (ofBytes { s with demangle := false } b)
      (ofBytes { s with demangle := true } b) := by
  refine endAlike_ofBytes rfl fun i table _ => ?_
  let x := SymbolIndex.ofTable table
  let t := (Findings.ofStore s.input s.duplicates i.debugStore).table
  have hcontent := Listing.map_content_rows_perm id Demangle.name x t
  have hlength := hcontent.length_eq
  rw [List.length_map, List.length_map] at hlength
  exact {
    counts := congrArg (fun n => { (ofTable { s with demangle := false } i table).counts with
      matched := n }) hlength
    content := hcontent
    plain := fun _ => Listing.shown_of_mem_rows
    demangled := fun _ => Listing.shown_of_mem_rows
    ascending := ⟨Listing.ascending_rows id x t, Listing.ascending_rows Demangle.name x t⟩
    addresses := Listing.map_address_rows id Demangle.name x t
    atAddress := fun a => by
      have h := hcontent.filter (·.2.1 = a)
      rwa [List.filter_map, List.filter_map] at h }

/-! ## Contested addresses -/

/-- The second extraction is the first one but for the parameters at contested addresses. -/
structure SameUncontested (b : Bytes) (x y : Extraction) : Prop where
  counts : y.counts = x.counts
  titles : y.rows.map Row.title = x.rows.map Row.title
  parameters : ∃ i, Image.ofBytes b = .ok i ∧ List.Forall₂
    (fun r r' => i.ClaimedOnce r.address → r'.parameters = r.parameters) x.rows y.rows
  uncontested : x.counts.collisions = 0 → y.rows = x.rows

/-- **The policy only decides contested addresses.**  Two extractions that differ in it
alone end alike.  They have the same counts and rows of the same titles in the same
order, with the same parameters at each address that one subprogram alone claims; and
without collisions the rows are the same. -/
theorem policies_endAlike (s : Settings) (b : Bytes) :
    EndAlike (SameUncontested b) (ofBytes { s with duplicates := .firstWins } b)
      (ofBytes { s with duplicates := .lastWins } b) := by
  refine endAlike_ofBytes rfl fun i table hi => ?_
  have hindex := SymbolIndex.follows_insertAll (table.filterMap TableSymbol.function?)
  obtain ⟨hclaims, hunits, hvisited, hsubprograms, hdebug⟩ :=
    Findings.counts_ofStore s.input .firstWins .lastWins i.debugStore
  have htitles : (Listing.rows s.rename (.ofTable table)
        (Findings.ofStore s.input .lastWins i.debugStore).table).map Row.title =
      (Listing.rows s.rename (.ofTable table)
        (Findings.ofStore s.input .firstWins i.debugStore).table).map Row.title :=
    Listing.map_title_rows hclaims.addresses
  have hlength := congrArg List.length htitles
  rw [List.length_map, List.length_map] at hlength
  refine ⟨?_, htitles, ⟨i, hi, ?_⟩, fun hzero => ?_⟩
  · simp only [ofTable, join, ExtractionCounts.mk.injEq]
    exact ⟨trivial, hunits, hvisited, hsubprograms, hclaims.size, hclaims.collisions, hlength,
      hdebug⟩
  · refine (Listing.forall₂_rows hindex hclaims.addresses).imp fun r r' h hr => ?_
    obtain ⟨store, events, hstore, hclaim⟩ := hr
    rw [hstore] at h
    rw [h.2 (Forest.get?_harvest_of_claimedOnce hclaim .lastWins .firstWins)]
  · rw [rows_ofTable, rows_ofTable, Listing.rows, Listing.rows,
      Findings.toList_ofStore_of_collisions_eq_zero hzero .lastWins]
    rfl

end Extraction
end ParamAtlas
