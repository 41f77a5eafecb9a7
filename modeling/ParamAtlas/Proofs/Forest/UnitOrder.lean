/-
# The order of units

Two stores may hold the same entries and name the same units in different orders
(`SameEntries`, `unitList`).  Subprograms and walks are then the same in both, for they
never ask for a unit.  What a harvest yields is told by the roots that it walks from
(`walkedRoots`), and these are permuted:

| yield | by the roots | in another order |
| --- | --- | --- |
| units | their number | the same |
| counts of the walks | a sum | the same |
| addresses and collisions | what is claimed, and how often | the same |
| parameters at an address | the winner of the claims below them | may differ |

Claims are made in the order of the roots, but if those of an address are all below one
root, the others do not matter and their order does not change
(`flatMap_eq_of_perm`).  So the table is the same too if no address is claimed in two
units, however often it is claimed in one (`harvest_of_perm_units`).
-/

import ParamAtlas.Proofs.Forest.Reach
import ParamAtlas.Proofs.Forest.SameOrigins
import ParamAtlas.Proofs.Forest.Steps

namespace ParamAtlas

/-- Sums of counts may be taken in any order. -/
theorem WalkStats.add_right_comm (a b c : WalkStats) : a + b + c = a + c + b := by
  change WalkStats.mk _ _ _ = WalkStats.mk _ _ _
  congr 1 <;> exact Nat.add_right_comm ..

namespace Forest

/-- If at most one part of a list gives anything, the parts may stand in any order. -/
theorem flatMap_eq_of_perm {α β : Type} {f : α → List β} {l l' : List α} (h : l.Perm l')
    (hf : l.Pairwise fun a b => f a = [] ∨ f b = []) : l.flatMap f = l'.flatMap f := by
  induction h with
  | nil => rfl
  | cons a _ ih => rw [List.flatMap_cons, List.flatMap_cons, ih (List.pairwise_cons.1 hf).2]
  | swap a b l =>
    rcases (List.pairwise_cons.1 hf).1 a List.mem_cons_self with hnil | hnil <;>
      simp [List.flatMap_cons, hnil]
  | trans h _ ih ih' => exact (ih hf).trans (ih' ((h.pairwise_iff Or.symm).1 hf))

variable {ε : Type}

/-! ## The same entries -/

/-- Two stores of the same entries: every question about an entry or an offset has the
same answer, and only the units may differ. -/
structure SameEntries (F G : Forest ε) : Prop where
  tag : G.tag = F.tag
  firstChild : G.firstChild = F.firstChild
  nextSibling : G.nextSibling = F.nextSibling
  entryAt : G.entryAt = F.entryAt
  ref : G.ref = F.ref
  text : G.text = F.text
  flag : G.flag = F.flag
  address : G.address = F.address
  reference : G.reference = F.reference

namespace SameEntries

variable {F G : Forest ε} (h : F.SameEntries G)

include h

/-- Forests of the same entries have the same tags, -/
theorem hasTag_eq : G.hasTag = F.hasTag := by
  funext t e
  rw [hasTag, hasTag, h.tag]

/-- enter the same children, -/
theorem entered_eq (e : ε) : G.entered e = F.entered e := by
  rw [entered, entered, h.tag, h.firstChild]

/-- **Walks are the same.** -/
theorem visits_eq : G.visits = F.visits := by
  funext e
  induction e using F.linkInduction with
  | step e ihsibling ihchild =>
    have hbeside : G.visits? (F.nextSibling e) = F.visits? (F.nextSibling e) := by
      cases hs : F.nextSibling e with
      | none => rfl
      | some s => rw [visits?_some, visits?_some, ihsibling s hs]
    have hbelow : G.visits? (F.entered e) = F.visits? (F.entered e) := by
      cases hc : F.entered e with
      | none => rfl
      | some c => rw [visits?_some, visits?_some, ihchild c (firstChild_of_entered hc)]
    rw [Forest.visits_eq, Forest.visits_eq F, h.nextSibling, h.entered_eq, hbeside, hbelow]

/-- have the same siblings, -/
theorem siblings?_eq (e? : Option ε) : G.siblings? e? = F.siblings? e? := by
  cases e? with
  | none => rw [siblings?_none, siblings?_none]
  | some e =>
    induction e using F.linkInduction with
    | step e ih _ =>
      rw [siblings?_some, siblings?_some, h.nextSibling]
      cases hs : F.nextSibling e with
      | none => rw [siblings?_none, siblings?_none]
      | some s => rw [ih s hs]

/-- A chain of origins says the same in both stores, at the same offsets. -/
theorem agreeFrom (hops : Nat) (origin? : Option EntryRef) :
    F.AgreeFrom G Eq hops origin? origin? := by
  induction hops generalizing origin? with
  | zero => exact .limit origin? origin?
  | succ hops ih =>
    cases origin? with
    | none => exact .last (hops + 1)
    | some o =>
      have hG : G.entryAt o = F.entryAt o := congrFun h.entryAt o
      cases hF : F.entryAt o with
      | none => exact .dangling rfl hF (hG.trans hF)
      | some e =>
        refine .origin rfl hF (hG.trans hF) (by rw [h.text]) (by rw [h.flag]) ?_
        rw [h.reference]
        exact ih _

/-- the same parameters, -/
theorem parameter_eq (e : ε) : G.parameter e = F.parameter e := by
  refine SameOrigins.parameter_eq ⟨by rw [h.text], by rw [h.flag], Eq, biUnique_eq, ?_, ?_⟩
  · rw [h.ref]
  · rw [h.reference]
    exact h.agreeFrom maxOrigins _

/-- **Subprograms are the same.** -/
theorem subprogram_eq : G.subprogram = F.subprogram := by
  funext e
  have hentries : G.parameterEntries e = F.parameterEntries e := by
    rw [parameterEntries, parameterEntries, children_eq, children_eq, h.firstChild,
      h.siblings?_eq, h.hasTag_eq]
  rw [subprogram, subprogram, hentries, h.address]
  congr 1
  exact List.map_congr_left fun x _ => h.parameter_eq x

/-- the same counts -/
theorem statsOf_eq : G.statsOf = F.statsOf := by
  funext visited
  rw [statsOf, statsOf, h.hasTag_eq, h.tag]

/-- and the same subprograms among what is visited. -/
theorem subprogramsOf_eq : G.subprogramsOf = F.subprogramsOf := by
  funext visited
  rw [subprogramsOf, subprogramsOf, h.hasTag_eq]

end SameEntries

/-! ## Roots -/

variable {F G : Forest ε} {a : Address}

/-- What a store says of its units in order: header information and root. -/
def unitList (F : Forest ε) : List (Option UnitInfo × Option ε) :=
  (List.range F.unitCount).map fun i => (F.unitInfo i, F.unitRoot i)

/-- The root that the walk of a unit starts from: none without header information. -/
def walkedRoot? (F : Forest ε) (i : Nat) : Option ε := (F.unitInfo i).bind fun _ => F.unitRoot i

/-- The roots that a harvest walks from, in order. -/
def walkedRoots (F : Forest ε) : List ε := (List.range F.unitCount).filterMap F.walkedRoot?

/-- Adds the counts of the walk from a root. -/
def addWalk (F : Forest ε) (s : WalkStats) (root : ε) : WalkStats := s + F.statsOf (F.visits root)

/-- The subprograms with an entry address that the walk from a root visits. -/
def claimsFrom (F : Forest ε) (a : Address) (root : ε) : List ε :=
  (F.subprogramsOf (F.visits root)).filter (F.address · .lowPc = some a)

/-- A walk adds the same to either, -/
theorem SameEntries.addWalk_eq (h : F.SameEntries G) : G.addWalk = F.addWalk := by
  funext s root
  rw [addWalk, addWalk, h.visits_eq, h.statsOf_eq]

/-- and finds the same claims. -/
theorem SameEntries.claimsFrom_eq (h : F.SameEntries G) (a : Address) :
    G.claimsFrom a = F.claimsFrom a := by
  funext root
  rw [claimsFrom, claimsFrom, h.visits_eq, h.subprogramsOf_eq, h.address]

/-- The roots walked are those of the units that have both header information and a root. -/
theorem walkedRoots_eq (F : Forest ε) :
    F.walkedRoots = F.unitList.filterMap fun u => u.1.bind fun _ => u.2 := by
  rw [unitList, List.filterMap_map]
  rfl

/-- What is reached in a unit are the subprograms that the walk of it visits, if it is walked. -/
theorem reachedIn_eq (F : Forest ε) (i : Nat) :
    F.reachedIn i = (F.walkedRoot? i).toList.flatMap fun root =>
      F.subprogramsOf (F.visits root) := by
  unfold reachedIn walkedRoot?
  cases F.unitInfo i <;> cases F.unitRoot i <;> simp

/-- **What a harvest reaches,** root by root. -/
theorem reached_eq (F : Forest ε) :
    F.reached = F.walkedRoots.flatMap fun root => F.subprogramsOf (F.visits root) := by
  rw [reached, walkedRoots]
  induction List.range F.unitCount with
  | nil => rfl
  | cons i rest ih =>
    rw [List.flatMap_cons, reachedIn_eq, ih, List.filterMap_cons]
    cases F.walkedRoot? i <;> simp

/-- The claimants of an address are those below each root walked, in turn. -/
theorem claimants_eq (F : Forest ε) (a : Address) :
    F.claimants a = F.walkedRoots.flatMap (F.claimsFrom a) := by
  rw [claimants, reached_eq, List.filter_flatMap]
  rfl

/-- Taking in one index counts its root and adds the walk from it. -/
theorem units_stats_gather (F : Forest ε) (h : Harvest) (i : Nat) :
    (F.gather h (F.unitSlot i)).units = h.units + (F.walkedRoot? i).toList.length ∧
      (F.gather h (F.unitSlot i)).stats = (F.walkedRoot? i).toList.foldl F.addWalk h.stats := by
  unfold unitSlot walkedRoot?
  cases F.unitInfo i with
  | none => exact ⟨rfl, rfl⟩
  | some info =>
    cases F.unitRoot i with
    | none => exact ⟨rfl, rfl⟩
    | some root => exact ⟨rfl, congrArg Harvest.stats (F.gather_unit h ⟨i, info, root⟩)⟩

/-- Units and counts of a harvest are those of the roots walked. -/
theorem units_stats_foldl_gather (F : Forest ε) (h : Harvest) (indices : List Nat) :
    ((indices.map F.unitSlot).foldl F.gather h).units =
        h.units + (indices.filterMap F.walkedRoot?).length ∧
      ((indices.map F.unitSlot).foldl F.gather h).stats =
        (indices.filterMap F.walkedRoot?).foldl F.addWalk h.stats := by
  induction indices generalizing h with
  | nil => exact ⟨rfl, rfl⟩
  | cons i rest ih =>
    obtain ⟨hunits, hstats⟩ := ih (F.gather h (F.unitSlot i))
    obtain ⟨hunit, hstat⟩ := F.units_stats_gather h i
    rw [List.map_cons, List.foldl_cons, hunits, hstats, hunit, hstat, List.filterMap_cons]
    cases F.walkedRoot? i with
    | none => exact ⟨rfl, rfl⟩
    | some root => exact ⟨by simp [Nat.add_assoc, Nat.add_comm], rfl⟩

/-- **A harvest counts the roots and adds up the walks** from them. -/
theorem units_stats_harvest (F : Forest ε) (t : ParameterTable) :
    (F.harvest t).units = F.walkedRoots.length ∧
      (F.harvest t).stats = F.walkedRoots.foldl F.addWalk .zero := by
  obtain ⟨hunits, hstats⟩ :=
    F.units_stats_foldl_gather ⟨t, 0, .zero, #[]⟩ (List.range F.unitCount)
  exact ⟨hunits.trans (Nat.zero_add _), hstats⟩

/-! ## The order of units -/

/-- A subprogram that can be reached in the unit at an index claims the address. -/
def ClaimedIn (F : Forest ε) (i : Nat) (a : Address) : Prop :=
  ∃ x, F.Reachable i x ∧ F.tag x = some Tag.subprogram ∧ F.address x .lowPc = some a

/-- No nonzero address is claimed in two units. -/
def UnitsApart (F : Forest ε) : Prop :=
  ∀ a ≠ 0, ∀ i < F.unitCount, ∀ j < F.unitCount, F.ClaimedIn i a → F.ClaimedIn j a → i = j

/-- An address that is claimed below a root is claimed in its unit. -/
theorem claimedIn_of_claimsFrom {i : Nat} {root : ε}
    (hroot : F.walkedRoot? i = some root)
    (hclaims : F.claimsFrom a root ≠ []) : F.ClaimedIn i a := by
  obtain ⟨x, hx⟩ := List.exists_mem_of_ne_nil _ hclaims
  rw [claimsFrom, List.mem_filter, decide_eq_true_iff] at hx
  have hmem : x ∈ F.reachedIn i := by
    rw [reachedIn_eq, hroot]
    simpa using hx.1
  obtain ⟨hreachable, htag⟩ := mem_reachedIn_iff.1 hmem
  exact ⟨x, hreachable, htag, hx.2⟩

/-- If no address is claimed in two units, at most one root has claims of it below. -/
theorem UnitsApart.pairwise_walkedRoots (h : F.UnitsApart) (ha : a ≠ 0) :
    F.walkedRoots.Pairwise fun r r' => F.claimsFrom a r = [] ∨ F.claimsFrom a r' = [] := by
  rw [walkedRoots, List.pairwise_filterMap]
  refine List.pairwise_lt_range.imp_of_mem fun {i j} hi hj hij r hr r' hr' => ?_
  rw [List.mem_range] at hi hj
  by_contra hboth
  obtain ⟨hclaims, hclaims'⟩ := not_or.1 hboth
  exact Nat.ne_of_lt hij (h a ha i hi j hj (claimedIn_of_claimsFrom hr hclaims)
    (claimedIn_of_claimsFrom hr' hclaims'))

/-- **The order of units does not matter** for the number of units walked, the counts of
the walks, the addresses and the collisions; nor for the table, unless an address is
claimed in two units. -/
theorem harvest_of_perm_units (hentries : F.SameEntries G) (hunits : F.unitList.Perm G.unitList)
    (p : DuplicatePolicy) :
    (G.harvest (.empty p)).units = (F.harvest (.empty p)).units ∧
      (G.harvest (.empty p)).stats = (F.harvest (.empty p)).stats ∧
      (G.harvest (.empty p)).table.addresses = (F.harvest (.empty p)).table.addresses ∧
      (G.harvest (.empty p)).table.collisions = (F.harvest (.empty p)).table.collisions ∧
      (F.UnitsApart →
        (G.harvest (.empty p)).table.toList = (F.harvest (.empty p)).table.toList) := by
  have hroots : F.walkedRoots.Perm G.walkedRoots := by
    rw [walkedRoots_eq, walkedRoots_eq]
    exact hunits.filterMap _
  have hclaims : (F.harvest (.empty p)).table.SameClaims (G.harvest (.empty p)).table := by
    rw [table_harvest, table_harvest, hentries.subprogram_eq]
    refine ParameterTable.sameClaims_commitAll p p (.map _ (.map _ ?_))
    rw [reached_eq, reached_eq, hentries.visits_eq, hentries.subprogramsOf_eq]
    exact hroots.flatMap_right _
  obtain ⟨hunitsF, hstatsF⟩ := F.units_stats_harvest (.empty p)
  obtain ⟨hunitsG, hstatsG⟩ := G.units_stats_harvest (.empty p)
  refine ⟨?_, ?_, hclaims.addresses, hclaims.collisions, fun hapart => ?_⟩
  · rw [hunitsG, hunitsF, hroots.length_eq]
  · rw [hstatsG, hstatsF, hentries.addWalk_eq]
    exact (hroots.foldl_eq' (fun _ _ _ _ s => s.add_right_comm _ _) _).symm
  · refine ParameterTable.toList_eq_of_get? fun a => ?_
    rw [get?_harvest, get?_harvest]
    refine ite_congr rfl (fun _ => rfl) fun ha => ?_
    rw [claimants_eq, claimants_eq, hentries.claimsFrom_eq,
      ← flatMap_eq_of_perm hroots (hapart.pairwise_walkedRoots ha)]
    exact congrArg (fun f => Option.map (fun e => (f e).parameters) _) hentries.subprogram_eq

/-! ### Units in two orders -/

/-- Subprograms 0 and 1 at address `0x10`, the second beside the first, and subprogram 2 at
address `0x20`, each with one parameter; and the units as given. -/
def threeSubprograms (units : List (Option UnitInfo × Option Nat)) : Forest Nat where
  unitCount := units.length
  unitInfo i := (units[i]?).bind (·.1)
  unitRoot i := (units[i]?).bind (·.2)
  tag e := some (if e < 3 then Tag.subprogram else Tag.formalParameter)
  firstChild e := if e < 3 then some (e + 3) else none
  nextSibling e := if e = 0 then some 1 else none
  entryAt _ := none
  ref e := ⟨e.toUInt64⟩
  text e _ := some (toString e)
  flag _ _ := some false
  address e _ := some (if e < 2 then 0x10 else 0x20)
  reference _ _ := none
  height e := 6 - e
  height_firstChild e c h := by
    split at h
    · cases h; omega
    · cases h
  height_nextSibling e s h := by
    split at h
    · cases h; omega
    · cases h

/-- Two units, and between them one without header information. -/
def threeUnits : List (Option UnitInfo × Option Nat) :=
  [(some ⟨⟨0⟩, 5, 8⟩, some 0), (none, some 2), (some ⟨⟨2⟩, 5, 8⟩, some 2)]

/-- What is claimed in one of these units is the address of its subprograms. -/
theorem claimedIn_threeSubprograms {units : List (Option UnitInfo × Option Nat)} {i : Nat}
    (h : (threeSubprograms units).ClaimedIn i a) :
    ∃ root, (threeSubprograms units).walkedRoot? i = some root ∧
      a = if root % 3 = 2 then 0x20 else 0x10 := by
  obtain ⟨x, hx, htag, haddress⟩ := h
  have hmem := mem_reachedIn_iff.2 ⟨hx, htag⟩
  rw [reachedIn_eq, List.mem_flatMap] at hmem
  obtain ⟨root, hroot, hmem⟩ := hmem
  refine ⟨root, Option.mem_toList.1 hroot, ?_⟩
  -- A child stands three behind its parent, and only 1 stands beside another entry.
  have hunit : ∀ y ∈ (threeSubprograms units).visits root, (y % 3 = 2 ↔ root % 3 = 2) := by
    refine forall_mem_visits (fun e s he hs => ?_) (fun e c he hc => ?_) Iff.rfl
    · obtain ⟨rfl, rfl⟩ : e = 0 ∧ 1 = s := by simpa [threeSubprograms] using hs
      simpa using he
    · obtain ⟨-, rfl⟩ : e < 3 ∧ e + 3 = c := by
        simpa [threeSubprograms] using firstChild_of_entered hc
      rwa [Nat.add_mod_right]
  have hlt : x < 3 := by
    by_contra hge
    simp [threeSubprograms, hge, Tag.formalParameter, Tag.subprogram] at htag
  have hxa : (if x < 2 then (0x10 : Address) else 0x20) = a := Option.some.inj haddress
  rw [← hxa, ← if_congr (hunit x (List.mem_filter.1 hmem).1) rfl rfl]
  obtain rfl | rfl | rfl : x = 0 ∨ x = 1 ∨ x = 2 := by omega
  all_goals rfl

/-- No address is claimed in two of the units. -/
theorem unitsApart_threeUnits : (threeSubprograms threeUnits).UnitsApart := by
  intro a _ i hi j hj hai haj
  obtain ⟨r, hr, hra⟩ := claimedIn_threeSubprograms hai
  obtain ⟨q, hq, hqa⟩ := claimedIn_threeSubprograms haj
  have hroot : ∀ {k root}, k < 3 → (threeSubprograms threeUnits).walkedRoot? k = some root →
      root = k ∧ (k = 0 ∨ k = 2) := by
    intro k root hk hroot
    obtain rfl | rfl | rfl : k = 0 ∨ k = 1 ∨ k = 2 := by omega
    · exact ⟨(Option.some.inj hroot).symm, .inl rfl⟩
    · cases hroot
    · exact ⟨(Option.some.inj hroot).symm, .inr rfl⟩
  obtain ⟨rfl, hr⟩ := hroot hi hr
  obtain ⟨rfl, hq⟩ := hroot hj hq
  rcases hr with rfl | rfl <;> rcases hq with rfl | rfl
  · rfl
  · exact absurd (hra.symm.trans hqa) (by decide)
  · exact absurd (hra.symm.trans hqa) (by decide)
  · rfl

/-- Three units give the same table in either order. -/
theorem harvest_of_perm_units_threeUnits :
    (threeSubprograms threeUnits).SameEntries (threeSubprograms threeUnits.reverse) ∧
      (threeSubprograms threeUnits).unitList.Perm
        (threeSubprograms threeUnits.reverse).unitList ∧
      (threeSubprograms threeUnits).UnitsApart ∧
      ((threeSubprograms threeUnits.reverse).harvest (.empty .lastWins)).table.toList =
        ((threeSubprograms threeUnits).harvest (.empty .lastWins)).table.toList := by
  have hentries : (threeSubprograms threeUnits).SameEntries (threeSubprograms threeUnits.reverse) :=
    ⟨rfl, rfl, rfl, rfl, rfl, rfl, rfl, rfl, rfl⟩
  have hunits : (threeSubprograms threeUnits).unitList.Perm
      (threeSubprograms threeUnits.reverse).unitList := threeUnits.reverse_perm.symm
  obtain ⟨-, -, -, -, htable⟩ := harvest_of_perm_units hentries hunits .lastWins
  exact ⟨hentries, hunits, unitsApart_threeUnits, htable unitsApart_threeUnits⟩

end Forest
end ParamAtlas
