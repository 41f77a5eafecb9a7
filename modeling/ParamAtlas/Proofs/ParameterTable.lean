/-
# What a history of commits leaves in a table

Every subprogram that is committed under a nonzero address claims it.  The
policy picks one of the claimants in order, the first or the last
(`DuplicatePolicy.winner?`), and a later pick between the winner so far and
more claimants is a pick among all of them (`winner?_append`).  So a commit
changes one address at most (`get?_commit`), and after a whole history an
address holds the parameters of the winner of its claimants
(`get?_commitAll_empty`).

No claim is lost: each one either takes an address that was free or counts as a
collision (`size_add_collisions_commitAll`).  So the addresses stored are those
claimed, each counted once (`addresses_commitAll_perm`), and all else are collisions:
both depend on the claims alone, not on their order or on the policy
(`sameClaims_commitAll`), and there is no collision exactly if no address is claimed
twice (`collisions_eq_zero_iff`).

All that a table can be asked follows from its history in this way
(`answers_commitAll`).
-/

import Mathlib.Data.List.Dedup
import Mathlib.Tactic.SplitIfs
import ParamAtlas.ParameterTable

namespace ParamAtlas

/-- Which of several claimants in order keeps what they claim. -/
def DuplicatePolicy.winner? {α : Type} : DuplicatePolicy → List α → Option α
  | .firstWins, claimants => claimants.head?
  | .lastWins, claimants => claimants.getLast?

namespace DuplicatePolicy

variable {α β : Type}

/-- A pick between the winner so far and later claimants is a pick among all. -/
theorem winner?_append (p : DuplicatePolicy) (before after : List α) :
    p.winner? ((p.winner? before).toList ++ after) = p.winner? (before ++ after) := by
  cases p with
  | firstWins => cases before <;> simp [winner?]
  | lastWins =>
    simp only [winner?, List.getLast?_append]
    cases after.getLast? <;> cases before.getLast? <;> simp

/-- There is a winner if anyone claims at all. -/
theorem winner?_eq_none_iff {p : DuplicatePolicy} {claimants : List α} :
    p.winner? claimants = none ↔ claimants = [] := by
  cases p with
  | firstWins => exact List.head?_eq_none_iff
  | lastWins => exact List.getLast?_eq_none_iff

/-- Who keeps an address claims it. -/
theorem mem_of_winner?_eq_some {p : DuplicatePolicy} {claimants : List α} {w : α}
    (h : p.winner? claimants = some w) : w ∈ claimants := by
  cases p with
  | firstWins => exact List.mem_of_head? h
  | lastWins => exact List.mem_of_getLast? h

/-- If all claims are the same, every policy picks that one. -/
theorem winner?_eq_of_forall_eq (p p' : DuplicatePolicy) {claimants : List α}
    (h : ∀ a ∈ claimants, ∀ b ∈ claimants, a = b) : p.winner? claimants = p'.winner? claimants := by
  cases hw : p.winner? claimants with
  | none =>
    rw [winner?_eq_none_iff] at hw
    exact (winner?_eq_none_iff.2 hw).symm
  | some w =>
    cases hw' : p'.winner? claimants with
    | none =>
      rw [winner?_eq_none_iff.1 hw'] at hw
      cases p <;> cases hw
    | some w' => rw [h w (mem_of_winner?_eq_some hw) w' (mem_of_winner?_eq_some hw')]

/-- Renaming the claimants renames the one who keeps the address. -/
theorem winner?_map (p : DuplicatePolicy) (f : α → β) (claimants : List α) :
    p.winner? (claimants.map f) = (p.winner? claimants).map f := by
  cases p with
  | firstWins => exact List.head?_map ..
  | lastWins => exact List.getLast?_map ..

/-- `s` stands in a history, and no other claim of its address stands before it, or none
behind it if the last one wins. -/
def Keeps : DuplicatePolicy → List Subprogram → Subprogram → Prop
  | .firstWins, ss, s =>
    ∃ before after, ss = before ++ s :: after ∧ ∀ t ∈ before, t.address ≠ s.address
  | .lastWins, ss, s =>
    ∃ before after, ss = before ++ s :: after ∧ ∀ t ∈ after, t.address ≠ s.address

/-- **The winner at an address** is the first or the last claimant of it in the history. -/
theorem winner?_filter_eq_some_iff {p : DuplicatePolicy} {ss : List Subprogram} {a : Address}
    {s : Subprogram} :
    p.winner? (ss.filter (·.address = a)) = some s ↔ p.Keeps ss s ∧ s.address = a := by
  cases p with
  | firstWins =>
    rw [winner?, List.head?_filter, List.find?_eq_some_iff_append]
    constructor
    · rintro ⟨ha, before, after, heq, hbefore⟩
      obtain rfl : s.address = a := of_decide_eq_true ha
      exact ⟨⟨before, after, heq, by simpa using hbefore⟩, rfl⟩
    · rintro ⟨⟨before, after, heq, hbefore⟩, rfl⟩
      exact ⟨decide_eq_true rfl, before, after, heq, by simpa using hbefore⟩
  | lastWins =>
    rw [winner?, List.getLast?_filter, List.find?_eq_some_iff_append]
    constructor
    · rintro ⟨ha, after, before, heq, hafter⟩
      obtain rfl : s.address = a := of_decide_eq_true ha
      refine ⟨⟨before.reverse, after.reverse, ?_, by simpa using hafter⟩, rfl⟩
      rw [← ss.reverse_reverse, heq]
      simp
    · rintro ⟨⟨before, after, rfl, hafter⟩, rfl⟩
      exact ⟨decide_eq_true rfl, after.reverse, before.reverse, by simp, by simpa using hafter⟩

end DuplicatePolicy

namespace ParameterTable

@[simp] theorem get?_empty (p : DuplicatePolicy) (a : Address) : (empty p).get? a = none := by
  simp [get?, empty]

@[simp] theorem policy_commit (t : ParameterTable) (s : Subprogram) :
    (t.commit s).1.policy = t.policy := by
  unfold commit
  split_ifs
  · rfl
  · cases t.policy <;> rfl
  · rfl

/-- **What one commit changes.**  The address of the subprogram, unless it is 0,
goes to the winner between the subprogram and who holds it; all others stay. -/
theorem get?_commit (t : ParameterTable) (s : Subprogram) (a : Address) :
    (t.commit s).1.get? a =
      if s.address = a ∧ a ≠ 0 then t.policy.winner? ((t.get? a).toList ++ [s.parameters])
      else t.get? a := by
  unfold commit
  by_cases h0 : s.address = 0
  · rw [if_pos h0, if_neg fun h => h.2 (h.1 ▸ h0)]
  rw [if_neg h0]
  by_cases ha : s.address = a
  · subst ha
    rw [if_pos (show s.address = s.address ∧ s.address ≠ 0 from ⟨rfl, h0⟩)]
    split_ifs with hmem
    · have hold : t.get? s.address = some t.lists[s.address] :=
        Std.TreeMap.getElem?_eq_some_getElem hmem
      rw [hold]
      cases hp : t.policy with
      | firstWins => exact hold
      | lastWins => simp [DuplicatePolicy.winner?, get?]
    · have hnew : t.get? s.address = none := Std.TreeMap.getElem?_eq_none hmem
      rw [hnew]
      cases t.policy <;> simp [DuplicatePolicy.winner?, get?]
  · have hins : ∀ ps, (t.lists.insert s.address ps)[a]? = t.lists[a]? := by
      intro ps
      rw [Std.TreeMap.getElem?_insert, if_neg (by simpa using ha)]
    rw [if_neg (show ¬(s.address = a ∧ a ≠ 0) from fun h => ha h.1)]
    split_ifs
    · cases t.policy with
      | firstWins => rfl
      | lastWins => exact hins _
    · exact hins _

/-- **What a history of commits changes.**  Every address but 0 goes to the
winner among who holds it and the subprograms that claim it. -/
theorem get?_commitAll (t : ParameterTable) (ss : List Subprogram) (a : Address) :
    (t.commitAll ss).get? a =
      if a = 0 then t.get? a
      else t.policy.winner?
        ((t.get? a).toList ++ (ss.filter (·.address = a)).map (·.parameters)) := by
  induction ss generalizing t with
  | nil =>
    split_ifs
    · rfl
    · cases hp : t.policy <;> cases hg : t.get? a <;>
        simp [commitAll, DuplicatePolicy.winner?, hg]
  | cons s rest ih =>
    rw [commitAll, List.foldl_cons, ← commitAll, ih, get?_commit, policy_commit]
    by_cases h0 : a = 0
    · rw [if_pos h0, if_pos h0, if_neg fun h => h.2 h0]
    rw [if_neg h0, if_neg h0]
    by_cases ha : s.address = a
    · rw [if_pos ⟨ha, h0⟩, DuplicatePolicy.winner?_append]
      simp [ha]
    · rw [if_neg fun h => ha h.1]
      simp [ha]

/-- **After a history that starts with an empty table**, an address holds the
parameters of the winner of its claimants, and address 0 holds nothing. -/
theorem get?_commitAll_empty (p : DuplicatePolicy) (ss : List Subprogram) (a : Address) :
    ((empty p).commitAll ss).get? a =
      if a = 0 then none else (p.winner? (ss.filter (·.address = a))).map (·.parameters) := by
  rw [get?_commitAll, get?_empty, ← DuplicatePolicy.winner?_map]
  rfl

/-- A commit under a nonzero address is counted once, as an address or as a
collision. -/
theorem size_add_collisions_commit (t : ParameterTable) (s : Subprogram) :
    (t.commit s).1.size + (t.commit s).1.collisions =
      t.size + t.collisions + if s.address = 0 then 0 else 1 := by
  unfold commit size
  split_ifs with h0 hmem
  · rfl
  · cases t.policy with
    | firstWins => exact (Nat.add_assoc ..).symm
    | lastWins =>
      dsimp only
      rw [Std.TreeMap.size_insert, if_pos (Std.TreeMap.mem_iff_contains.1 hmem)]
      exact (Nat.add_assoc ..).symm
  · dsimp only
    rw [Std.TreeMap.size_insert, if_neg fun h => hmem (Std.TreeMap.mem_iff_contains.2 h)]
    omega

/-- **Addresses and collisions together** are as many as the claims. -/
theorem size_add_collisions_commitAll (t : ParameterTable) (ss : List Subprogram) :
    (t.commitAll ss).size + (t.commitAll ss).collisions =
      t.size + t.collisions + ss.countP (·.address ≠ 0) := by
  induction ss generalizing t with
  | nil => rfl
  | cons s rest ih =>
    rw [commitAll, List.foldl_cons, ← commitAll, ih, size_add_collisions_commit, List.countP_cons]
    by_cases h0 : s.address = 0 <;> simp [h0]
    omega

/-- Commits go on from where earlier ones ended. -/
theorem commitAll_append (t : ParameterTable) (ss ss' : List Subprogram) :
    t.commitAll (ss ++ ss') = (t.commitAll ss).commitAll ss' := List.foldl_append ..

/-- A table lists what it stores. -/
theorem mem_toList {t : ParameterTable} {a : Address} {ps : List Parameter} :
    (a, ps) ∈ t.toList ↔ t.get? a = some ps := Std.TreeMap.mem_toList_iff_getElem?_eq_some

/-- The stored pairs stand in strictly ascending order of address. -/
theorem toList_ascending (t : ParameterTable) : t.toList.Pairwise (·.1 < ·.1) :=
  Std.TreeMap.ordered_keys_toList.imp fun h => Std.compare_eq_lt.1 h

/-! ## Addresses -/

/-- All stored addresses, in ascending order. -/
def addresses (t : ParameterTable) : List Address := t.toList.map (·.1)

/-- The addresses that a history of commits claims, one for each claim. -/
def claimed (ss : List Subprogram) : List Address := (ss.map (·.address)).filter (· ≠ 0)

/-- Its addresses are those at which it stores something. -/
theorem mem_addresses {t : ParameterTable} {a : Address} :
    a ∈ t.addresses ↔ t.get? a ≠ none := by
  rw [addresses, List.mem_map, Option.ne_none_iff_exists']
  constructor
  · rintro ⟨⟨a, ps⟩, hp, rfl⟩
    exact ⟨ps, mem_toList.1 hp⟩
  · rintro ⟨ps, hps⟩
    exact ⟨(a, ps), mem_toList.2 hps, rfl⟩

/-- There are as many as its size says. -/
theorem length_addresses (t : ParameterTable) : t.addresses.length = t.size := by
  rw [addresses, List.length_map]
  exact Std.TreeMap.length_toList

/-- None occurs twice. -/
theorem nodup_addresses (t : ParameterTable) : t.addresses.Nodup :=
  List.pairwise_map.2 (t.toList_ascending.imp UInt64.ne_of_lt)

/-- Tables with the same addresses hold them in the same order. -/
theorem addresses_eq_of_mem_iff {t t' : ParameterTable}
    (h : ∀ a, a ∈ t.addresses ↔ a ∈ t'.addresses) : t.addresses = t'.addresses := by
  refine List.Perm.eq_of_pairwise (fun a b _ _ hab hba => ?_)
    (List.pairwise_map.2 t.toList_ascending) (List.pairwise_map.2 t'.toList_ascending)
    ((List.perm_ext_iff_of_nodup t.nodup_addresses t'.nodup_addresses).2 h)
  exact absurd hab (UInt64.lt_asymm hba)

/-- Tables that answer alike hold the same pairs. -/
theorem toList_eq_of_get? {t t' : ParameterTable} (h : ∀ a, t.get? a = t'.get? a) :
    t.toList = t'.toList :=
  (Std.TreeMap.Equiv.of_forall_constGet?_eq h).toList_eq

/-- **A history stores the addresses that it claims**, and no others. -/
theorem mem_addresses_commitAll_empty {p : DuplicatePolicy} {ss : List Subprogram} {a : Address} :
    a ∈ ((empty p).commitAll ss).addresses ↔ a ∈ claimed ss := by
  rw [mem_addresses, get?_commitAll_empty, claimed, List.mem_filter, List.mem_map]
  by_cases ha : a = 0
  · simp [ha]
  · rw [if_neg ha, ne_eq, Option.map_eq_none_iff, DuplicatePolicy.winner?_eq_none_iff]
    simp [ha, List.filter_eq_nil_iff]

/-- **The addresses stored** are those claimed, each counted once. -/
theorem addresses_commitAll_perm (p : DuplicatePolicy) (ss : List Subprogram) :
    ((empty p).commitAll ss).addresses.Perm (claimed ss).dedup :=
  (List.perm_ext_iff_of_nodup (nodup_addresses _) (List.nodup_dedup _)).2 fun _ => by
    rw [mem_addresses_commitAll_empty, List.mem_dedup]

/-- Every claim is an address of its own or a collision. -/
theorem length_claimed (p : DuplicatePolicy) (ss : List Subprogram) :
    ((empty p).commitAll ss).addresses.length + ((empty p).commitAll ss).collisions =
      (claimed ss).length := by
  rw [length_addresses, size_add_collisions_commitAll, claimed, ← List.countP_eq_length_filter,
    List.countP_map]
  exact Nat.zero_add _

/-- **There is no collision exactly if no address is claimed twice.** -/
theorem collisions_eq_zero_iff {p : DuplicatePolicy} {ss : List Subprogram} :
    ((empty p).commitAll ss).collisions = 0 ↔ (claimed ss).Nodup := by
  have hlength := length_claimed p ss
  rw [(addresses_commitAll_perm p ss).length_eq] at hlength
  rw [← List.dedup_eq_self]
  constructor
  · intro hzero
    exact (List.dedup_sublist _).eq_of_length (by omega)
  · intro hdedup
    rw [hdedup] at hlength
    omega

/-- **If no address is claimed twice, the policy does not matter.** -/
theorem get?_eq_of_nodup_claimed (p p' : DuplicatePolicy) {ss : List Subprogram}
    (h : (claimed ss).Nodup) (a : Address) :
    ((empty p).commitAll ss).get? a = ((empty p').commitAll ss).get? a := by
  have hclaimed : claimed ss = (ss.filter (·.address ≠ 0)).map (·.address) := by
    rw [claimed, List.filter_map]
    rfl
  rw [hclaimed] at h
  rw [get?_commitAll_empty, get?_commitAll_empty]
  refine ite_congr rfl (fun _ => rfl) fun ha => ?_
  have hmem : ∀ s ∈ ss.filter (·.address = a),
      s ∈ ss.filter (·.address ≠ 0) ∧ s.address = a := by
    intro s hs
    rw [List.mem_filter, decide_eq_true_iff] at hs
    exact ⟨List.mem_filter.2 ⟨hs.1, decide_eq_true (hs.2 ▸ ha)⟩, hs.2⟩
  rw [p.winner?_eq_of_forall_eq p' fun s hs s' hs' => ?_]
  obtain ⟨hkept, rfl⟩ := hmem s hs
  obtain ⟨hkept', haddress⟩ := hmem s' hs'
  exact List.inj_on_of_nodup_map h hkept hkept' haddress.symm

/-- Two tables agree on which addresses are claimed and how often any was claimed
again; the parameters that they store may differ. -/
structure SameClaims (t t' : ParameterTable) : Prop where
  addresses : t'.addresses = t.addresses
  collisions : t'.collisions = t.collisions

/-- Tables of the same claims have the same size. -/
theorem SameClaims.size {t t' : ParameterTable} (h : t.SameClaims t') : t'.size = t.size := by
  rw [← length_addresses, ← length_addresses, h.addresses]

/-- **Which addresses are stored and how many claims collide** depends on the claims
alone, not on their order, nor on who wins. -/
theorem sameClaims_commitAll (p p' : DuplicatePolicy) {ss ss' : List Subprogram}
    (h : (ss.map (·.address)).Perm (ss'.map (·.address))) :
    ((empty p).commitAll ss).SameClaims ((empty p').commitAll ss') := by
  have hclaimed : (claimed ss).Perm (claimed ss') := h.filter _
  have haddresses : ((empty p').commitAll ss').addresses = ((empty p).commitAll ss).addresses :=
    addresses_eq_of_mem_iff fun a => by
      rw [mem_addresses_commitAll_empty, mem_addresses_commitAll_empty, hclaimed.mem_iff]
  refine ⟨haddresses, ?_⟩
  have hlength := length_claimed p ss
  have hlength' := length_claimed p' ss'
  rw [haddresses, ← hclaimed.length_eq] at hlength'
  omega

/-! ## Answers -/

/-- **What a table answers after a history.**  A nonzero address that is claimed gives the
parameters of its first claimant, or of its last, as the policy has it; any other address
gives nothing, 0 among them.  The table lists just these pairs, in strictly ascending order
of address.  It has as many of them as there are nonzero addresses claimed, and all other
claims of nonzero addresses count as collisions. -/
theorem answers_commitAll (p : DuplicatePolicy) (ss : List Subprogram) :
    (∀ a ps, ((empty p).commitAll ss).get? a = some ps ↔
        a ≠ 0 ∧ ∃ s, p.Keeps ss s ∧ s.address = a ∧ s.parameters = ps) ∧
      (∀ a, ((empty p).commitAll ss).get? a = none ↔ a = 0 ∨ ∀ s ∈ ss, s.address ≠ a) ∧
      (∀ a ps, (a, ps) ∈ ((empty p).commitAll ss).toList ↔
        ((empty p).commitAll ss).get? a = some ps) ∧
      ((empty p).commitAll ss).toList.Pairwise (·.1 < ·.1) ∧
      ((empty p).commitAll ss).size = ((ss.map (·.address)).filter (· ≠ 0)).dedup.length ∧
      ((empty p).commitAll ss).collisions + ((empty p).commitAll ss).size =
        ss.countP (·.address ≠ 0) := by
  refine ⟨fun a ps => ?_, fun a => ?_, fun a ps => mem_toList, toList_ascending _, ?_, ?_⟩
  · rw [get?_commitAll_empty]
    split
    · rename_i hzero
      simp [hzero]
    · rename_i hzero
      simp only [Option.map_eq_some_iff, DuplicatePolicy.winner?_filter_eq_some_iff, ne_eq, hzero,
        not_false_eq_true, true_and, and_assoc]
  · rw [get?_commitAll_empty]
    split
    · rename_i hzero
      simp [hzero]
    · rename_i hzero
      rw [Option.map_eq_none_iff, DuplicatePolicy.winner?_eq_none_iff, List.filter_eq_nil_iff]
      simp [hzero]
  · rw [← length_addresses, (addresses_commitAll_perm p ss).length_eq, claimed]
  · have hclaims := size_add_collisions_commitAll (empty p) ss
    rw [Nat.add_comm, hclaims]
    exact Nat.zero_add _

end ParameterTable
end ParamAtlas
