/-
# What commits tell, and what their order decides

A commit tells whether the table took the parameters (`commit_snd_iff`).  That is not quite
whether the pairs of the table changed:

| the address is | policy | taken | the pairs |
| --- | --- | --- | --- |
| 0 | any | no | stay |
| free | any | yes | change |
| held | `firstWins` | no | stay |
| held, with other parameters | `lastWins` | yes | change |
| held, with the same parameters | `lastWins` | yes | stay |

The last row is a repetition (`Repeats`), and the only case in which parameters are taken
without any change (`commit_snd_iff_changes_or_repeats`).

All else that a table can be asked depends on its history address by address: histories
with the same claims of each address, in the same order, lead to tables that nobody can
tell apart (`alike_commitAll`), neither by asking (`Alike`) nor by going on with commits
(`Alike.replies_eq`).  So commits of different addresses may be exchanged.  Claims of one
address may not, but read backwards the first of them is the last: a history under one
policy gives the same pairs as the reversed history under the other
(`commitAll_reverse_and_exchange`).
-/

import Mathlib.Data.List.Perm.Basic
import ParamAtlas.Proofs.ParameterTable

namespace ParamAtlas

/-- Read backwards, the first claimant is the last. -/
theorem DuplicatePolicy.winner?_reverse {α : Type} (claimants : List α) :
    lastWins.winner? claimants.reverse = firstWins.winner? claimants :=
  List.getLast?_reverse

namespace ParameterTable

variable {t t' : ParameterTable} {s : Subprogram} {ss ss' : List Subprogram}

/-! ## What a commit tells -/

/-- A commit changes the pairs of a table. -/
def ChangesBy (t : ParameterTable) (s : Subprogram) : Prop := (t.commit s).1.toList ≠ t.toList

/-- The last one wins, and the table holds the same parameters at the address already. -/
def Repeats (t : ParameterTable) (s : Subprogram) : Prop :=
  t.policy = .lastWins ∧ s.address ≠ 0 ∧ t.get? s.address = some s.parameters

/-- An address is listed exactly if something is stored there. -/
theorem mem_lists_iff {a : Address} : a ∈ t.lists ↔ t.get? a ≠ none := by
  rw [get?, Option.ne_none_iff_isSome, Std.TreeMap.isSome_getElem?_eq_contains,
    Std.TreeMap.mem_iff_contains]

/-- **What a commit tells:** the table takes the parameters for a nonzero address that is
free, or if the last one wins. -/
theorem commit_snd_iff :
    (t.commit s).2 = true ↔ s.address ≠ 0 ∧ (t.get? s.address = none ∨ t.policy = .lastWins) := by
  unfold commit
  split_ifs with h0 hmem
  · simp [h0]
  · cases hp : t.policy <;> simp [h0, mem_lists_iff.1 hmem]
  · have hfree : t.get? s.address = none := by
      by_contra hheld
      exact hmem (mem_lists_iff.2 hheld)
    simp [h0, hfree]

/-- Tables hold the same pairs exactly if they answer alike at every address. -/
theorem toList_eq_iff : t.toList = t'.toList ↔ ∀ a, t.get? a = t'.get? a := by
  refine ⟨fun h a => ?_, toList_eq_of_get?⟩
  refine Option.ext fun ps => ?_
  rw [← mem_toList, ← mem_toList, h]

/-- A commit changes the pairs exactly if the address then holds something else. -/
theorem changesBy_iff : t.ChangesBy s ↔ (t.commit s).1.get? s.address ≠ t.get? s.address := by
  rw [ChangesBy, ne_eq, toList_eq_iff, not_iff_not]
  refine ⟨fun h => h s.address, fun h a => ?_⟩
  by_cases ha : s.address = a
  · rw [← ha, h]
  · rw [get?_commit, if_neg fun hclaim => ha hclaim.1]

/-- **A commit tells of a change or of a repetition.**  The table takes the parameters
exactly if its pairs change or the commit repeats what it holds, and never are these two
the case at once. -/
theorem commit_snd_iff_changes_or_repeats (t : ParameterTable) (s : Subprogram) :
    ((t.commit s).2 = true ↔ t.ChangesBy s ∨ t.Repeats s) ∧ ¬(t.ChangesBy s ∧ t.Repeats s) := by
  rw [commit_snd_iff, changesBy_iff, Repeats, get?_commit]
  by_cases h0 : s.address = 0
  · simp [h0]
  rw [if_pos ⟨rfl, h0⟩]
  cases hheld : t.get? s.address with
  | none => cases t.policy <;> simp [h0, DuplicatePolicy.winner?]
  | some ps =>
    cases hp : t.policy with
    | firstWins => simp [DuplicatePolicy.winner?]
    | lastWins =>
      have hsame : ps = s.parameters ↔ s.parameters = ps := eq_comm
      by_cases hps : s.parameters = ps <;> simp [h0, DuplicatePolicy.winner?, hps, hsame]

/-- A function with one parameter. -/
def oneParameter : Subprogram := ⟨0x10, [⟨"a", false⟩]⟩

/-- **A commit that repeats** what the table holds tells that it was taken, though no pair
changes. -/
theorem not_forall_commit_snd_iff_changesBy :
    ¬ ∀ (p : DuplicatePolicy) (ss : List Subprogram) (s : Subprogram),
      (((empty p).commitAll ss).commit s).2 = true ↔ ((empty p).commitAll ss).ChangesBy s := by
  intro hall
  have hheld : ((empty .lastWins).commitAll [oneParameter]).get? oneParameter.address =
      some oneParameter.parameters := by
    rw [get?_commitAll_empty]
    rfl
  have hrepeats : ((empty .lastWins).commitAll [oneParameter]).Repeats oneParameter :=
    ⟨policy_commit (empty .lastWins) oneParameter, by decide, hheld⟩
  obtain ⟨htold, hnever⟩ := commit_snd_iff_changes_or_repeats
    ((empty .lastWins).commitAll [oneParameter]) oneParameter
  have hchanges := (hall .lastWins [oneParameter] oneParameter).1 (htold.2 (.inr hrepeats))
  exact hnever ⟨hchanges, hrepeats⟩

/-! ## Tables that nobody can tell apart -/

/-- Two tables that answer every question alike. -/
structure Alike (t t' : ParameterTable) : Prop where
  policy : t'.policy = t.policy
  get? : ∀ a, t'.get? a = t.get? a
  toList : t'.toList = t.toList
  size : t'.size = t.size
  isEmpty : t'.isEmpty = t.isEmpty
  collisions : t'.collisions = t.collisions

/-- What commits tell, one after another. -/
def replies (t : ParameterTable) : List Subprogram → List Bool
  | [] => []
  | s :: rest => (t.commit s).2 :: (t.commit s).1.replies rest

/-- A table lists as many addresses as its size says. -/
theorem length_toList (t : ParameterTable) : t.toList.length = t.size := Std.TreeMap.length_toList

/-- It is empty exactly if that is none. -/
theorem isEmpty_eq (t : ParameterTable) : t.isEmpty = (t.size == 0) :=
  Std.TreeMap.isEmpty_eq_size_eq_zero

/-- Tables with the same policy that answer alike at every address and have had as many
claims differ in nothing. -/
theorem alike_of_get? (hpolicy : t'.policy = t.policy) (hget : ∀ a, t'.get? a = t.get? a)
    (hclaims : t'.size + t'.collisions = t.size + t.collisions) : t.Alike t' := by
  have htoList : t'.toList = t.toList := toList_eq_of_get? hget
  have hsize : t'.size = t.size := by rw [← length_toList, ← length_toList, htoList]
  exact {
    policy := hpolicy
    get? := hget
    toList := htoList
    size := hsize
    isEmpty := by rw [isEmpty_eq, isEmpty_eq, hsize]
    collisions := by omega }

namespace Alike

variable (h : t.Alike t')

include h

/-- A commit tells the same. -/
theorem commit_snd (s : Subprogram) : (t'.commit s).2 = (t.commit s).2 := by
  rw [Bool.eq_iff_iff, commit_snd_iff, commit_snd_iff, h.get?, h.policy]

/-- A commit leaves tables that nobody can tell apart. -/
theorem commit (s : Subprogram) : (t.commit s).1.Alike (t'.commit s).1 := by
  refine alike_of_get? ?_ (fun a => ?_) ?_
  · rw [policy_commit, policy_commit, h.policy]
  · rw [get?_commit, get?_commit, h.get?, h.policy]
  · rw [size_add_collisions_commit, size_add_collisions_commit, h.size, h.collisions]

/-- **Whatever is committed from now on** tells the same. -/
theorem replies_eq (ss : List Subprogram) : t'.replies ss = t.replies ss := by
  induction ss generalizing t t' with
  | nil => rfl
  | cons s rest ih => rw [replies, replies, h.commit_snd, ih (h.commit s)]

end Alike

/-! ## The order of commits -/

/-- Two histories have the same claims of each address, in the same order. -/
def SameByAddress (ss ss' : List Subprogram) : Prop :=
  ∀ a, ss'.filter (·.address = a) = ss.filter (·.address = a)

/-- Histories that look the same at each address have the same commits. -/
theorem SameByAddress.perm (h : SameByAddress ss ss') : ss'.Perm ss := by
  rw [List.perm_iff_count]
  intro s
  have hcount : ∀ l : List Subprogram, (l.filter (·.address = s.address)).count s = l.count s :=
    fun l => List.count_filter (decide_eq_true rfl)
  rw [← hcount ss', ← hcount ss, h]

/-- Neighbours that claim different addresses may be exchanged. -/
theorem sameByAddress_exchange (before : List Subprogram) {s s' : Subprogram}
    (h : s.address ≠ s'.address) (after : List Subprogram) :
    SameByAddress (before ++ s :: s' :: after) (before ++ s' :: s :: after) := by
  intro a
  rw [List.filter_append, List.filter_append]
  congr 1
  by_cases hs : s.address = a
  · have hs' : s'.address ≠ a := fun hs' => h (hs.trans hs'.symm)
    simp [hs, hs']
  · simp [List.filter_cons, hs]

/-- Commits do not change the policy. -/
theorem policy_commitAll (t : ParameterTable) (ss : List Subprogram) :
    (t.commitAll ss).policy = t.policy := by
  induction ss generalizing t with
  | nil => rfl
  | cons s rest ih => rw [commitAll, List.foldl_cons, ← commitAll, ih, policy_commit]

/-- **Only the order of claims of one address counts:** histories that are the same by
address leave tables that nobody can tell apart. -/
theorem alike_commitAll (t : ParameterTable) (h : SameByAddress ss ss') :
    (t.commitAll ss).Alike (t.commitAll ss') := by
  refine alike_of_get? ?_ (fun a => ?_) ?_
  · rw [policy_commitAll, policy_commitAll]
  · rw [get?_commitAll, get?_commitAll, h]
  · rw [size_add_collisions_commitAll, size_add_collisions_commitAll, h.perm.countP_eq]

/-- A commit does not change what another address makes the next commit tell. -/
theorem commit_snd_commit (t : ParameterTable) {s s' : Subprogram} (h : s.address ≠ s'.address) :
    ((t.commit s).1.commit s').2 = (t.commit s').2 := by
  rw [Bool.eq_iff_iff, commit_snd_iff, commit_snd_iff, policy_commit, get?_commit,
    if_neg fun hclaim => h hclaim.1]

/-- **Neighbours exchanged** tell what they told, and so do all later commits. -/
theorem replies_exchange (t : ParameterTable) {s s' : Subprogram} (h : s.address ≠ s'.address)
    (after : List Subprogram) :
    ∃ told told' later, t.replies (s :: s' :: after) = told :: told' :: later ∧
      t.replies (s' :: s :: after) = told' :: told :: later := by
  have halike : (t.commitAll [s, s']).Alike (t.commitAll [s', s]) :=
    t.alike_commitAll (sameByAddress_exchange [] h [])
  refine ⟨(t.commit s).2, (t.commit s').2, (t.commitAll [s, s']).replies after, ?_, ?_⟩
  · rw [replies, replies, t.commit_snd_commit h]
    rfl
  · rw [replies, replies, t.commit_snd_commit h.symm, ← halike.replies_eq after]
    rfl

/-- **A history read backwards** under the other policy stores the same pairs, and as many
claims collide. -/
theorem commitAll_reverse (ss : List Subprogram) :
    ((empty .lastWins).commitAll ss.reverse).toList = ((empty .firstWins).commitAll ss).toList ∧
      ((empty .lastWins).commitAll ss.reverse).size = ((empty .firstWins).commitAll ss).size ∧
      ((empty .lastWins).commitAll ss.reverse).collisions =
        ((empty .firstWins).commitAll ss).collisions := by
  have hclaims : ((empty .firstWins).commitAll ss).SameClaims
      ((empty .lastWins).commitAll ss.reverse) :=
    sameClaims_commitAll .firstWins .lastWins (ss.reverse_perm.symm.map _)
  refine ⟨toList_eq_of_get? fun a => ?_, hclaims.size, hclaims.collisions⟩
  rw [get?_commitAll_empty, get?_commitAll_empty, List.filter_reverse,
    DuplicatePolicy.winner?_reverse]

/-- **Which order of commits matters.**  A history committed to an empty table of which the
first one wins, and the reversed history to one of which the last one wins, leave the same
pairs, as many of them, and the same number of collisions.  Under either policy neighbours
in a history that claim different addresses may be exchanged: the tables answer every
question alike at the end, the two commits tell what they told before, and so does every
later one. -/
theorem commitAll_reverse_and_exchange :
    (∀ ss : List Subprogram,
      ((empty .lastWins).commitAll ss.reverse).toList =
          ((empty .firstWins).commitAll ss).toList ∧
        ((empty .lastWins).commitAll ss.reverse).size = ((empty .firstWins).commitAll ss).size ∧
        ((empty .lastWins).commitAll ss.reverse).collisions =
          ((empty .firstWins).commitAll ss).collisions) ∧
      ∀ (p : DuplicatePolicy) (before : List Subprogram) (s s' : Subprogram)
        (after : List Subprogram), s.address ≠ s'.address →
        ((empty p).commitAll (before ++ s :: s' :: after)).Alike
            ((empty p).commitAll (before ++ s' :: s :: after)) ∧
          ∃ told told' later,
            ((empty p).commitAll before).replies (s :: s' :: after) = told :: told' :: later ∧
            ((empty p).commitAll before).replies (s' :: s :: after) = told' :: told :: later := by
  refine ⟨commitAll_reverse, fun p before s s' after h => ⟨?_, ?_⟩⟩
  · exact (empty p).alike_commitAll (sameByAddress_exchange before h after)
  · exact ((empty p).commitAll before).replies_exchange h after

/-- Another function with one parameter, at the next address. -/
def nextFunction : Subprogram := ⟨0x20, [⟨"b", true⟩]⟩

/-- Commits for two addresses change places, and so do their replies. -/
theorem commitAll_reverse_and_exchange_twoFunctions :
    oneParameter.address ≠ nextFunction.address ∧
      ((empty .lastWins).commitAll ([nextFunction] ++ oneParameter :: nextFunction :: [])).Alike
        ((empty .lastWins).commitAll ([nextFunction] ++ nextFunction :: oneParameter :: [])) ∧
      (∃ told told' later,
        ((empty .lastWins).commitAll [nextFunction]).replies [oneParameter, nextFunction] =
            told :: told' :: later ∧
          ((empty .lastWins).commitAll [nextFunction]).replies [nextFunction, oneParameter] =
            told' :: told :: later) ∧
      ((empty .lastWins).commitAll ([nextFunction] ++ nextFunction :: oneParameter :: [])).get?
        0x10 = some [⟨"a", false⟩] := by
  have haddress : oneParameter.address ≠ nextFunction.address := by decide
  obtain ⟨halike, hreplies⟩ := commitAll_reverse_and_exchange.2 .lastWins [nextFunction]
    oneParameter nextFunction [] haddress
  refine ⟨haddress, halike, hreplies, ?_⟩
  rw [get?_commitAll_empty]
  rfl

end ParameterTable
end ParamAtlas
