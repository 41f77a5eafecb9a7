/-
# Lookups of origins

References between entries may lead in circles, or on and on.  A parameter is resolved
with few lookups all the same, since each of them is made for a reason (`OriginLookups`):

| the lookups | since one is made only |
| --- | --- |
| are at most eight | while fewer were made |
| differ, and spare the parameter itself | at an offset not met before |
| follow the references | where the entry asked last refers to |
| end once name and mark are known | while one of them is unknown |

A chain is left for no other reason (`Followed.reason`).  And nothing else is looked up: a
store with the same answers at these offsets resolves the parameter alike, whatever stands
elsewhere in it and however its entries are linked (`AgreesOn.resolution_eq`).

One lookup keeps all of this (`Followed.lookUp`), so a whole chain does
(`followOrigins_invariant`).
-/

import Mathlib.Algebra.Order.BigOperators.Group.List
import Mathlib.Algebra.Order.Ring.Nat
import ParamAtlas.Forest.Deliveries
import ParamAtlas.Forest.Memory
import ParamAtlas.Proofs.Forest.SameOrigins

namespace ParamAtlas
namespace Forest

variable {ε : Type}

/-- The entries that were asked about a parameter after lookups at some offsets: itself,
and those found there. -/
def asked (F : Forest ε) (p : ε) (offsets : List EntryRef) : List ε :=
  p :: offsets.filterMap F.entryAt

/-- Where the entry asked last refers to, after lookups for a parameter, the latest
first. -/
def nextOrigin (F : Forest ε) (p : ε) : List EntryRef → Option EntryRef
  | [] => F.reference p .abstractOrigin
  | o :: _ => (F.entryAt o).bind (F.reference · .abstractOrigin)

/-- Whether some entries tell both a name and an artificial mark. -/
def Tells (F : Forest ε) (es : List ε) : Prop :=
  (∃ e ∈ es, (F.text e .name).isSome) ∧ ∃ e ∈ es, (F.flag e .artificial).isSome

/-- The offsets looked up for a parameter, the latest first, are few and all needed. -/
structure OriginLookups (F : Forest ε) (p : ε) (offsets : List EntryRef) : Prop where
  length_le : offsets.length ≤ maxOrigins
  nodup : offsets.Nodup
  ref_notMem : F.ref p ∉ offsets
  /-- Each is where the entry asked just before it refers to. -/
  follows : ∀ o earlier, o :: earlier <:+ offsets → F.nextOrigin p earlier = some o
  /-- Each is looked up before name and mark are both known. -/
  needed : ∀ o earlier, o :: earlier <:+ offsets → ¬F.Tells (F.asked p earlier)

/-- Another store gives the same answers about a parameter and about what stands at some
offsets, as far as names, marks and origins go. -/
structure AgreesOn (F G : Forest ε) (p : ε) (offsets : List EntryRef) : Prop where
  ref : G.ref p = F.ref p
  entryAt : ∀ o ∈ offsets, G.entryAt o = F.entryAt o
  text : ∀ e ∈ F.asked p offsets, G.text e .name = F.text e .name
  flag : ∀ e ∈ F.asked p offsets, G.flag e .artificial = F.flag e .artificial
  reference : ∀ e ∈ F.asked p offsets,
    G.reference e .abstractOrigin = F.reference e .abstractOrigin

/-! ## One lookup -/

/-- What is known after a lookup: its offset is noted, and an entry found there fills
what was unknown. -/
def lookUp (F : Forest ε) (o : EntryRef) (r : Resolution) : Resolution where
  name := r.name.or ((F.entryAt o).bind (F.text · .name))
  artificial := r.artificial.or ((F.entryAt o).bind (F.flag · .artificial))
  lookups := o :: r.lookups

section Lookup

variable {F : Forest ε} {p : ε} {own o : EntryRef} {origin? : Option EntryRef} {r : Resolution}

/-- A lookup that finds nothing is recorded and changes nothing else. -/
theorem lookUp_of_entryAt_eq_none (h : F.entryAt o = none) :
    F.lookUp o r = { r with lookups := o :: r.lookups } := by
  simp only [lookUp, h, Option.bind_none, Option.or_none]

/-- One that finds an entry takes from it what is missing. -/
theorem lookUp_of_entryAt_eq_some {e : ε} (h : F.entryAt o = some e) :
    F.lookUp o r = F.fill e { r with lookups := o :: r.lookups } := by
  simp only [lookUp, h, Option.bind_some, fill]

/-- What is filled from the entries asked is known when one of them tells it, also after
one more lookup. -/
theorem isSome_or_iff_asked {α : Type} {known : Option α} {answer : ε → Option α}
    {offsets : List EntryRef}
    (h : known.isSome ↔ ∃ e ∈ F.asked p offsets, (answer e).isSome) (o : EntryRef) :
    (known.or ((F.entryAt o).bind answer)).isSome ↔
      ∃ e ∈ F.asked p (o :: offsets), (answer e).isSome := by
  have hasked : ∀ e, e ∈ F.asked p (o :: offsets) ↔
      F.entryAt o = some e ∨ e ∈ F.asked p offsets := fun e => by
    rw [asked, asked, List.mem_cons, List.mem_cons, List.mem_filterMap, List.mem_filterMap,
      List.exists_mem_cons_iff, or_left_comm]
  simp only [hasked, or_and_right, exists_or, ← h, Option.isSome_or, Bool.or_eq_true]
  rw [or_comm]
  cases F.entryAt o <;> simp

/-- What holds of the latest lookup, and of each before it, holds of each. -/
theorem forall_suffix_cons {offsets : List EntryRef} {Q : EntryRef → List EntryRef → Prop}
    (hlatest : Q o offsets) (hbefore : ∀ o' earlier, o' :: earlier <:+ offsets → Q o' earlier) :
    ∀ o' earlier, o' :: earlier <:+ o :: offsets → Q o' earlier := by
  intro o' earlier hsuffix
  rcases List.suffix_cons_iff.1 hsuffix with heq | hsuffix
  · cases heq
    exact hlatest
  · exact hbefore o' earlier hsuffix

/-- What holds while the origins of a parameter are followed, the next of them at
`origin?`. -/
structure Followed (F : Forest ε) (p : ε) (origin? : Option EntryRef) (r : Resolution) :
    Prop where
  lookups : F.OriginLookups p r.lookups
  next : F.nextOrigin p r.lookups = origin?
  name : r.name.isSome ↔ ∃ e ∈ F.asked p r.lookups, (F.text e .name).isSome
  artificial : r.artificial.isSome ↔ ∃ e ∈ F.asked p r.lookups, (F.flag e .artificial).isSome

namespace Followed

/-- Nothing is left to look for when the entries asked tell name and mark. -/
theorem complete_iff (h : F.Followed p origin? r) :
    r.complete = true ↔ F.Tells (F.asked p r.lookups) := by
  rw [Resolution.complete, Bool.and_eq_true, h.name, h.artificial, Tells]

/-- At first only the parameter was asked. -/
theorem start (F : Forest ε) (p : ε) :
    F.Followed p (F.reference p .abstractOrigin)
      ⟨F.text p .name, F.flag p .artificial, []⟩ where
  lookups := ⟨Nat.zero_le _, .nil, List.not_mem_nil, by simp, by simp⟩
  next := rfl
  name := by simp [asked]
  artificial := by simp [asked]

/-- One more lookup, where it may be made, is as needed as those before it. -/
theorem originLookups_cons (h : F.Followed p (some o) r) (hadmits : r.Admits (F.ref p) o) :
    F.OriginLookups p (o :: r.lookups) := by
  obtain ⟨hincomplete, hlength, hown, hnew⟩ := hadmits
  exact {
    length_le := hlength
    nodup := List.nodup_cons.2 ⟨hnew, h.lookups.nodup⟩
    ref_notMem := List.not_mem_cons_of_ne_of_not_mem hown.symm h.lookups.ref_notMem
    follows := forall_suffix_cons h.next h.lookups.follows
    needed := forall_suffix_cons (mt h.complete_iff.2 hincomplete) h.lookups.needed }

/-- **One lookup** of the next origin, where it may be made, keeps what holds. -/
theorem lookUp (h : F.Followed p (some o) r) (hadmits : r.Admits (F.ref p) o) :
    F.Followed p ((F.entryAt o).bind (F.reference · .abstractOrigin)) (F.lookUp o r) where
  lookups := h.originLookups_cons hadmits
  next := rfl
  name := isSome_or_iff_asked h.name o
  artificial := isSome_or_iff_asked h.artificial o

/-- An origin is left alone only for one of four reasons. -/
theorem reason (h : F.Followed p (some o) r) (hdone : ¬r.Admits (F.ref p) o) :
    F.Tells (F.asked p r.lookups) ∨ r.lookups.length = maxOrigins ∨
      o = F.ref p ∨ o ∈ r.lookups := by
  by_contra hnone
  simp only [not_or] at hnone
  obtain ⟨htells, hlength, hown, hnew⟩ := hnone
  exact hdone ⟨mt h.complete_iff.1 htells, Nat.lt_of_le_of_ne h.lookups.length_le hlength,
    hown, hnew⟩

end Followed

/-! ## The whole chain -/

/-- **What every lookup keeps, the whole chain keeps.**  It ends where no lookup may be
made any more. -/
theorem followOrigins_invariant (F : Forest ε) (own : EntryRef) (origin? : Option EntryRef)
    (r : Resolution) {P : Option EntryRef → Resolution → Prop}
    (hkeeps : ∀ o r, r.Admits own o → P (some o) r →
      P ((F.entryAt o).bind (F.reference · .abstractOrigin)) (F.lookUp o r))
    (h : P origin? r) :
    ∃ last?, P last? (F.followOrigins own origin? r) ∧
      ∀ o, last? = some o → ¬(F.followOrigins own origin? r).Admits own o := by
  fun_induction F.followOrigins own origin? r with
  | case1 r => exact ⟨none, h, by simp⟩
  | case2 r o hcomplete =>
    refine ⟨some o, h, ?_⟩
    rintro _ ⟨⟩ hadmits
    exact hadmits.1 hcomplete
  | case3 r o hcomplete hfresh r' hnone =>
    have hnext := hkeeps o r ⟨hcomplete, hfresh⟩ h
    rw [lookUp_of_entryAt_eq_none hnone, hnone] at hnext
    exact ⟨none, hnext, by simp⟩
  | case4 r o hcomplete hfresh r' e hsome ih =>
    have hnext := hkeeps o r ⟨hcomplete, hfresh⟩ h
    rw [lookUp_of_entryAt_eq_some hsome, hsome] at hnext
    exact ih hnext
  | case5 r o hcomplete hstale =>
    refine ⟨some o, h, ?_⟩
    rintro _ ⟨⟩ hadmits
    exact hstale hadmits.2

/-- What was looked up stays noted. -/
theorem suffix_lookups_followOrigins (F : Forest ε) (own : EntryRef)
    (origin? : Option EntryRef) (r : Resolution) :
    r.lookups <:+ (F.followOrigins own origin? r).lookups := by
  obtain ⟨_, hsuffix, -⟩ := F.followOrigins_invariant own origin? r
    (P := fun _ r' => r.lookups <:+ r'.lookups)
    (fun o r' _ hbefore => hbefore.trans (List.suffix_cons o r'.lookups)) List.suffix_rfl
  exact hsuffix

/-- Origins are followed alike in a store with the same answers where they are looked
up. -/
theorem followOrigins_congr {G : Forest ε}
    (hfound : ∀ o ∈ (F.followOrigins own origin? r).lookups, G.entryAt o = F.entryAt o)
    (hsame : ∀ o ∈ (F.followOrigins own origin? r).lookups, ∀ e, F.entryAt o = some e →
      G.text e .name = F.text e .name ∧ G.flag e .artificial = F.flag e .artificial ∧
        G.reference e .abstractOrigin = F.reference e .abstractOrigin) :
    G.followOrigins own origin? r = F.followOrigins own origin? r := by
  fun_induction F.followOrigins own origin? r with
  | case1 r => exact followOrigins_none
  | case2 r o hcomplete => exact followOrigins_of_not_admits fun hadmits => hadmits.1 hcomplete
  | case3 r o hcomplete hfresh r' hnone =>
    have hnone' : G.entryAt o = none := (hfound o List.mem_cons_self).trans hnone
    exact followOrigins_of_dangling ⟨hcomplete, hfresh⟩ hnone'
  | case4 r o hcomplete hfresh r' e hsome ih =>
    -- The offset stays noted to the end, so the stores agree on it and on its entry.
    have hnoted := (F.suffix_lookups_followOrigins own (F.reference e .abstractOrigin)
      (F.fill e r')).mem List.mem_cons_self
    have hsome' : G.entryAt o = some e := (hfound o hnoted).trans hsome
    obtain ⟨htext, hflag, hreference⟩ := hsame o hnoted e hsome
    rw [followOrigins_of_found ⟨hcomplete, hfresh⟩ hsome', hreference, fill, htext, hflag]
    exact ih hfound hsame
  | case5 r o hcomplete hstale =>
    exact followOrigins_of_not_admits fun hadmits => hstale hadmits.2

end Lookup

/-! ## Parameters -/

/-- What holds when a parameter is resolved, and no lookup may be made any more. -/
theorem followed_resolution (F : Forest ε) (p : ε) :
    ∃ last?, F.Followed p last? (F.resolution p) ∧
      ∀ o, last? = some o → ¬(F.resolution p).Admits (F.ref p) o :=
  F.followOrigins_invariant _ _ _ (fun _ _ hadmits h => h.lookUp hadmits) (.start F p)

/-- **Forests that agree on the lookups of a parameter resolve it alike.** -/
theorem AgreesOn.resolution_eq {F G : Forest ε} {p : ε}
    (h : F.AgreesOn G p (F.resolution p).lookups) : G.resolution p = F.resolution p := by
  have hp : p ∈ F.asked p (F.resolution p).lookups := List.mem_cons_self
  rw [resolution, h.ref, h.text p hp, h.flag p hp, h.reference p hp]
  refine followOrigins_congr h.entryAt fun o ho e he => ?_
  have hasked : e ∈ F.asked p (F.resolution p).lookups :=
    List.mem_cons_of_mem _ (List.mem_filterMap.2 ⟨o, ho, he⟩)
  exact ⟨h.text e hasked, h.flag e hasked, h.reference e hasked⟩

/-- **Few lookups resolve a parameter,** whatever the references lead to: at most eight,
at different offsets, none of them its own, each where the entry asked before it refers
to, and none once name and mark are known.  The chain is left only for such a reason, and
no other lookup tells anything: stores that agree on these offsets resolve the parameter
alike. -/
theorem originLookups_resolution (F : Forest ε) (p : ε) :
    F.OriginLookups p (F.resolution p).lookups ∧
      (∀ o, F.nextOrigin p (F.resolution p).lookups = some o →
        F.Tells (F.asked p (F.resolution p).lookups) ∨
          (F.resolution p).lookups.length = maxOrigins ∨
            o = F.ref p ∨ o ∈ (F.resolution p).lookups) ∧
      ∀ G : Forest ε, F.AgreesOn G p (F.resolution p).lookups →
        G.resolution p = F.resolution p := by
  obtain ⟨last?, h, hdone⟩ := F.followed_resolution p
  refine ⟨h.lookups, fun o ho => ?_, fun G hG => hG.resolution_eq⟩
  cases h.next.symm.trans ho
  exact h.reason (hdone o rfl)

/-- Ten parameters without a name, each of which repeats the next, and the last of them
the first: no name is found for any of them, in eight lookups. -/
def ring : MemoryForest where
  entries := (Array.range 10).map fun i => ⟨none, some Tag.formalParameter,
    [(.abstractOrigin, .reference ⟨((i + 1) % 10).toUInt64⟩)]⟩
  units := #[]

example : (ring.forest.resolution 0).lookups.map (·.offset) = [8, 7, 6, 5, 4, 3, 2, 1] := by
  cbv

/-! ## Entries handed out -/

/-- At most as many entries are handed out for a parameter. -/
theorem parameterDeliveries_le (F : Forest ε) (p : ε) : F.parameterDeliveries p ≤ maxOrigins := by
  obtain ⟨_, h, -⟩ := F.followed_resolution p
  exact Nat.le_trans List.countP_le_length h.lookups.length_le

/-- **Reading a subprogram** hands out at most nine entries for each of its children. -/
theorem subprogramDeliveries_le (F : Forest ε) (e : ε) :
    F.subprogramDeliveries e ≤ (F.children e).length * (maxOrigins + 1) := by
  have hsum : ((F.parameterEntries e).map F.parameterDeliveries).sum ≤
      (F.parameterEntries e).length * maxOrigins := by
    refine (List.sum_le_card_nsmul _ maxOrigins ?_).trans_eq (by simp)
    rintro _ hd
    obtain ⟨p, -, rfl⟩ := List.mem_map.1 hd
    exact F.parameterDeliveries_le p
  calc F.subprogramDeliveries e
      = (F.children e).length + ((F.parameterEntries e).map F.parameterDeliveries).sum := rfl
    _ ≤ (F.children e).length + (F.children e).length * maxOrigins :=
      Nat.add_le_add_left (hsum.trans (Nat.mul_le_mul_right _ (List.length_filter_le ..))) _
    _ = (F.children e).length * (maxOrigins + 1) := by rw [Nat.mul_add, Nat.mul_one, Nat.add_comm]

end Forest
end ParamAtlas
