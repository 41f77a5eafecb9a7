/-
# Which claimant of an address comes first

A walk goes along all siblings before it goes below any of them, and goes below
the last of them first.  So it visits the entries of a unit in this order:

| `x` and `y` | first comes |
| --- | --- |
| `x` is an ancestor of `y` | `x` |
| `x` is an earlier sibling of `y` or of an ancestor of `y` | `x` |
| `x` is below an earlier sibling of `y` or of an ancestor of `y` | `y` |

With earlier units first, this is the order `Precedes`.  In terms of paths, where
`false` stands for a next sibling and `true` for a first child, it is the
lexicographic order of paths (`precedes_iff`), so it is a strict total order on
the entries of a forest (`isStrictTotalOrder_precedes`).  A walk takes the sibling
before the child, so it goes through the paths in that order (`pairwise_visits`),
and so does a harvest unit after unit (`pairwise_reached`).  Subprograms are
therefore committed in this order, and an address goes to the least or the
greatest of those that claim it (`contested_address`).
-/

import Mathlib.Data.List.Lex
import Mathlib.Order.RelIso.Set
import ParamAtlas.Proofs.Forest.Memory
import ParamAtlas.Proofs.Forest.Reach

namespace ParamAtlas

/-! ## The order of paths -/

/-- A path comes before its continuations, and of two paths that part the one that
goes to the sibling comes first. -/
theorem path_lt_iff {p q : List Bool} :
    p < q ↔ (∃ down r, q = p ++ down :: r) ∨
      ∃ c r s, p = c ++ false :: r ∧ q = c ++ true :: s := by
  constructor
  · intro h
    induction p generalizing q with
    | nil =>
      cases q with
      | nil => exact absurd h (List.lt_irrefl _)
      | cons down r => exact .inl ⟨down, r, rfl⟩
    | cons a p ih =>
      cases q with
      | nil => exact absurd h (List.not_lt_nil _)
      | cons b q =>
        rcases List.cons_lt_cons_iff.1 h with hab | ⟨rfl, hpq⟩
        · obtain ⟨rfl, rfl⟩ := Bool.lt_iff.1 hab
          exact .inr ⟨[], p, q, rfl, rfl⟩
        · rcases ih hpq with ⟨down, r, rfl⟩ | ⟨c, r, s, rfl, rfl⟩
          · exact .inl ⟨down, r, rfl⟩
          · exact .inr ⟨a :: c, r, s, rfl, rfl⟩
  · rintro (⟨down, r, rfl⟩ | ⟨c, r, s, rfl, rfl⟩)
    · have h : p ++ [] < p ++ down :: r := List.append_left_lt (List.nil_lt_cons down r)
      rwa [List.append_nil] at h
    · exact List.append_left_lt (List.cons_lt_cons_iff.2 (.inl Bool.false_lt_true))

namespace Forest

variable {ε : Type}

/-- `x` comes before `y`. -/
inductive Precedes (F : Forest ε) : ε → ε → Prop
  | unit {i j : Nat} {x y : ε} (hij : i < j) (hx : F.InUnit i x) (hy : F.InUnit j y) :
      Precedes F x y
  | ancestor {i : Nat} {x y : ε} (hx : F.InUnit i x) (hy : F.Ancestor x y) : Precedes F x y
  | sibling {i : Nat} {a b y : ε} (ha : F.InUnit i a) (hb : F.LaterSibling a b)
      (hy : F.Covers b y) : Precedes F a y
  | below {i : Nat} {a b x y : ε} (ha : F.InUnit i a) (hb : F.LaterSibling a b)
      (hx : F.Covers b x) (hy : F.Ancestor a y) : Precedes F x y

variable {F : Forest ε} {i j : Nat} {p q : List Bool} {x y : ε}

/-- Of two entries of a unit the one with the lesser path comes first. -/
theorem precedes_of_lt (hx : F.At i p x) (hy : F.At i q y) (hlt : p < q) : F.Precedes x y := by
  rcases path_lt_iff.1 hlt with ⟨down, r, rfl⟩ | ⟨c, r, s, rfl, rfl⟩
  · obtain ⟨e, he, hr⟩ := at_append_iff.1 hy
    cases hx.symm.trans he
    cases down with
    | true => exact .ancestor (inUnit_iff.2 ⟨p, hx⟩) (exists_follow_true_iff.1 ⟨r, hr⟩)
    | false =>
      obtain ⟨b, hb, hy⟩ := exists_follow_false_iff.1 ⟨r, hr⟩
      exact .sibling (inUnit_iff.2 ⟨p, hx⟩) hb hy
  · obtain ⟨a, ha, hr⟩ := at_append_iff.1 hx
    obtain ⟨a', ha', hs⟩ := at_append_iff.1 hy
    cases ha.symm.trans ha'
    obtain ⟨b, hb, hx⟩ := exists_follow_false_iff.1 ⟨r, hr⟩
    exact .below (inUnit_iff.2 ⟨c, ha⟩) hb hx (exists_follow_true_iff.1 ⟨s, hs⟩)

/-- **In a forest entries come in order of their units, and in a unit in order of
their paths.** -/
theorem precedes_iff (hF : F.IsForest) (hx : F.At i p x) (hy : F.At j q y) :
    F.Precedes x y ↔ i < j ∨ i = j ∧ p < q := by
  constructor
  · intro h
    cases h with
    | unit hij hx' hy' =>
      obtain ⟨p', hx'⟩ := inUnit_iff.1 hx'
      obtain ⟨q', hy'⟩ := inUnit_iff.1 hy'
      obtain ⟨rfl, rfl⟩ := hF _ _ _ _ _ hx hx'
      obtain ⟨rfl, rfl⟩ := hF _ _ _ _ _ hy hy'
      exact .inl hij
    | ancestor hx' hy' =>
      obtain ⟨p', hx'⟩ := inUnit_iff.1 hx'
      obtain ⟨r, hr⟩ := exists_follow_true_iff.2 hy'
      obtain ⟨rfl, rfl⟩ := hF _ _ _ _ _ hx hx'
      obtain ⟨rfl, rfl⟩ := hF _ _ _ _ _ hy (at_append_iff.2 ⟨x, hx, hr⟩)
      exact .inr ⟨rfl, path_lt_iff.2 (.inl ⟨true, r, rfl⟩)⟩
    | sibling ha hb hy' =>
      obtain ⟨p', ha⟩ := inUnit_iff.1 ha
      obtain ⟨r, hr⟩ := exists_follow_false_iff.2 ⟨_, hb, hy'⟩
      obtain ⟨rfl, rfl⟩ := hF _ _ _ _ _ hx ha
      obtain ⟨rfl, rfl⟩ := hF _ _ _ _ _ hy (at_append_iff.2 ⟨x, hx, hr⟩)
      exact .inr ⟨rfl, path_lt_iff.2 (.inl ⟨false, r, rfl⟩)⟩
    | below ha hb hx' hy' =>
      obtain ⟨c, ha⟩ := inUnit_iff.1 ha
      obtain ⟨r, hr⟩ := exists_follow_false_iff.2 ⟨_, hb, hx'⟩
      obtain ⟨s, hs⟩ := exists_follow_true_iff.2 hy'
      obtain ⟨rfl, rfl⟩ := hF _ _ _ _ _ hx (at_append_iff.2 ⟨_, ha, hr⟩)
      obtain ⟨rfl, rfl⟩ := hF _ _ _ _ _ hy (at_append_iff.2 ⟨_, ha, hs⟩)
      exact .inr ⟨rfl, path_lt_iff.2 (.inr ⟨c, r, s, rfl, rfl⟩)⟩
  · rintro (hij | ⟨rfl, hlt⟩)
    · exact .unit hij (inUnit_iff.2 ⟨p, hx⟩) (inUnit_iff.2 ⟨q, hy⟩)
    · exact precedes_of_lt hx hy hlt

/-- **The entries of a forest stand in one strict order.** -/
theorem isStrictTotalOrder_precedes (hF : F.IsForest) :
    IsStrictTotalOrder {x // ∃ i, F.InUnit i x} (Subrel F.Precedes fun x => ∃ i, F.InUnit i x) := by
  have hplace : ∀ x : {x // ∃ i, F.InUnit i x}, ∃ i p, F.At i p x.1 := fun ⟨x, i, hx⟩ =>
    ⟨i, inUnit_iff.1 hx⟩
  choose unit path hplace using hplace
  have hiff : ∀ x y : {x // ∃ i, F.InUnit i x}, F.Precedes x.1 y.1 ↔
      unit x < unit y ∨ unit x = unit y ∧ path x < path y := fun x y =>
    precedes_iff hF (hplace x) (hplace y)
  refine
    { trichotomous := fun x y hxy hyx => ?_
      irrefl := fun x hx => ?_
      trans := fun x y z hxy hyz => ?_ }
  · rw [subrel_val, hiff] at hxy hyx
    have hunit : unit x = unit y := by omega
    have hpath : path x = path y := le_antisymm
      (not_lt.1 fun h => hyx (.inr ⟨hunit.symm, h⟩)) (not_lt.1 fun h => hxy (.inr ⟨hunit, h⟩))
    have hx := hplace x
    rw [hunit, hpath] at hx
    exact Subtype.ext (Option.some.inj (hx.symm.trans (hplace y)))
  · rw [subrel_val, hiff] at hx
    rcases hx with hx | ⟨-, hx⟩
    · omega
    · exact lt_irrefl _ hx
  · rw [subrel_val, hiff] at hxy hyz ⊢
    rcases hxy with hxy | ⟨hxy, hxy'⟩ <;> rcases hyz with hyz | ⟨hyz, hyz'⟩
    · exact .inl (by omega)
    · exact .inl (by omega)
    · exact .inl (by omega)
    · exact .inr ⟨hxy.trans hyz, hxy'.trans hyz'⟩

/-! ## The order of walks -/

/-- What a walk visits after it has followed a link is reached by a path through
that link. -/
theorem exists_at_of_mem_visits {e : ε} (down : Bool) {e' : ε} (he : F.At i p e)
    (hlink : F.link down e = some e') (hx : x ∈ F.visits e') :
    ∃ r, F.At i (p ++ down :: r) x := by
  obtain ⟨r, hr⟩ := exists_follow_of_mem_visits down hlink hx
  exact ⟨r, at_append_iff.2 ⟨e, he, hr⟩⟩

/-- **A walk visits entries in their order.** -/
theorem pairwise_visits {e : ε} (he : F.At i p e) : (F.visits e).Pairwise F.Precedes := by
  induction e using F.linkInduction generalizing p with
  | step e ihsibling ihchild =>
    have hbeside : ∀ x ∈ F.visits? (F.nextSibling e), ∃ r, F.At i (p ++ false :: r) x := by
      intro x hx
      obtain ⟨s, hs, hx⟩ := mem_visits?.1 hx
      exact exists_at_of_mem_visits false he hs hx
    have hbelow : ∀ x ∈ F.visits? (F.entered e), ∃ r, F.At i (p ++ true :: r) x := by
      intro x hx
      obtain ⟨c, hc, hx⟩ := mem_visits?.1 hx
      exact exists_at_of_mem_visits true he (firstChild_of_entered hc) hx
    rw [visits_eq, List.pairwise_cons, List.pairwise_append]
    refine ⟨fun x hx => ?_, ?_, ?_, fun x hx y hy => ?_⟩
    · obtain ⟨down, r, hr⟩ : ∃ down r, F.At i (p ++ down :: r) x := by
        rcases List.mem_append.1 hx with hx | hx
        · exact ⟨false, hbeside x hx⟩
        · exact ⟨true, hbelow x hx⟩
      exact precedes_of_lt he hr (path_lt_iff.2 (.inl ⟨down, r, rfl⟩))
    · cases hs : F.nextSibling e with
      | none => exact .nil
      | some s =>
        rw [visits?_some]
        exact ihsibling s hs (he.concat false hs)
    · cases hc : F.entered e with
      | none => exact .nil
      | some c =>
        rw [visits?_some]
        have hfirst := firstChild_of_entered hc
        exact ihchild c hfirst (he.concat true hfirst)
    · obtain ⟨r, hr⟩ := hbeside x hx
      obtain ⟨s, hs⟩ := hbelow y hy
      exact precedes_of_lt hr hs (path_lt_iff.2 (.inr ⟨p, r, s, rfl, rfl⟩))

/-- Within a unit a harvest reaches subprograms in their order. -/
theorem pairwise_reachedIn (F : Forest ε) (i : Nat) : (F.reachedIn i).Pairwise F.Precedes := by
  unfold reachedIn
  split
  · rename_i root _ hroot
    have hat : F.At i [] root := by rw [At, hroot]; rfl
    exact (pairwise_visits hat).filter _
  · exact .nil

/-- **A harvest reaches subprograms in their order.** -/
theorem pairwise_reached (F : Forest ε) : F.reached.Pairwise F.Precedes := by
  refine List.pairwise_flatMap.2 ⟨fun i _ => F.pairwise_reachedIn i, ?_⟩
  refine List.pairwise_lt_range.imp fun hij x hx y hy => ?_
  exact .unit hij (inUnit_of_reachable (mem_reachedIn_iff.1 hx).1)
    (inUnit_of_reachable (mem_reachedIn_iff.1 hy).1)

end Forest

/-! ## The winner -/

/-- Whether a policy gives to `x` what both `x` and `y` claim: the entry that comes
first under one policy, the other one under the other. -/
def DuplicatePolicy.Prefers {α : Type} (before : α → α → Prop) :
    DuplicatePolicy → α → α → Prop
  | .firstWins, x, y => before x y
  | .lastWins, x, y => before y x

/-- The winner of claimants in order is preferred to all others. -/
theorem DuplicatePolicy.exists_winner {α : Type} {before : α → α → Prop} (p : DuplicatePolicy)
    {claimants : List α} (hne : claimants ≠ []) (hsorted : claimants.Pairwise before) :
    ∃ x ∈ claimants, p.winner? claimants = some x ∧
      ∀ y ∈ claimants, y ≠ x → p.Prefers before x y := by
  cases p with
  | firstWins =>
    obtain ⟨x, rest, rfl⟩ := List.exists_cons_of_ne_nil hne
    refine ⟨x, List.mem_cons_self, rfl, fun y hy hyx => ?_⟩
    exact List.rel_of_pairwise_cons hsorted ((List.mem_cons.1 hy).resolve_left hyx)
  | lastWins =>
    obtain ⟨rest, x, rfl⟩ := (List.eq_nil_or_concat claimants).resolve_left hne
    rw [List.concat_eq_append] at hsorted ⊢
    refine ⟨x, by simp, by simp [winner?], fun y hy hyx => ?_⟩
    have hrest : y ∈ rest := by simpa [hyx] using hy
    exact (List.pairwise_append.1 hsorted).2.2 y hrest x (List.mem_singleton_self x)

namespace Forest

variable {ε : Type} {F : Forest ε} {a : Address} {x : ε}

/-- **Who wins a contested address.**  In a forest of entries `Precedes` is a
strict total order on what belongs to units.  If some subprogram that can be
reached claims a nonzero address, a harvest into an empty table stores there
the parameters of the least claimant in that order, or of the greatest one if
the last wins. -/
theorem contested_address (hF : F.IsForest) (ha : a ≠ 0) (hx : F.Claims a x)
    (p : DuplicatePolicy) :
    IsStrictTotalOrder {y // ∃ i, F.InUnit i y}
        (Subrel F.Precedes fun y => ∃ i, F.InUnit i y) ∧
      ∃ w, F.Claims a w ∧
        (F.harvest (.empty p)).table.get? a = some (F.subprogram w).parameters ∧
        ∀ y, F.Claims a y → y ≠ w → p.Prefers F.Precedes w y := by
  refine ⟨isStrictTotalOrder_precedes hF, ?_⟩
  have hsorted : (F.claimants a).Pairwise F.Precedes := F.pairwise_reached.filter _
  have hne : F.claimants a ≠ [] := List.ne_nil_of_mem (mem_claimants_iff.2 hx)
  obtain ⟨w, hw, hwinner, hall⟩ := p.exists_winner hne hsorted
  refine ⟨w, mem_claimants_iff.1 hw, ?_, fun y hy hyw => hall y (mem_claimants_iff.2 hy) hyw⟩
  rw [get?_harvest, if_neg ha, hwinner]
  rfl

/-! ### Nested subprograms -/

/-- A subprogram at address `0x10` below the entry at `parent`. -/
def subprogramBelow (parent : Nat) : MemoryEntry :=
  ⟨some parent, some Tag.subprogram, [(.lowPc, .address 0x10)]⟩

/-- A unit with subprograms 1 and 3, and subprogram 2 inside the first of them. -/
def nested : MemoryForest :=
  ((MemoryForest.empty.addUnit.add (subprogramBelow 0)).add (subprogramBelow 1)).add
    (subprogramBelow 0)

/-- Its links are those of a forest. -/
theorem isForest_nested : nested.forest.IsForest :=
  (((MemoryForest.Built.empty.addUnit.add (subprogramBelow 0) rfl (by decide)).add
    (subprogramBelow 1) rfl (by decide)).add (subprogramBelow 0) rfl (by decide)).isForest

/-- Its outer subprogram claims the address. -/
theorem claims_nested : nested.forest.Claims 0x10 1 := by
  have hfirst : nested.forest.firstChild 0 = some 1 := by
    change nested.firstChild 0 = some 1
    rw [MemoryForest.firstChild, MemoryForest.findFrom]
    rfl
  have henters : nested.forest.Enters 0 1 := ⟨rfl, mem_children_iff.2 ⟨1, hfirst, .inl rfl⟩⟩
  exact ⟨⟨0, by decide, rfl, 0, 0, rfl, .inl rfl, .single henters⟩, rfl, rfl⟩

/-- Of two nested subprograms at one address the last one in order keeps it. -/
theorem contested_address_nested :
    nested.forest.IsForest ∧ (0x10 : Address) ≠ 0 ∧ nested.forest.Claims 0x10 1 ∧
      IsStrictTotalOrder {y // ∃ i, nested.forest.InUnit i y}
        (Subrel nested.forest.Precedes fun y => ∃ i, nested.forest.InUnit i y) ∧
      ∃ w, nested.forest.Claims 0x10 w ∧
        (nested.forest.harvest (.empty .lastWins)).table.get? 0x10 =
          some (nested.forest.subprogram w).parameters ∧
        ∀ y, nested.forest.Claims 0x10 y → y ≠ w →
          DuplicatePolicy.lastWins.Prefers nested.forest.Precedes w y :=
  ⟨isForest_nested, by decide, claims_nested,
    contested_address isForest_nested (by decide) claims_nested .lastWins⟩

end Forest
end ParamAtlas
