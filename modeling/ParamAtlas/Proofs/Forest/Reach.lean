/-
# What a harvest reaches

A walk goes below an entry if its tag is readable, and stays above what lies
below one whose tag is not.  Told by kinship and without an order, it visits the
entry that it starts at and the later siblings of it, and then, from an entry
with a readable tag, each of its children (`mem_visits_iff`).  A harvest starts
such a walk at the root of every unit with header information, and the
subprograms that come before it there claim their entry addresses
(`mem_claimants_iff`).

Where all tags can be read a walk visits all that paths lead to, so a store of
entries is a forest as soon as its walks visit nothing twice
(`isForest_of_visits`).
-/

import ParamAtlas.Proofs.Forest.Harvest
import ParamAtlas.Proofs.Forest.Kinship

namespace ParamAtlas
namespace Forest

variable {ε : Type}

/-- `c` is a child of `a`, and the tag of `a` can be read. -/
def Enters (F : Forest ε) (a c : ε) : Prop := (F.tag a).isSome ∧ c ∈ F.children a

/-- `x` is the root of a unit with header information or a later sibling of it,
or stands below one of these, and the tags of all entries above it can be read. -/
def Reachable (F : Forest ε) (i : Nat) (x : ε) : Prop :=
  (F.unitInfo i).isSome ∧ ∃ root top, F.unitRoot i = some root ∧
    (top = root ∨ F.LaterSibling root top) ∧ Relation.ReflTransGen F.Enters top x

/-- `x` is a subprogram that can be reached, and `a` is its entry address. -/
def Claims (F : Forest ε) (a : Address) (x : ε) : Prop :=
  (∃ i < F.unitCount, F.Reachable i x) ∧ F.tag x = some Tag.subprogram ∧
    F.address x .lowPc = some a

variable {F : Forest ε} {i : Nat} {a : Address} {e x : ε}

/-- What is entered from an entry, over and over, is a descendant of it. -/
theorem covers_of_enters (h : Relation.ReflTransGen F.Enters e x) : F.Covers e x :=
  Relation.ReflTransGen.mono (fun _ _ => And.right) _ _ h

/-- What a walk of a unit reaches is in the unit. -/
theorem inUnit_of_reachable (h : F.Reachable i x) : F.InUnit i x := by
  obtain ⟨-, root, top, hroot, htop, hx⟩ := h
  exact ⟨root, top, hroot, htop, covers_of_enters hx⟩

/-- **What a walk visits:** the entry itself, its later siblings, and below these
the children of entries whose tags can be read. -/
theorem mem_visits_iff :
    x ∈ F.visits e ↔ ∃ top, (top = e ∨ F.LaterSibling e top) ∧
      Relation.ReflTransGen F.Enters top x := by
  induction e using F.linkInduction with
  | step e ihsibling ihchild =>
    rw [visits_eq, List.mem_cons, List.mem_append, mem_visits?, mem_visits?]
    constructor
    · rintro (rfl | ⟨s, hs, hx⟩ | ⟨c, hc, hx⟩)
      · exact ⟨x, .inl rfl, .refl⟩
      · obtain ⟨top, htop, hx⟩ := (ihsibling s hs).1 hx
        exact ⟨top, .inr (laterSibling_iff.2 ⟨s, hs, htop⟩), hx⟩
      · obtain ⟨htag, hc⟩ := entered_eq_some_iff.1 hc
        obtain ⟨top, htop, hx⟩ := (ihchild c hc).1 hx
        exact ⟨e, .inl rfl, .head ⟨htag, mem_children_iff.2 ⟨c, hc, htop⟩⟩ hx⟩
    · rintro ⟨top, rfl | htop, hx⟩
      · rcases hx.cases_head with rfl | ⟨c, ⟨htag, hc⟩, hx⟩
        · exact .inl rfl
        · obtain ⟨f, hf, hc⟩ := mem_children_iff.1 hc
          exact .inr (.inr ⟨f, entered_eq_some_iff.2 ⟨htag, hf⟩, (ihchild f hf).2 ⟨c, hc, hx⟩⟩)
      · obtain ⟨s, hs, htop⟩ := laterSibling_iff.1 htop
        exact .inr (.inl ⟨s, hs, (ihsibling s hs).2 ⟨top, htop, hx⟩⟩)

/-- Some path leads from an entry to what a walk from it visits. -/
theorem reaches_of_mem_visits (h : x ∈ F.visits e) : F.Reaches e x := by
  obtain ⟨top, htop, hx⟩ := mem_visits_iff.1 h
  exact reaches_iff.2 ⟨top, htop, covers_of_enters hx⟩

/-- A path through a link leads to what a walk visits that has followed the link. -/
theorem exists_follow_of_mem_visits (down : Bool) {b : ε} (hlink : F.link down e = some b)
    (hx : x ∈ F.visits b) : ∃ p, F.follow (down :: p) e = some x :=
  exists_follow_cons_iff.2 ⟨b, hlink, reaches_of_mem_visits hx⟩

/-- The subprograms reached in a unit are those that can be reached there. -/
theorem mem_reachedIn_iff :
    x ∈ F.reachedIn i ↔ F.Reachable i x ∧ F.tag x = some Tag.subprogram := by
  unfold reachedIn Reachable
  cases F.unitInfo i with
  | none => simp
  | some info =>
    cases F.unitRoot i with
    | none => simp
    | some root => simp [subprogramsOf, hasTag, mem_visits_iff]

/-- **Who claims an address:** the subprograms with that entry address that can be
reached in some unit. -/
theorem mem_claimants_iff : x ∈ F.claimants a ↔ F.Claims a x := by
  rw [claimants, List.mem_filter, reached, List.mem_flatMap]
  simp only [List.mem_range, mem_reachedIn_iff, decide_eq_true_eq, Claims]
  constructor
  · rintro ⟨⟨i, hi, hx, htag⟩, ha⟩
    exact ⟨⟨i, hi, hx⟩, htag, ha⟩
  · rintro ⟨⟨i, hi, hx⟩, htag, ha⟩
    exact ⟨⟨i, hi, hx, htag⟩, ha⟩

/-! ## Walks that visit nothing twice -/

/-- A walk visits nothing twice if each entry on its way has no sibling or starts a
walk that visits nothing twice: until it comes to an entry of the second kind it goes
straight down. -/
theorem nodup_visits_of_forall
    (h : ∀ x, F.Reaches e x → F.nextSibling x = none ∨ (F.visits x).Nodup) :
    (F.visits e).Nodup := by
  induction e using F.linkInduction with
  | step e _ ihchild =>
    refine (h e (.refl F e)).elim (fun hnone => ?_) id
    rw [visits_eq, hnone, visits?_none, List.nil_append, List.nodup_cons]
    constructor
    · intro hmem
      obtain ⟨c, hc, hmem⟩ := mem_visits?.1 hmem
      obtain ⟨r, hr⟩ := reaches_of_mem_visits hmem
      have := F.height_firstChild e c (firstChild_of_entered hc)
      have := height_le_of_follow hr
      omega
    · cases hc : F.entered e with
      | none => exact .nil
      | some c =>
        rw [visits?_some]
        have hfirst := firstChild_of_entered hc
        exact ihchild c hfirst fun x hx => h x ((reaches_of_link true hfirst).trans hx)

/-- If all tags can be read, a walk visits everything that paths lead to. -/
theorem mem_visits_of_follow {p : List Bool} (hread : ∀ x, F.Reaches e x → (F.tag x).isSome)
    (hp : F.follow p e = some x) : x ∈ F.visits e := by
  induction p generalizing e with
  | nil =>
    cases hp
    rw [visits_eq]
    exact List.mem_cons_self
  | cons down p ih =>
    obtain ⟨e', hlink, hp⟩ := Option.bind_eq_some_iff.1 hp
    have hx := ih (fun y hy => hread y ((reaches_of_link down hlink).trans hy)) hp
    rw [visits_eq, List.mem_cons, List.mem_append, mem_visits?, mem_visits?]
    cases down with
    | false => exact .inr (.inl ⟨e', hlink, hx⟩)
    | true => exact .inr (.inr ⟨e', entered_eq_some_iff.2 ⟨hread e (.refl F e), hlink⟩, hx⟩)

/-- If all tags can be read and a walk visits nothing twice, no two paths lead to
one entry. -/
theorem follow_injective_of_nodup {p q : List Bool}
    (hread : ∀ x, F.Reaches e x → (F.tag x).isSome) (hnodup : (F.visits e).Nodup)
    (hp : F.follow p e = some x) (hq : F.follow q e = some x) : p = q := by
  induction p generalizing e q with
  | nil =>
    cases hp
    have := height_le_of_follow hq
    exact (List.eq_nil_of_length_eq_zero (by omega)).symm
  | cons down p ih =>
    cases q with
    | nil =>
      cases hq
      have := height_le_of_follow hp
      rw [List.length_cons] at this
      omega
    | cons down' q =>
      obtain ⟨a, ha, hpa⟩ := Option.bind_eq_some_iff.1 hp
      obtain ⟨b, hb, hqb⟩ := Option.bind_eq_some_iff.1 hq
      have hreada : ∀ y, F.Reaches a y → (F.tag y).isSome :=
        fun y hy => hread y ((reaches_of_link down ha).trans hy)
      have hreadb : ∀ y, F.Reaches b y → (F.tag y).isSome :=
        fun y hy => hread y ((reaches_of_link down' hb).trans hy)
      have hxa := mem_visits_of_follow hreada hpa
      have hxb := mem_visits_of_follow hreadb hqb
      have hentered : ∀ {c}, F.firstChild e = some c → F.entered e = some c :=
        fun hc => entered_eq_some_iff.2 ⟨hread e (.refl F e), hc⟩
      rw [visits_eq, List.nodup_cons, List.nodup_append] at hnodup
      obtain ⟨-, hbeside, hbelow, hdisjoint⟩ := hnodup
      cases down <;> cases down'
      · cases ha.symm.trans hb
        rw [show F.nextSibling e = some a from ha, visits?_some] at hbeside
        rw [ih hreada hbeside hpa hqb]
      · exact absurd rfl (hdisjoint x (mem_visits?.2 ⟨a, ha, hxa⟩) x
          (mem_visits?.2 ⟨b, hentered hb, hxb⟩))
      · exact absurd rfl (hdisjoint x (mem_visits?.2 ⟨b, hb, hxb⟩) x
          (mem_visits?.2 ⟨a, hentered ha, hxa⟩))
      · cases ha.symm.trans hb
        rw [hentered ha, visits?_some] at hbelow
        rw [ih hreada hbelow hpa hqb]

/-- **A forest is told by its walks:** all tags can be read, the walk of a unit
visits nothing twice, and no entry belongs to two units. -/
theorem isForest_of_visits (hread : ∀ i x, F.InUnit i x → (F.tag x).isSome)
    (hnodup : ∀ i root, F.unitRoot i = some root → (F.visits root).Nodup)
    (hunit : ∀ i j x, F.InUnit i x → F.InUnit j x → i = j) : F.IsForest := by
  intro i j p q x hp hq
  obtain rfl := hunit i j x (inUnit_iff.2 ⟨p, hp⟩) (inUnit_iff.2 ⟨q, hq⟩)
  obtain ⟨root, hroot, hp⟩ := Option.bind_eq_some_iff.1 hp
  rw [At, hroot, Option.bind_some] at hq
  have hbelow : ∀ y, F.Reaches root y → (F.tag y).isSome := fun y hy =>
    hread i y (inUnit_of_reaches hroot hy)
  exact ⟨rfl, follow_injective_of_nodup hbelow (hnodup i root hroot) hp hq⟩

end Forest
end ParamAtlas
