/-
# What a walk covers, told by ancestry

Which entries a walk visits depends on what stands above them, not on its stack:

| entry | visited |
| --- | --- |
| the entry that the walk starts at, or a later sibling of it | always |
| a descendant of one of these | if the tags of all its ancestors, from that one down, can be read |
| any other | never |

The first two rows make up the exposed entries (`Exposed`).  A tree is told by its paths:
no two lead to one entry (`TreeFrom`).  There the ancestors of an entry all stand on the
one path to it, so a walk that comes to the entry has entered every one of them
(`isSome_tag_of_ancestor`), and no walk comes to an entry twice (`TreeFrom.nodup_visits`).

The outline has the same entries in the order in which they are declared, and more of
them: it goes below unreadable tags as well.  Less what stands there it has what the walk
visits, in another order (`visits_perm_pruned`).
-/

import Mathlib.Data.Set.Card
import ParamAtlas.Proofs.Forest.Memory
import ParamAtlas.Proofs.Forest.Reach
import ParamAtlas.Proofs.Forest.RecursiveOrder

namespace ParamAtlas
namespace Forest

variable {ε : Type}

/-- What paths from `e` lead to is a tree, or several side by side: no two paths lead to
one entry. -/
def TreeFrom (F : Forest ε) (e : ε) : Prop :=
  ∀ p q x, F.follow p e = some x → F.follow q e = some x → p = q

/-- `x` is `e`, a later sibling of `e`, or a descendant of one of these whose proper
ancestors from there down all have readable tags. -/
def Exposed (F : Forest ε) (e x : ε) : Prop :=
  x = e ∨ F.LaterSibling e x ∨
    ∃ top, (top = e ∨ F.LaterSibling e top) ∧ F.Ancestor top x ∧
      ∀ a, F.Covers top a → F.Ancestor a x → (F.tag a).isSome

variable {F : Forest ε} {a b e x : ε}

/-! ## Trees -/

/-- Each entry of a forest has a tree before it. -/
theorem IsForest.treeFrom (hF : F.IsForest) {i : Nat} (he : F.InUnit i e) : F.TreeFrom e := by
  intro p q x hp hq
  obtain ⟨r, hr⟩ := inUnit_iff.1 he
  have hpaths := hF i i (r ++ p) (r ++ q) x (at_append_iff.2 ⟨e, hr, hp⟩)
    (at_append_iff.2 ⟨e, hr, hq⟩)
  exact List.append_cancel_left hpaths.2

/-- A way goes on from what its first link leads to. -/
theorem follow_cons_of_link (down : Bool) (hlink : F.link down e = some b) (p : List Bool) :
    F.follow (down :: p) e = F.follow p b := by
  rw [follow, hlink, Option.bind_some]

/-- What a link leads to is the root of a tree too. -/
theorem TreeFrom.of_link (h : F.TreeFrom e) (down : Bool) (hlink : F.link down e = some b) :
    F.TreeFrom b := by
  intro p q x hp hq
  rw [← follow_cons_of_link down hlink] at hp hq
  exact (List.cons.inj (h _ _ x hp hq)).2

/-- In a tree the path to what a walk visits behind a link starts with that link. -/
theorem TreeFrom.exists_eq_cons (h : F.TreeFrom e) (down : Bool) (hlink : F.link down e = some b)
    (hx : x ∈ F.visits b) {path : List Bool} (hpath : F.follow path e = some x) :
    ∃ rest, path = down :: rest ∧ F.follow rest b = some x := by
  obtain ⟨rest, hrest⟩ := exists_follow_of_mem_visits down hlink hx
  refine ⟨rest, h _ _ x hpath hrest, ?_⟩
  rwa [follow_cons_of_link down hlink] at hrest

/-- **A walk of a tree visits nothing twice.** -/
theorem TreeFrom.nodup_visits (h : F.TreeFrom e) : (F.visits e).Nodup := by
  induction e using F.linkInduction with
  | step e ihsibling ihchild =>
    have hbeside : ∀ x ∈ F.visits? (F.nextSibling e), ∃ p, F.follow (false :: p) e = some x := by
      intro x hx
      obtain ⟨s, hs, hx⟩ := mem_visits?.1 hx
      exact exists_follow_of_mem_visits false hs hx
    have hbelow : ∀ x ∈ F.visits? (F.entered e), ∃ p, F.follow (true :: p) e = some x := by
      intro x hx
      obtain ⟨c, hc, hx⟩ := mem_visits?.1 hx
      exact exists_follow_of_mem_visits true (firstChild_of_entered hc) hx
    rw [visits_eq, List.nodup_cons, List.nodup_append]
    refine ⟨?_, ?_, ?_, ?_⟩
    · intro he
      rcases List.mem_append.1 he with he | he
      · obtain ⟨p, hp⟩ := hbeside e he
        cases h [] _ e rfl hp
      · obtain ⟨p, hp⟩ := hbelow e he
        cases h [] _ e rfl hp
    · cases hs : F.nextSibling e with
      | none => exact .nil
      | some s =>
        rw [visits?_some]
        exact ihsibling s hs (h.of_link false hs)
    · cases hc : F.entered e with
      | none => exact .nil
      | some c =>
        rw [visits?_some]
        have hfirst := firstChild_of_entered hc
        exact ihchild c hfirst (h.of_link true hfirst)
    · rintro x hx y hy rfl
      obtain ⟨p, hp⟩ := hbeside x hx
      obtain ⟨q, hq⟩ := hbelow x hy
      cases h _ _ x hp hq

/-! ## Ancestors -/

/-- **A walk of a tree has entered all ancestors** of what it visits, as far as they are
reached from where it starts: the path to the entry leads through them. -/
theorem isSome_tag_of_ancestor (h : F.TreeFrom e) (hx : x ∈ F.visits e) (ha : F.Reaches e a)
    (hax : F.Ancestor a x) : (F.tag a).isSome := by
  obtain ⟨p, hp⟩ := ha
  obtain ⟨q, hq⟩ := exists_follow_true_iff.2 hax
  have hpath : F.follow (p ++ true :: q) e = some x := by
    rw [follow_append, hp, Option.bind_some, hq]
  -- The walk goes on from a link that the path to `x` starts with.
  induction e using F.linkInduction generalizing p with
  | step e ihsibling ihchild =>
    rw [visits_eq, List.mem_cons, List.mem_append, mem_visits?, mem_visits?] at hx
    rcases hx with rfl | ⟨s, hs, hx⟩ | ⟨c, hc, hx⟩
    · cases p <;> cases h [] _ x rfl hpath
    · obtain ⟨rest, heq, hrest⟩ := h.exists_eq_cons false hs hx hpath
      cases p with
      | nil => cases heq
      | cons down p =>
        obtain ⟨rfl, rfl⟩ := List.cons.inj heq
        rw [follow_cons_of_link false hs] at hp
        exact ihsibling s hs (h.of_link false hs) hx p hp hrest
    · have hfirst := firstChild_of_entered hc
      obtain ⟨rest, heq, hrest⟩ := h.exists_eq_cons true hfirst hx hpath
      cases p with
      | nil =>
        cases hp
        exact (entered_eq_some_iff.1 hc).1
      | cons down p =>
        obtain ⟨rfl, rfl⟩ := List.cons.inj heq
        rw [follow_cons_of_link true hfirst] at hp
        exact ihchild c hfirst (h.of_link true hfirst) hx p hp hrest

/-- Below an entry the walk goes through ancestors with readable tags. -/
theorem enters_of_ancestor {top : ε} (hx : F.Ancestor top x)
    (htags : ∀ a, F.Covers top a → F.Ancestor a x → (F.tag a).isSome) :
    Relation.ReflTransGen F.Enters top x := by
  induction hx using Relation.TransGen.head_induction_on with
  | single hc => exact .single ⟨htags _ .refl (.single hc), hc⟩
  | head hc hx ih =>
    refine .head ⟨htags _ .refl (.head hc hx), hc⟩ (ih fun a ha hax => ?_)
    exact htags a (.head hc ha) hax

/-- **What a walk of a tree visits** are the exposed entries. -/
theorem TreeFrom.mem_visits_iff (h : F.TreeFrom e) : x ∈ F.visits e ↔ F.Exposed e x := by
  constructor
  · intro hx
    obtain ⟨top, htop, hchain⟩ := Forest.mem_visits_iff.1 hx
    rcases Relation.reflTransGen_iff_eq_or_transGen.1 (covers_of_enters hchain) with rfl | hbelow
    · exact htop.elim .inl fun hlater => .inr (.inl hlater)
    · refine .inr (.inr ⟨top, htop, hbelow, fun a ha hax => ?_⟩)
      exact isSome_tag_of_ancestor h hx (reaches_iff.2 ⟨top, htop, ha⟩) hax
  · rintro (rfl | hlater | ⟨top, htop, hbelow, htags⟩)
    · exact Forest.mem_visits_iff.2 ⟨x, .inl rfl, .refl⟩
    · exact Forest.mem_visits_iff.2 ⟨x, .inr hlater, .refl⟩
    · exact Forest.mem_visits_iff.2 ⟨top, htop, enters_of_ancestor hbelow htags⟩

/-! ## The order of declaration -/

/-- An entry, what stands below it, and then what follows from its next sibling, each with
its depth. -/
def declarationOrder (F : Forest ε) (d : Nat) : Option ε → List (Nat × ε)
  | none => []
  | some e =>
    (d, e) ::
      (F.declarationOrder (d + 1) (F.firstChild e) ++ F.declarationOrder d (F.nextSibling e))
termination_by e? => (e?.map (F.height · + 1)).getD 0
decreasing_by
  · cases h : F.firstChild e with
    | none => simp
    | some c => have := F.height_firstChild e c h; simp; omega
  · cases h : F.nextSibling e with
    | none => simp
    | some s => have := F.height_nextSibling e s h; simp; omega

/-- An outline with a stack is that of each entry on it in turn. -/
theorem outlineStack_eq (F : Forest ε) (seen : Array (Nat × ε)) (stack : List (Nat × ε)) :
    F.outlineStack seen stack =
      seen ++ (stack.flatMap fun x => F.declarationOrder x.1 (some x.2)).toArray := by
  fun_induction F.outlineStack seen stack with
  | case1 seen => simp
  | case2 seen d e rest ih =>
    rw [ih, List.flatMap_cons, declarationOrder]
    cases F.firstChild e <;> cases F.nextSibling e <;> simp [declarationOrder]

/-- **An outline lists entries in order of declaration.** -/
theorem outline_eq (F : Forest ε) (root : ε) :
    F.outline root = F.declarationOrder 0 (some root) := by
  rw [outline, outlineStack_eq]
  simp

/-- Nothing is less deep than where the declarations start. -/
theorem le_of_mem_declarationOrder {d : Nat} {e? : Option ε} {y : Nat × ε}
    (hy : y ∈ F.declarationOrder d e?) : d ≤ y.1 := by
  fun_induction F.declarationOrder d e? with
  | case1 d => cases hy
  | case2 d e ihchild ihsibling =>
    rcases List.mem_cons.1 hy with rfl | hy
    · exact Nat.le_refl d
    · rcases List.mem_append.1 hy with hy | hy
      · exact Nat.le_of_succ_le (ihchild hy)
      · exact ihsibling hy

/-- The first declaration has the depth at which they start. -/
theorem depth_of_head?_declarationOrder {d : Nat} {e? : Option ε} {y : Nat × ε}
    (hy : y ∈ (F.declarationOrder d e?).head?) : y.1 = d := by
  cases e? with
  | none => simp [declarationOrder] at hy
  | some e =>
    rw [declarationOrder, List.head?_cons, Option.mem_some_iff] at hy
    rw [← hy]

/-- Entries with their depths, less what stands below unreadable tags: behind an entry
with such a tag all goes up to the next entry that is not deeper. -/
def pruned (F : Forest ε) : List (Nat × ε) → List (Nat × ε)
  | [] => []
  | (d, e) :: rest =>
    (d, e) ::
      if (F.tag e).isSome then F.pruned rest else F.pruned (rest.dropWhile (d < ·.1))
termination_by l => l.length
decreasing_by
  · exact Nat.lt_succ_self _
  · exact Nat.lt_succ_of_le (List.dropWhile_sublist _).length_le

/-- What starts no deeper than an entry does not stand below it. -/
theorem dropWhile_eq_self_of_head? {d : Nat} {l : List (Nat × ε)} (h : ∀ y ∈ l.head?, y.1 ≤ d) :
    l.dropWhile (d < ·.1) = l := by
  cases l with
  | nil => rfl
  | cons y rest =>
    have hy : y.1 ≤ d := h y rfl
    exact List.dropWhile_cons_of_neg (by simpa using hy)

/-- A list is pruned part by part where its second part starts no deeper than anything in
the first. -/
theorem pruned_append {l l' : List (Nat × ε)} (h : ∀ x ∈ l, ∀ y ∈ l'.head?, y.1 ≤ x.1) :
    F.pruned (l ++ l') = F.pruned l ++ F.pruned l' := by
  fun_induction F.pruned l with
  | case1 => rfl
  | case2 d e rest ihall ihbeside =>
    rw [List.cons_append, pruned, List.cons_append]
    split
    · rw [ihall fun x hx => h x (List.mem_cons_of_mem _ hx)]
    · have hdrop : (rest ++ l').dropWhile (d < ·.1) = rest.dropWhile (d < ·.1) ++ l' := by
        rw [List.dropWhile_append, dropWhile_eq_self_of_head? (h (d, e) List.mem_cons_self)]
        split
        · rename_i hempty
          rw [List.isEmpty_iff.1 hempty, List.nil_append]
        · rfl
      rw [hdrop, ihbeside]
      intro x hx
      exact h x (List.mem_cons_of_mem _ ((List.dropWhile_sublist _).subset hx))

/-- **The outline without what stands below unreadable tags:** an entry, what stands below
it if its tag can be read, and then what follows from its next sibling. -/
theorem pruned_declarationOrder (F : Forest ε) (d : Nat) (e : ε) :
    F.pruned (F.declarationOrder d (some e)) =
      (d, e) :: (F.pruned (F.declarationOrder (d + 1) (F.entered e)) ++
        F.pruned (F.declarationOrder d (F.nextSibling e))) := by
  have hbelow : ∀ x ∈ F.declarationOrder (d + 1) (F.firstChild e), d < x.1 :=
    fun x hx => le_of_mem_declarationOrder hx
  have hbeside : ∀ y ∈ (F.declarationOrder d (F.nextSibling e)).head?, y.1 ≤ d :=
    fun y hy => Nat.le_of_eq (depth_of_head?_declarationOrder hy)
  rw [declarationOrder, pruned, entered]
  split
  · rw [pruned_append fun x hx y hy => (hbeside y hy).trans (Nat.le_of_lt (hbelow x hx))]
  · rw [List.dropWhile_append_of_pos fun x hx => decide_eq_true (hbelow x hx),
      dropWhile_eq_self_of_head? hbeside, declarationOrder, pruned, List.nil_append]

/-- **A walk visits what the outline has** less what stands below unreadable tags, in
another order. -/
theorem visits_perm_pruned (F : Forest ε) (d : Nat) (e? : Option ε) :
    (F.visits? e?).Perm ((F.pruned (F.declarationOrder d e?)).map (·.2)) := by
  cases e? with
  | none => rw [visits?_none, declarationOrder, pruned]; exact .nil
  | some e =>
    rw [visits?_some]
    induction e using F.linkInduction generalizing d with
    | step e ihsibling ihchild =>
      have hbeside : (F.visits? (F.nextSibling e)).Perm
          ((F.pruned (F.declarationOrder d (F.nextSibling e))).map (·.2)) := by
        cases hs : F.nextSibling e with
        | none => rw [visits?_none, declarationOrder, pruned]; exact .nil
        | some s => rw [visits?_some]; exact ihsibling s hs d
      have hbelow : (F.visits? (F.entered e)).Perm
          ((F.pruned (F.declarationOrder (d + 1) (F.entered e))).map (·.2)) := by
        cases hc : F.entered e with
        | none => rw [visits?_none, declarationOrder, pruned]; exact .nil
        | some c => rw [visits?_some]; exact ihchild c (firstChild_of_entered hc) (d + 1)
      rw [visits_eq, pruned_declarationOrder, List.map_cons, List.map_append]
      exact ((hbeside.append hbelow).trans List.perm_append_comm).cons e

/-! ## Coverage -/

/-- The entries of a list without repetitions that pass a test are as many as the test
counts. -/
theorem ncard_mem_eq_countP {l : List ε} (hl : l.Nodup) (p : ε → Bool) :
    {x | x ∈ l ∧ p x = true}.ncard = l.countP p := by
  classical
  have hset : {x | x ∈ l ∧ p x = true} = ((l.filter p).toFinset : Set ε) := by
    ext x
    simp
  rw [hset, Set.ncard_coe_finset, List.toFinset_card_of_nodup (hl.filter p),
    List.countP_eq_length_filter]

/-- **What a walk of a tree covers.**  It visits the entry that it starts at, the later
siblings of that, and the descendants of all these whose proper ancestors from there down
have readable tags, each of them once, and nothing else.  This is the outline without what
stands below unreadable tags, in another order.  The counts of the walk, whatever its
visitor makes, are the numbers of these entries, of the subprograms among them and of
those with unreadable tags. -/
theorem walk_covers_exposed {root : ε} (h : F.TreeFrom root) :
    (∀ x, x ∈ F.visits root ↔ F.Exposed root x) ∧ (F.visits root).Nodup ∧
      (F.visits root).Perm ((F.pruned (F.outline root)).map (·.2)) ∧
      (∀ (σ : Type) (visit : σ → ε → σ) (made : σ),
        (F.walk visit made root).1 = F.statsOf (F.visits root)) ∧
      F.statsOf (F.visits root) =
        { visited := {x | F.Exposed root x}.ncard
          subprograms := {x | F.Exposed root x ∧ F.tag x = some Tag.subprogram}.ncard
          skipped := {x | F.Exposed root x ∧ F.tag x = none}.ncard } := by
  have hcount : ∀ p : ε → Bool, (F.visits root).countP p = {x | F.Exposed root x ∧ p x}.ncard := by
    intro p
    simp only [← h.mem_visits_iff, ncard_mem_eq_countP h.nodup_visits]
  refine ⟨fun x => h.mem_visits_iff, h.nodup_visits, ?_, fun σ visit made => ?_, ?_⟩
  · rw [outline_eq, ← visits?_some]
    exact F.visits_perm_pruned 0 (some root)
  · rw [walk_eq]
  · rw [statsOf, hcount, hcount, ← List.countP_true, hcount]
    simp [hasTag]

/-- A unit in which the tag of entry 1 cannot be read.  Entry 2 stands below that one,
entry 3 behind it. -/
def brokenTag : MemoryForest :=
  (((MemoryForest.empty.addUnit.add ⟨some 0, some Tag.subprogram, []⟩).add
    ⟨some 1, some Tag.subprogram, []⟩).add ⟨some 0, some Tag.subprogram, []⟩).breakTag 1

/-- The links below the root are those of a tree. -/
theorem treeFrom_brokenTag : brokenTag.forest.TreeFrom 0 := by
  have hbuilt : brokenTag.Built := (((MemoryForest.Built.empty.addUnit.add _ rfl (by decide)).add
    _ rfl (by decide)).add _ rfl (by decide)).breakTag 1
  have hroot : brokenTag.forest.InUnit 0 0 := ⟨0, 0, rfl, .inl rfl, .refl⟩
  exact hbuilt.isForest.treeFrom hroot

/-- A walk passes over what is below the entry with the broken tag, and over nothing else.
-/
theorem walk_covers_exposed_brokenTag :
    brokenTag.forest.TreeFrom 0 ∧
      (∀ x, x ∈ brokenTag.forest.visits 0 ↔ brokenTag.forest.Exposed 0 x) ∧
      (brokenTag.forest.visits 0).Nodup ∧
      (brokenTag.forest.visits 0).Perm
        ((brokenTag.forest.pruned (brokenTag.forest.outline 0)).map (·.2)) ∧
      (∀ (σ : Type) (visit : σ → Nat → σ) (made : σ),
        (brokenTag.forest.walk visit made 0).1 =
          brokenTag.forest.statsOf (brokenTag.forest.visits 0)) ∧
      brokenTag.forest.statsOf (brokenTag.forest.visits 0) =
        { visited := {x | brokenTag.forest.Exposed 0 x}.ncard
          subprograms := {x | brokenTag.forest.Exposed 0 x ∧
            brokenTag.forest.tag x = some Tag.subprogram}.ncard
          skipped := {x | brokenTag.forest.Exposed 0 x ∧ brokenTag.forest.tag x = none}.ncard } :=
  ⟨treeFrom_brokenTag, walk_covers_exposed treeFrom_brokenTag⟩

end Forest
end ParamAtlas
