/-
# What a walk visits

The stack of a walk holds entries whose parts of the forest are still to come,
and what one entry of it contributes does not depend on the rest
(`walkStack_append`).  So a walk from an entry is the entry, the walk from its
next sibling, and the walk from the child that is entered (`visits_eq`).  What a
walk does with the entries has no say in which ones it takes: whatever it makes,
it makes of the entries visited, one after another (`walkStack_eq`), so the
counts and the visitor of a walk get what these have for them (`walk_eq`).

Links come to an end, so what is to be shown of entries may be assumed of those
that they link to (`linkInduction`).  A walk depends on nothing but the links
that it follows (`visits_map`).
-/

import ParamAtlas.Forest.Walk

namespace ParamAtlas

theorem WalkStats.add_assoc (a b c : WalkStats) : a + b + c = a + (b + c) := by
  change WalkStats.mk _ _ _ = WalkStats.mk _ _ _
  congr 1 <;> exact Nat.add_assoc ..

theorem WalkStats.zero_add (a : WalkStats) : .zero + a = a := by
  change WalkStats.mk _ _ _ = _
  simp [WalkStats.zero]

namespace Forest

variable {ε σ τ : Type}

/-- The entries that a walk visits from an entry on, if there is one. -/
def visits? (F : Forest ε) (e? : Option ε) : List ε := e?.toList.flatMap F.visits

@[simp] theorem visits?_none (F : Forest ε) : F.visits? none = [] := rfl

@[simp] theorem visits?_some (F : Forest ε) (e : ε) : F.visits? (some e) = F.visits e := by
  simp [visits?]

/-- What is visited from where a link leads, if it leads anywhere. -/
theorem mem_visits? {F : Forest ε} {e? : Option ε} {x : ε} :
    x ∈ F.visits? e? ↔ ∃ e, e? = some e ∧ x ∈ F.visits e := by
  simp [visits?]

/-- The upper part of a stack is taken before the lower one. -/
theorem walkStack_append (F : Forest ε) (take : σ → ε → σ) (s : σ) (upper lower : List ε) :
    F.walkStack take s (upper ++ lower) = F.walkStack take (F.walkStack take s upper) lower := by
  fun_induction F.walkStack take s upper with
  | case1 s => rfl
  | case2 s e rest ih =>
    rw [List.cons_append, walkStack, ← ih]
    simp only [turn, List.append_assoc]

/-- Two walks that keep what they make in step end in step. -/
theorem walkStack_hom (F : Forest ε) {take : σ → ε → σ} {take' : τ → ε → τ} (g : σ → τ)
    (hg : ∀ s e, g (take s e) = take' (g s) e) (s : σ) (stack : List ε) :
    g (F.walkStack take s stack) = F.walkStack take' (g s) stack := by
  fun_induction F.walkStack take s stack with
  | case1 s => rw [walkStack]
  | case2 s e rest ih =>
    rw [ih, walkStack.eq_def F take' (g s)]
    simp only [turn, hg]

/-- **A walk makes what it makes of the entries visited**, one after another. -/
theorem walkStack_eq (F : Forest ε) (take : σ → ε → σ) (s : σ) (stack : List ε) :
    F.walkStack take s stack = (stack.flatMap F.visits).foldl take s := by
  induction stack generalizing s with
  | nil => rw [walkStack]; rfl
  | cons e rest ih =>
    have hlog : (F.walkStack Array.push #[] [e]).toList.foldl take s = F.walkStack take s [e] :=
      F.walkStack_hom (fun seen => seen.toList.foldl take s) (by simp) #[] [e]
    rw [show e :: rest = [e] ++ rest from rfl, walkStack_append, ih, ← hlog, List.flatMap_append,
      List.foldl_append, List.flatMap_singleton]
    rfl

/-- **A walk from an entry** is the entry, then the walk from its next sibling,
then the walk from the child that is entered. -/
theorem visits_eq (F : Forest ε) (e : ε) :
    F.visits e = e :: (F.visits? (F.nextSibling e) ++ F.visits? (F.entered e)) := by
  rw [visits, walkStack]
  simp [turn, walkStack_eq, List.foldl_push_eq_append', visits?]

/-! ## What a walk counts, and what its visitor is given -/

/-- Visits count together. -/
theorem statsOf_append (F : Forest ε) (l l' : List ε) :
    F.statsOf (l ++ l') = F.statsOf l + F.statsOf l' := by
  rw [statsOf, List.length_append, List.countP_append, List.countP_append]
  rfl

/-- What is recorded of one entry. -/
theorem record_eq (F : Forest ε) (visit : σ → ε → σ) (w : WalkStats × σ) (e : ε) :
    F.record visit w e = (w.1 + F.statsOf [e], (F.subprogramsOf [e]).foldl visit w.2) := by
  obtain ⟨⟨visited, subprograms, skipped⟩, made⟩ := w
  change _ = (WalkStats.mk _ _ _, _)
  cases ht : F.tag e with
  | none => simp [record, subprogramsOf, statsOf, hasTag, ht]
  | some t =>
    by_cases hsub : t = Tag.subprogram
    · simp [record, subprogramsOf, statsOf, hasTag, ht, hsub]
    · simp [record, subprogramsOf, statsOf, hasTag, ht, hsub]

/-- **Recording visits one by one** counts them, and passes on the subprograms among them.
-/
theorem foldl_record (F : Forest ε) (visit : σ → ε → σ) (w : WalkStats × σ) (visited : List ε) :
    visited.foldl (F.record visit) w =
      (w.1 + F.statsOf visited, (F.subprogramsOf visited).foldl visit w.2) := by
  induction visited generalizing w with
  | nil => rfl
  | cons e rest ih =>
    rw [List.foldl_cons, ih, record_eq, show e :: rest = [e] ++ rest from rfl, statsOf_append,
      ← WalkStats.add_assoc, subprogramsOf, subprogramsOf, subprogramsOf, List.filter_append,
      List.foldl_append]

/-- **A walk with a visitor** counts the entries visited, and gives the subprograms among
them to the visitor. -/
theorem walk_eq (F : Forest ε) (visit : σ → ε → σ) (made : σ) (root : ε) :
    F.walk visit made root =
      (F.statsOf (F.visits root), (F.subprogramsOf (F.visits root)).foldl visit made) := by
  rw [walk, walkStack_eq, foldl_record, List.flatMap_singleton, WalkStats.zero_add]

/-! ## Entries on the way -/

/-- Induction along links: what holds of an entry as soon as it holds of its
next sibling and its first child holds of every entry. -/
theorem linkInduction (F : Forest ε) {P : ε → Prop}
    (step : ∀ e, (∀ s, F.nextSibling e = some s → P s) →
      (∀ c, F.firstChild e = some c → P c) → P e) (e : ε) : P e := by
  induction hheight : F.height e using Nat.strongRecOn generalizing e with
  | ind n ih =>
    refine step e (fun s hs => ih _ ?_ s rfl) fun c hc => ih _ ?_ c rfl
    · exact hheight ▸ F.height_nextSibling e s hs
    · exact hheight ▸ F.height_firstChild e c hc

/-- The child that is entered is the first child of an entry with a readable tag. -/
theorem entered_eq_some_iff {F : Forest ε} {e c : ε} :
    F.entered e = some c ↔ (F.tag e).isSome ∧ F.firstChild e = some c := by
  unfold entered
  split <;> simp_all

/-- What is entered is the first child. -/
theorem firstChild_of_entered {F : Forest ε} {e c : ε} (h : F.entered e = some c) :
    F.firstChild e = some c := (entered_eq_some_iff.1 h).2

/-- **What passes along the links of a walk** holds of every entry that it visits. -/
theorem forall_mem_visits {F : Forest ε} {P : ε → Prop}
    (hsibling : ∀ e s, P e → F.nextSibling e = some s → P s)
    (hchild : ∀ e c, P e → F.entered e = some c → P c) {root : ε} (hroot : P root) :
    ∀ e ∈ F.visits root, P e := by
  induction root using F.linkInduction with
  | step root ihsibling ihchild =>
    intro e he
    rw [visits_eq, List.mem_cons, List.mem_append, mem_visits?, mem_visits?] at he
    rcases he with rfl | ⟨s, hs, he⟩ | ⟨c, hc, he⟩
    · exact hroot
    · exact ihsibling s hs (hsibling root s hroot hs) e he
    · exact ihchild c (firstChild_of_entered hc) (hchild root c hroot hc) e he

/-- **A walk follows a map of entries:** where siblings and entered children are mapped
to siblings and entered children, a walk visits what is visited before, mapped. -/
theorem visits_map {δ : Type} {F : Forest ε} {G : Forest δ} {nodes : ε → Prop} {f : ε → δ}
    (hsibling : ∀ e, nodes e → G.nextSibling (f e) = (F.nextSibling e).map f ∧
      ∀ s, F.nextSibling e = some s → nodes s)
    (hchild : ∀ e, nodes e → G.entered (f e) = (F.entered e).map f ∧
      ∀ c, F.entered e = some c → nodes c) {root : ε} (hroot : nodes root) :
    G.visits (f root) = (F.visits root).map f := by
  induction root using F.linkInduction with
  | step e ihsibling ihchild =>
    obtain ⟨hs, hsnodes⟩ := hsibling e hroot
    obtain ⟨hc, hcnodes⟩ := hchild e hroot
    have hbeside : G.visits? (G.nextSibling (f e)) = (F.visits? (F.nextSibling e)).map f := by
      rw [hs]
      cases h : F.nextSibling e with
      | none => rfl
      | some s =>
        rw [Option.map_some, visits?_some, visits?_some]
        exact ihsibling s h (hsnodes s h)
    have hbelow : G.visits? (G.entered (f e)) = (F.visits? (F.entered e)).map f := by
      rw [hc]
      cases h : F.entered e with
      | none => rfl
      | some c =>
        rw [Option.map_some, visits?_some, visits?_some]
        exact ihchild c (firstChild_of_entered h) (hcnodes c h)
    rw [visits_eq, visits_eq F, hbeside, hbelow, List.map_cons, List.map_append]

end Forest
end ParamAtlas
