/-
# The order of a walk, by recursion

The order in which a walk takes entries can be told without a stack: an entry, then all
that follows from its next sibling, then all that follows from its first child, unless
the tag of the entry is unreadable (`recursiveOrder`).

What the visitor of a walk is given and what is counted come from the entries taken, in
the order in which they are taken:

| of the entries in recursive order | go to |
| --- | --- |
| all | the number of visits |
| those that are subprograms | the visitor, and the number of subprograms |
| those whose tag is unreadable | the number of entries skipped |

The visitor of a harvest commits what it is given to a table
(`walk_eq_recursiveOrder`).
-/

import ParamAtlas.Forest.Harvest
import ParamAtlas.Proofs.Forest.Walk

namespace ParamAtlas

namespace Forest

variable {ε : Type}

/-- An entry, what follows from its next sibling, and then what follows from its first
child, unless the tag of the entry is unreadable. -/
def recursiveOrder (F : Forest ε) : Option ε → List ε
  | none => []
  | some e =>
    [e] ++ F.recursiveOrder (F.nextSibling e) ++
      if (F.tag e).isSome then F.recursiveOrder (F.firstChild e) else []
termination_by e? => (e?.map (F.height · + 1)).getD 0
decreasing_by
  · cases h : F.nextSibling e with
    | none => simp
    | some s => have := F.height_nextSibling e s h; simp; omega
  · cases h : F.firstChild e with
    | none => simp
    | some c => have := F.height_firstChild e c h; simp; omega

/-- **A walk takes entries in recursive order.** -/
theorem visits_eq_recursiveOrder (F : Forest ε) (e? : Option ε) :
    F.visits? e? = F.recursiveOrder e? := by
  cases e? with
  | none => rw [visits?_none, recursiveOrder]
  | some e =>
    induction e using F.linkInduction with
    | step e ihsibling ihchild =>
      have hbeside : F.visits? (F.nextSibling e) = F.recursiveOrder (F.nextSibling e) := by
        cases hs : F.nextSibling e with
        | none => rw [visits?_none, recursiveOrder]
        | some s => exact ihsibling s hs
      have hbelow : F.visits? (F.entered e) =
          if (F.tag e).isSome then F.recursiveOrder (F.firstChild e) else [] := by
        unfold entered
        split
        · cases hc : F.firstChild e with
          | none => rw [visits?_none, recursiveOrder]
          | some c => exact ihchild c hc
        · rfl
      rw [visits?_some, visits_eq, hbeside, hbelow, recursiveOrder]
      rfl

/-- **The order of a walk.**  From any root of any forest a walk takes the entries in
recursive order.  Whatever the visitor does, it is given the subprograms among them in
that order and nothing else, and the counts are those of the entries taken.  A harvest
walks each unit in this way, and its visitor commits subprograms to the table. -/
theorem walk_eq_recursiveOrder (F : Forest ε) (root : ε) :
    F.visits root = F.recursiveOrder (some root) ∧
      (∀ (σ : Type) (visit : σ → ε → σ) (made : σ), F.walk visit made root =
        (F.statsOf (F.recursiveOrder (some root)),
          ((F.recursiveOrder (some root)).filter (F.hasTag Tag.subprogram)).foldl visit made)) ∧
      ∀ (h : Harvest) (index : Nat) (info : UnitInfo),
        F.gather h (.unit ⟨index, info, root⟩) =
          { table := (F.walk F.commitTo h.table root).2
            units := h.units + 1
            stats := h.stats + (F.walk F.commitTo h.table root).1
            events := h.events.push
              (.unitWalked index info (F.walk F.commitTo h.table root).1) } := by
  have horder : F.visits root = F.recursiveOrder (some root) := by
    rw [← visits_eq_recursiveOrder, visits?_some]
  refine ⟨horder, fun σ visit made => ?_, fun h index info => ?_⟩
  · rw [walk_eq, horder, subprogramsOf]
  · rfl

end Forest
end ParamAtlas
