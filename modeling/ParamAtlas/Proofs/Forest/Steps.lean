/-
# The turns of a loop over links

A walk takes one entry from its stack in each turn, and a subprogram is read by taking
one child in each turn.  Here both turns are repeated (`turn`, `siblingTurn`) without
the measure that bounds the loops.  A walk is through after as many turns as it visits
entries (`iterate_turn`), and the loop over the children of an entry after as many
turns as there are children (`iterate_siblingTurn`).
-/

import Mathlib.Logic.Function.Iterate
import ParamAtlas.Proofs.Forest.Walk

namespace ParamAtlas
namespace Forest

variable {ε σ : Type} (F : Forest ε)

/-! ## Children -/

/-- An entry and the siblings after it, if there is one. -/
def siblings? (e? : Option ε) : List ε := (F.siblingsOnto #[] e?).toList

/-- What was collected before stays in front. -/
theorem siblingsOnto_append (before seen : Array ε) (e? : Option ε) :
    F.siblingsOnto (before ++ seen) e? = before ++ F.siblingsOnto seen e? := by
  fun_induction F.siblingsOnto seen e? with
  | case1 seen => rw [siblingsOnto]
  | case2 seen e ih =>
    rw [siblingsOnto, ← ih]
    simp only [siblingTurn, Array.append_push]

/-- The loop over siblings appends them to what it has. -/
theorem siblingsOnto_eq (seen : Array ε) (e? : Option ε) :
    F.siblingsOnto seen e? = seen ++ (F.siblings? e?).toArray := by
  have := F.siblingsOnto_append seen #[] e?
  rwa [Array.append_empty] at this

@[simp] theorem siblings?_none : F.siblings? none = [] := by
  rw [siblings?, siblingsOnto]

@[simp] theorem siblings?_some (e : ε) :
    F.siblings? (some e) = e :: F.siblings? (F.nextSibling e) := by
  rw [siblings?, siblingsOnto, siblingsOnto_eq]
  simp [siblingTurn]

/-- The children of an entry are the siblings from its first child on. -/
theorem children_eq (e : ε) : F.children e = F.siblings? (F.firstChild e) := rfl

/-- What rises from sibling to sibling rises along the children of an entry. -/
theorem pairwise_siblings? {f : ε → Nat} (hf : ∀ a b, F.nextSibling a = some b → f a < f b)
    (e? : Option ε) : (F.siblings? e?).Pairwise (f · < f ·) := by
  have hfrom : ∀ e, (∀ x ∈ F.siblings? (some e), f e ≤ f x) ∧
      (F.siblings? (some e)).Pairwise (f · < f ·) := by
    intro e
    induction e using F.linkInduction with
    | step e ih _ =>
      rw [siblings?_some]
      cases hs : F.nextSibling e with
      | none => simp
      | some s =>
        have hes := hf e s hs
        obtain ⟨hle, hpairs⟩ := ih s hs
        have hlt : ∀ x ∈ F.siblings? (some s), f e < f x := fun x hx =>
          Nat.lt_of_lt_of_le hes (hle x hx)
        exact ⟨fun x hx => (List.mem_cons.1 hx).elim (fun h => h ▸ Nat.le_refl _)
          fun hx => Nat.le_of_lt (hlt x hx), .cons hlt hpairs⟩
  cases e? with
  | none => simp
  | some e => exact (hfrom e).2

/-! ## Turns -/

/-- One turn of a walk that records the entries it takes. -/
def walkTurn : Array ε × List ε → Array ε × List ε := F.turn Array.push

/-- **A walk is through** after as many turns as entries are still to be visited. -/
theorem iterate_turn (take : σ → ε → σ) (s : σ) (stack : List ε) {n : Nat}
    (hn : (stack.flatMap F.visits).length ≤ n) :
    (F.turn take)^[n] (s, stack) = (F.walkStack take s stack, []) := by
  fun_induction F.walkStack take s stack generalizing n with
  | case1 s => exact Function.iterate_fixed rfl n
  | case2 s e rest ih =>
    have hlen : ((e :: rest).flatMap F.visits).length =
        (((F.nextSibling e).toList ++ ((F.entered e).toList ++ rest)).flatMap F.visits).length
          + 1 := by
      rw [List.flatMap_cons, visits_eq]
      simp [visits?, Nat.add_assoc]
    obtain ⟨n, rfl⟩ : ∃ k, n = k + 1 := ⟨n - 1, by omega⟩
    rw [Function.iterate_succ_apply]
    exact ih (by simp only [turn]; omega)

/-- **The loop over siblings is through** after as many turns as there are siblings
to come. -/
theorem iterate_siblingTurn (seen : Array ε) (e? : Option ε) {n : Nat}
    (hn : (F.siblings? e?).length ≤ n) :
    F.siblingTurn^[n] (seen, e?) = (F.siblingsOnto seen e?, none) := by
  fun_induction F.siblingsOnto seen e? generalizing n with
  | case1 seen => exact Function.iterate_fixed rfl n
  | case2 seen e ih =>
    rw [siblings?_some, List.length_cons] at hn
    obtain ⟨n, rfl⟩ : ∃ k, n = k + 1 := ⟨n - 1, by omega⟩
    rw [Function.iterate_succ_apply]
    exact ih (by simp only [siblingTurn]; omega)

end Forest
end ParamAtlas
