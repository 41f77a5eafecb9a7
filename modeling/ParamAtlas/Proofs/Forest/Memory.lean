/-
# Forests built in memory

A forest in memory starts empty and grows by units, by entries below those that
it has, and by attributes; tags may be made unreadable.  Each of these steps keeps
that a parent stands before its children, and that roots of units have no parent
and differ from each other (`Ordered`).  With that, the links of such a forest
never meet again: the first child and the next sibling of an entry are the least
positions after it with a certain parent (`findFrom_least`), so it is a forest
(`Built.isForest`).
-/

import ParamAtlas.Forest.Memory
import ParamAtlas.Proofs.Forest.Kinship

namespace ParamAtlas
namespace MemoryForest

/-- The parent of the entry at a position. -/
def parent? (m : MemoryForest) (i : Nat) : Option Nat := (m.entries[i]?).bind (·.parent)

/-- The position of the root of a unit. -/
def root? (m : MemoryForest) (k : Nat) : Option Nat := (m.units[k]?).bind (·.root)

/-- `m` is made step by step. -/
inductive Built : MemoryForest → Prop
  | empty : Built .empty
  | addUnit {m : MemoryForest} (h : Built m) : Built m.addUnit
  | add {m : MemoryForest} (h : Built m) (e : MemoryEntry) {p : Nat} (hparent : e.parent = some p)
      (hp : p < m.entries.size) : Built (m.add e)
  | setAttribute {m : MemoryForest} (h : Built m) (i : Nat) (code : AttributeCode)
      (v : MemoryValue) : Built (m.setAttribute i code v)
  | breakTag {m : MemoryForest} (h : Built m) (i : Nat) : Built (m.breakTag i)

/-- Parents stand before their children, and roots of units are entries without a
parent, each the root of one unit. -/
structure Ordered (m : MemoryForest) : Prop where
  parent_lt : ∀ i p, m.parent? i = some p → p < i
  root_lt : ∀ k r, m.root? k = some r → r < m.entries.size
  parent_root : ∀ k r, m.root? k = some r → m.parent? r = none
  root_inj : ∀ j k r, m.root? j = some r → m.root? k = some r → j = k

variable {m : MemoryForest} {i j k p r : Nat}

/-! ## What the steps change -/

/-- An entry that is added has its own parent; all others keep theirs. -/
theorem parent?_add (m : MemoryForest) (e : MemoryEntry) (i : Nat) :
    (m.add e).parent? i = if i = m.entries.size then e.parent else m.parent? i := by
  rw [parent?, add, Array.getElem?_push]
  split <;> rfl

/-- What has not been added has no parent. -/
theorem parent?_eq_none (h : m.entries.size ≤ i) : m.parent? i = none := by
  rw [parent?, Array.getElem?_eq_none h, Option.bind_none]

/-- A unit that is added has the next entry as its root; all others keep theirs. -/
theorem root?_addUnit (m : MemoryForest) (k : Nat) :
    m.addUnit.root? k = if k = m.units.size then some m.entries.size else m.root? k := by
  rw [root?, addUnit, Array.getElem?_push]
  split <;> rfl

/-- Changing an entry in other ways keeps all parents. -/
theorem parent?_modify (m : MemoryForest) (f : MemoryEntry → MemoryEntry)
    (hf : ∀ e, (f e).parent = e.parent) (i j : Nat) :
    ({ m with entries := m.entries.modify i f } : MemoryForest).parent? j = m.parent? j := by
  simp only [parent?, Array.getElem?_modify]
  split
  · rw [Option.bind_map]
    exact congrArg _ (funext hf)
  · rfl

/-! ## The invariant -/

/-- Adding a unit keeps parents in front of their children. -/
theorem Ordered.addUnit (h : m.Ordered) : m.addUnit.Ordered := by
  have hparent : ∀ i, m.addUnit.parent? i = m.parent? i := by
    intro i
    refine (m.parent?_add ⟨none, some Tag.compileUnit, []⟩ i).trans ?_
    split
    · rename_i hi
      exact (parent?_eq_none (Nat.le_of_eq hi.symm)).symm
    · rfl
  have hsize : m.addUnit.entries.size = m.entries.size + 1 := by simp [MemoryForest.addUnit, add]
  refine ⟨fun i p hi => ?_, fun k r hk => ?_, fun k r hk => ?_, fun j k r hj hk => ?_⟩
  · exact h.parent_lt i p (hparent i ▸ hi)
  · rw [root?_addUnit] at hk
    split at hk
    · cases hk
      omega
    · have := h.root_lt k r hk
      omega
  · rw [hparent]
    rw [root?_addUnit] at hk
    split at hk
    · cases hk
      exact parent?_eq_none Nat.le.refl
    · exact h.parent_root k r hk
  · rw [root?_addUnit] at hj hk
    -- The new root stands behind all others.
    split at hj <;> split at hk
    · omega
    · cases hj
      exact absurd (h.root_lt k _ hk) (Nat.lt_irrefl _)
    · cases hk
      exact absurd (h.root_lt j _ hj) (Nat.lt_irrefl _)
    · exact h.root_inj j k r hj hk

/-- So does adding an entry below one that is there, -/
theorem Ordered.add (h : m.Ordered) (e : MemoryEntry) (hparent : e.parent = some p)
    (hp : p < m.entries.size) : (m.add e).Ordered := by
  refine ⟨fun i q hi => ?_, fun k r hk => ?_, fun k r hk => ?_, h.root_inj⟩
  · rw [parent?_add] at hi
    split at hi
    · cases hparent.symm.trans hi
      omega
    · exact h.parent_lt i q hi
  · have hlt : r < m.entries.size := h.root_lt k r hk
    simp only [MemoryForest.add, Array.size_push]
    omega
  · have hlt : r < m.entries.size := h.root_lt k r hk
    rw [parent?_add, if_neg (by omega)]
    exact h.parent_root k r hk

/-- and so does changing an entry. -/
theorem Ordered.modify (h : m.Ordered) (f : MemoryEntry → MemoryEntry)
    (hf : ∀ e, (f e).parent = e.parent) (i : Nat) :
    ({ m with entries := m.entries.modify i f } : MemoryForest).Ordered := by
  refine ⟨fun j p hj => ?_, fun k r hk => ?_, fun k r hk => ?_, h.root_inj⟩
  · exact h.parent_lt j p (m.parent?_modify f hf i j ▸ hj)
  · rw [Array.size_modify]
    exact h.root_lt k r hk
  · rw [parent?_modify m f hf]
    exact h.parent_root k r hk

/-- **In whatever way a forest is built, parents stand in front of their children.** -/
theorem Built.ordered (h : m.Built) : m.Ordered := by
  induction h with
  | empty => constructor <;> simp [parent?, root?, MemoryForest.empty]
  | addUnit _ ih => exact ih.addUnit
  | add _ e hparent hp ih => exact ih.add e hparent hp
  | setAttribute _ i code v ih =>
    exact ih.modify (fun e => { e with attributes := e.attributes ++ [(code, v)] }) (fun _ => rfl) i
  | breakTag _ i ih => exact ih.modify (fun e => { e with tag := none }) (fun _ => rfl) i

/-! ## Links -/

/-- Nothing before the position found passes the test, and what is found does. -/
theorem findFrom_least {test : MemoryEntry → Bool} (h : m.findFrom test i = some j) :
    (∃ e, m.entries[j]? = some e ∧ test e) ∧
      ∀ k e, i ≤ k → m.entries[k]? = some e → test e → j ≤ k := by
  fun_induction findFrom m test i with
  | case1 i hi htest =>
    cases h
    exact ⟨⟨_, Array.getElem?_eq_getElem hi, htest⟩, fun k _ hk _ _ => hk⟩
  | case2 i hi htest ih =>
    obtain ⟨hfound, hleast⟩ := ih h
    refine ⟨hfound, fun k e hk he hpass => ?_⟩
    rcases Nat.eq_or_lt_of_le hk with rfl | hk
    · rw [Array.getElem?_eq_getElem hi] at he
      cases he
      exact absurd hpass htest
    · exact hleast k e hk he hpass
  | case3 => cases h

/-- The position that a search for a parent finds is the first one after `i`. -/
theorem findFrom_parent (h : m.findFrom (·.parent == some p) (i + 1) = some j) :
    i < j ∧ m.parent? j = some p ∧ ∀ k, i < k → m.parent? k = some p → j ≤ k := by
  obtain ⟨⟨e, he, hparent⟩, hleast⟩ := findFrom_least h
  refine ⟨(m.findFrom_bounds _ _ _ h).1, ?_, fun k hk hkp => ?_⟩
  · rw [parent?, he, Option.bind_some]
    exact eq_of_beq hparent
  · obtain ⟨e', he', hparent'⟩ := Option.bind_eq_some_iff.1 hkp
    exact hleast k e' hk he' (beq_iff_eq.2 hparent')

/-- A link leads to the first position after an entry with a certain parent: the
entry itself if it leads down, and the parent of the entry if it leads on. -/
theorem exists_parent_of_link {down : Bool} (h : m.forest.link down i = some j) :
    ∃ p, (if down then p = i else m.parent? i = some p) ∧
      i < j ∧ m.parent? j = some p ∧ ∀ k, i < k → m.parent? k = some p → j ≤ k := by
  cases down with
  | true => exact ⟨i, rfl, findFrom_parent h⟩
  | false =>
    change m.nextSibling i = some j at h
    unfold nextSibling at h
    split at h
    · cases h
    · rename_i p hp
      exact ⟨p, hp, findFrom_parent h⟩

/-- **A forest built in memory is a forest.** -/
theorem Built.isForest (h : m.Built) : m.forest.IsForest := by
  have hm := h.ordered
  have hroot : ∀ {k r}, m.forest.unitRoot k = some r → m.root? k = some r := fun hk =>
    (Option.filter_eq_some_iff.1 hk).1
  refine Forest.isForest_of_links (fun down down' i i' j _ _ hj hj' => ?_)
    (fun k r down i hk _ hr => ?_) (fun k l r hk hl => hm.root_inj k l r (hroot hk) (hroot hl))
  · obtain ⟨p, hi, hij, hp, hleast⟩ := exists_parent_of_link hj
    obtain ⟨p', hi', hij', hp', hleast'⟩ := exists_parent_of_link hj'
    cases hp.symm.trans hp'
    -- An entry between another and where its link leads would be found instead.
    cases down <;> cases down'
    · refine ⟨rfl, ?_⟩
      rcases Nat.lt_trichotomy i i' with hlt | heq | hlt
      · exact absurd (hleast i' hlt hi') (by omega)
      · exact heq
      · exact absurd (hleast' i hlt hi) (by omega)
    · cases hi'
      exact absurd (hleast' i (hm.parent_lt _ _ hi) hi) (by omega)
    · cases hi
      exact absurd (hleast i' (hm.parent_lt _ _ hi') hi') (by omega)
    · exact ⟨rfl, hi.symm.trans hi'⟩
  · obtain ⟨p, -, -, hp, -⟩ := exists_parent_of_link hr
    rw [hm.parent_root k r (hroot hk)] at hp
    cases hp

end MemoryForest
end ParamAtlas
