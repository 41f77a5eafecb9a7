/-
# Kinship of entries

Entries are linked to their first child and to their next sibling, and all other
kinship comes from these two links:

| kinship | links |
| --- | --- |
| `b` is a later sibling of `a` | one next sibling after another, from `a` to `b` |
| `c` is a child of `a` | the first child of `a`, or a later sibling of it |
| `a` is an ancestor of `x` | one child after another, from `a` to `x` |

A path is a list of links to follow, `true` for a first child and `false` for a
next sibling.  A path that begins with `true` leads to all that lies below an
entry (`exists_follow_true_iff`), a path that begins with `false` to its later
siblings and what lies below them (`exists_follow_false_iff`).

In a forest each entry is reached by one path only, from the root of one unit
only (`IsForest`).  It is enough that no entry has two links leading to it, and
the roots of units none (`isForest_of_links`).
-/

import Mathlib.Data.List.Induction
import Mathlib.Logic.Relation
import ParamAtlas.Proofs.Forest.Walk

namespace ParamAtlas
namespace Forest

variable {ε : Type}

/-- `b` stands behind `a` in a list of siblings. -/
def LaterSibling (F : Forest ε) : ε → ε → Prop :=
  Relation.TransGen fun a b => F.nextSibling a = some b

/-- `a` is an ancestor of `x`. -/
def Ancestor (F : Forest ε) : ε → ε → Prop := Relation.TransGen fun a c => c ∈ F.children a

/-- `x` is `a` or stands below it. -/
def Covers (F : Forest ε) : ε → ε → Prop := Relation.ReflTransGen fun a c => c ∈ F.children a

/-- `x` belongs to a unit: it is the root or a later sibling of it, or stands
below one of these. -/
def InUnit (F : Forest ε) (i : Nat) (x : ε) : Prop :=
  ∃ root top, F.unitRoot i = some root ∧ (top = root ∨ F.LaterSibling root top) ∧ F.Covers top x

/-- The entry that a link leads to: the first child or the next sibling. -/
def link (F : Forest ε) (down : Bool) (e : ε) : Option ε :=
  if down then F.firstChild e else F.nextSibling e

/-- The entry at the end of a path. -/
def follow (F : Forest ε) : (path : List Bool) → ε → Option ε
  | [], e => some e
  | down :: path, e => (F.link down e).bind (F.follow path)

/-- `x` is reached by a path from the root of a unit. -/
def At (F : Forest ε) (i : Nat) (path : List Bool) (x : ε) : Prop :=
  (F.unitRoot i).bind (F.follow path) = some x

/-- No entry is reached in two ways. -/
def IsForest (F : Forest ε) : Prop :=
  ∀ i j p q x, F.At i p x → F.At j q x → i = j ∧ p = q

variable {F : Forest ε} {a b c e x : ε}

/-! ## Paths -/

/-- One way behind another is followed from where the first one ends. -/
theorem follow_append (F : Forest ε) (p q : List Bool) (e : ε) :
    F.follow (p ++ q) e = (F.follow p e).bind (F.follow q) := by
  induction p generalizing e with
  | nil => rfl
  | cons down p ih =>
    rw [List.cons_append, follow, follow, Option.bind_assoc]
    exact congrArg _ (funext ih)

/-- An entry at such a way is reached from an entry at its first part. -/
theorem at_append_iff {i : Nat} {p q : List Bool} :
    F.At i (p ++ q) x ↔ ∃ e, F.At i p e ∧ F.follow q e = some x := by
  have hbind : (F.unitRoot i).bind (F.follow (p ++ q)) =
      ((F.unitRoot i).bind (F.follow p)).bind (F.follow q) := by
    rw [Option.bind_assoc]
    exact congrArg _ (funext (F.follow_append p q))
  rw [At, hbind, Option.bind_eq_some_iff]
  rfl

/-- A path is extended by a link. -/
theorem at_concat_iff {i : Nat} {p : List Bool} {down : Bool} :
    F.At i (p ++ [down]) x ↔ ∃ e, F.At i p e ∧ F.link down e = some x := by
  rw [at_append_iff]
  simp only [follow, Option.bind_fun_some]

/-- One more link leads to an entry at a longer way. -/
theorem At.concat {i : Nat} {p : List Bool} (he : F.At i p e) (down : Bool)
    (h : F.link down e = some x) : F.At i (p ++ [down]) x := at_concat_iff.2 ⟨e, he, h⟩

/-- Some path leads from `a` to `x`. -/
def Reaches (F : Forest ε) (a x : ε) : Prop := ∃ p, F.follow p a = some x

/-- Each entry reaches itself. -/
theorem Reaches.refl (F : Forest ε) (a : ε) : F.Reaches a a := ⟨[], rfl⟩

/-- What is reached from what is reached is reached. -/
theorem Reaches.trans (hab : F.Reaches a b) (hbc : F.Reaches b c) : F.Reaches a c := by
  obtain ⟨p, hp⟩ := hab
  obtain ⟨q, hq⟩ := hbc
  exact ⟨p ++ q, by rw [follow_append, hp, Option.bind_some, hq]⟩

/-- A link reaches what it leads to. -/
theorem reaches_of_link (down : Bool) (h : F.link down a = some b) : F.Reaches a b :=
  ⟨[down], by rw [follow, h]; rfl⟩

/-- Along a link less lies behind. -/
theorem height_lt_of_link {down : Bool} (h : F.link down a = some b) : F.height b < F.height a := by
  cases down with
  | false => exact F.height_nextSibling a b h
  | true => exact F.height_firstChild a b h

/-- Less lies ahead of an entry the further a path leads to it. -/
theorem height_le_of_follow {p : List Bool} (h : F.follow p a = some x) :
    F.height x + p.length ≤ F.height a := by
  induction p generalizing a with
  | nil =>
    cases h
    exact Nat.le_refl _
  | cons down p ih =>
    obtain ⟨b, hb, hp⟩ := Option.bind_eq_some_iff.1 h
    have := height_lt_of_link hb
    have := ih hp
    rw [List.length_cons]
    omega

/-- A path of one link and more goes on from the entry that the link leads to. -/
theorem exists_follow_cons_iff {down : Bool} :
    (∃ p, F.follow (down :: p) a = some x) ↔ ∃ b, F.link down a = some b ∧ F.Reaches b x := by
  simp only [follow, Option.bind_eq_some_iff, Reaches]
  exact ⟨fun ⟨p, b, hb, hp⟩ => ⟨b, hb, p, hp⟩, fun ⟨b, hb, p, hp⟩ => ⟨p, b, hb, hp⟩⟩

/-! ## Siblings and children -/

/-- The later siblings of an entry are its next sibling and the later siblings of that. -/
theorem laterSibling_iff :
    F.LaterSibling a b ↔ ∃ s, F.nextSibling a = some s ∧ (b = s ∨ F.LaterSibling s b) := by
  rw [LaterSibling, Relation.TransGen.head'_iff]
  simp only [Relation.reflTransGen_iff_eq_or_transGen]

/-- An ancestor of an entry covers it by one of its children. -/
theorem ancestor_iff : F.Ancestor a x ↔ ∃ c ∈ F.children a, F.Covers c x :=
  Relation.TransGen.head'_iff

/-- The siblings from an entry on are the entry and its later siblings. -/
theorem mem_siblingsOnto (F : Forest ε) (seen : Array ε) (e? : Option ε) :
    c ∈ F.siblingsOnto seen e? ↔
      c ∈ seen ∨ ∃ e, e? = some e ∧ (c = e ∨ F.LaterSibling e c) := by
  fun_induction F.siblingsOnto seen e? with
  | case1 seen => simp
  | case2 seen e ih =>
    rw [ih, siblingTurn, Array.mem_push, or_assoc, ← laterSibling_iff]
    simp

/-- **The children of an entry** are its first child and the later siblings of it. -/
theorem mem_children_iff :
    c ∈ F.children a ↔ ∃ f, F.firstChild a = some f ∧ (c = f ∨ F.LaterSibling f c) := by
  rw [children, Array.mem_toList_iff, mem_siblingsOnto]
  simp

/-- Later siblings are reached, -/
theorem reaches_of_laterSibling (h : F.LaterSibling a b) : F.Reaches a b := by
  induction h with
  | single hb => exact reaches_of_link false hb
  | tail _ hb ih => exact ih.trans (reaches_of_link false hb)

/-- children are, -/
theorem reaches_of_mem_children (h : c ∈ F.children a) : F.Reaches a c := by
  obtain ⟨f, hf, rfl | hc⟩ := mem_children_iff.1 h
  · exact reaches_of_link true hf
  · exact (reaches_of_link true hf).trans (reaches_of_laterSibling hc)

/-- and descendants are. -/
theorem reaches_of_covers (h : F.Covers a x) : F.Reaches a x := by
  induction h with
  | refl => exact .refl F a
  | tail _ hc ih => exact ih.trans (reaches_of_mem_children hc)

/-- **Paths follow kinship.**  Some path leads to the entry itself, its later
siblings and what stands below all these. -/
theorem reaches_iff :
    F.Reaches a x ↔ ∃ b, (b = a ∨ F.LaterSibling a b) ∧ F.Covers b x := by
  constructor
  · rintro ⟨p, hp⟩
    induction p generalizing a with
    | nil =>
      cases hp
      exact ⟨x, .inl rfl, .refl⟩
    | cons down p ih =>
      obtain ⟨e, he, hp⟩ := Option.bind_eq_some_iff.1 hp
      obtain ⟨b, hb, hx⟩ := ih hp
      cases down with
      | false =>
        rcases hb with rfl | hb
        · exact ⟨b, .inr (.single he), hx⟩
        · exact ⟨b, .inr (.head he hb), hx⟩
      | true => exact ⟨a, .inl rfl, .head (mem_children_iff.2 ⟨e, he, hb⟩) hx⟩
  · rintro ⟨b, rfl | hb, hx⟩
    · exact reaches_of_covers hx
    · exact (reaches_of_laterSibling hb).trans (reaches_of_covers hx)

/-- **A path that goes down first** leads to what stands below an entry. -/
theorem exists_follow_true_iff : (∃ p, F.follow (true :: p) a = some x) ↔ F.Ancestor a x := by
  rw [exists_follow_cons_iff, ancestor_iff]
  constructor
  · rintro ⟨f, hf, hx⟩
    obtain ⟨b, hb, hx⟩ := reaches_iff.1 hx
    exact ⟨b, mem_children_iff.2 ⟨f, hf, hb⟩, hx⟩
  · rintro ⟨b, hb, hx⟩
    obtain ⟨f, hf, hb⟩ := mem_children_iff.1 hb
    exact ⟨f, hf, reaches_iff.2 ⟨b, hb, hx⟩⟩

/-- **A path that goes to a sibling first** leads to later siblings and what
stands below them. -/
theorem exists_follow_false_iff :
    (∃ p, F.follow (false :: p) a = some x) ↔ ∃ b, F.LaterSibling a b ∧ F.Covers b x := by
  rw [exists_follow_cons_iff]
  constructor
  · rintro ⟨s, hs, hx⟩
    obtain ⟨b, hb, hx⟩ := reaches_iff.1 hx
    exact ⟨b, laterSibling_iff.2 ⟨s, hs, hb⟩, hx⟩
  · rintro ⟨b, hb, hx⟩
    obtain ⟨s, hs, hb⟩ := laterSibling_iff.1 hb
    exact ⟨s, hs, reaches_iff.2 ⟨b, hb, hx⟩⟩

/-- The entries of a unit are those that are reached from its root. -/
theorem inUnit_iff {i : Nat} : F.InUnit i x ↔ ∃ p, F.At i p x := by
  constructor
  · rintro ⟨root, top, hroot, htop, hx⟩
    obtain ⟨p, hp⟩ := reaches_iff.2 ⟨top, htop, hx⟩
    exact ⟨p, by rw [At, hroot, Option.bind_some, hp]⟩
  · rintro ⟨p, hp⟩
    obtain ⟨root, hroot, hp⟩ := Option.bind_eq_some_iff.1 hp
    obtain ⟨top, htop, hx⟩ := reaches_iff.1 ⟨p, hp⟩
    exact ⟨root, top, hroot, htop, hx⟩

/-- What the root of a unit reaches is in the unit. -/
theorem inUnit_of_reaches {i : Nat} (h : F.unitRoot i = some a) (hx : F.Reaches a x) :
    F.InUnit i x := by
  obtain ⟨p, hp⟩ := hx
  exact inUnit_iff.2 ⟨p, by rw [At, h, Option.bind_some, hp]⟩

/-- What passes along links holds of all entries of a unit whose root it holds of. -/
theorem forall_inUnit {P : ε → Prop} {i : Nat}
    (hlink : ∀ down e e', P e → F.link down e = some e' → P e')
    (hroot : ∀ root, F.unitRoot i = some root → P root) : ∀ x, F.InUnit i x → P x := by
  intro x hx
  obtain ⟨p, hp⟩ := inUnit_iff.1 hx
  induction p using List.reverseRecOn generalizing x with
  | nil =>
    obtain ⟨root, hi, hx⟩ := Option.bind_eq_some_iff.1 hp
    cases hx
    exact hroot _ hi
  | append_singleton p down ih =>
    obtain ⟨e, he, hdown⟩ := at_concat_iff.1 hp
    exact hlink down e x (ih e (inUnit_iff.2 ⟨p, he⟩) he) hdown

/-! ## Forests -/

/-- **A forest is told by its links:** of the entries of units none has two links
leading to it, roots have none, and no two units share a root. -/
theorem isForest_of_links
    (hlink : ∀ down down' e e' x, (∃ i, F.InUnit i e) → (∃ i, F.InUnit i e') →
      F.link down e = some x → F.link down' e' = some x → down = down' ∧ e = e')
    (hroot : ∀ i root down e, F.unitRoot i = some root → (∃ i, F.InUnit i e) →
      F.link down e ≠ some root)
    (hunit : ∀ i j root, F.unitRoot i = some root → F.unitRoot j = some root → i = j) :
    F.IsForest := by
  intro i j p q x hp hq
  induction p using List.reverseRecOn generalizing q x with
  | nil =>
    induction q using List.reverseRecOn with
    | nil =>
      obtain ⟨root, hi, hx⟩ := Option.bind_eq_some_iff.1 hp
      obtain ⟨root', hj, hx'⟩ := Option.bind_eq_some_iff.1 hq
      cases hx
      cases hx'
      exact ⟨hunit i j _ hi hj, rfl⟩
    | append_singleton q down _ =>
      obtain ⟨root, hi, hx⟩ := Option.bind_eq_some_iff.1 hp
      cases hx
      obtain ⟨e, he, hdown⟩ := at_concat_iff.1 hq
      exact absurd hdown (hroot i _ down e hi ⟨j, inUnit_iff.2 ⟨q, he⟩⟩)
  | append_singleton p down ih =>
    obtain ⟨e, he, hdown⟩ := at_concat_iff.1 hp
    induction q using List.reverseRecOn with
    | nil =>
      obtain ⟨root, hj, hx⟩ := Option.bind_eq_some_iff.1 hq
      cases hx
      exact absurd hdown (hroot j _ down e hj ⟨i, inUnit_iff.2 ⟨p, he⟩⟩)
    | append_singleton q down' _ =>
      obtain ⟨e', he', hdown'⟩ := at_concat_iff.1 hq
      obtain ⟨rfl, rfl⟩ := hlink down down' e e' x ⟨i, inUnit_iff.2 ⟨p, he⟩⟩
        ⟨j, inUnit_iff.2 ⟨q, he'⟩⟩ hdown hdown'
      obtain ⟨rfl, rfl⟩ := ih _ _ he he'
      exact ⟨rfl, rfl⟩

end Forest
end ParamAtlas
