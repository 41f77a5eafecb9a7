/-
# Plans of debug information

What units are to say, before it is known where anything will stand.  A plan of an
entry is one of the shapes that assembly knows (`Assembly.shapes`) with a value for each
attribute of the shape:

| form | value |
| --- | --- |
| `08` | a text |
| `01` | an address |
| `19` | nothing: the attribute is present |
| `13` | an entry of the same unit |
| `10` | an entry of any unit |

Entries that are siblings make up a family, each with the family below it, and a unit
is a compile-unit entry with a name and the family below that.  All entries are
numbered in order of declaration, over all units, and values refer to entries by
their numbers.

A store displays a family if the entries at its numbers are linked as the family is
nested and say what is planned (`Displays`, `DisplaysUnits`).  Two stores that display
the same units correspond (`corresponds_of_displays`): nothing that a store of entries
can be asked about is left open by a plan.
-/

import Mathlib.Algebra.GroupWithZero.Nat
import ParamAtlas.Dwarf.Assembly
import ParamAtlas.Proofs.Forest.Correspondence

namespace ParamAtlas
namespace Dwarf

/-- The value of an attribute in a plan.  Entries are referred to by number. -/
inductive Datum where
  | text (s : String)
  | address (a : Address)
  | present
  | unitReference (k : Nat)
  | forestReference (k : Nat)
  deriving DecidableEq, Repr, Inhabited

namespace Datum

/-- The form that a value is written in. -/
def form : Datum → Form
  | text _ => 0x08
  | address _ => 0x01
  | present => 0x19
  | unitReference _ => 0x13
  | forestReference _ => 0x10

/-- The text that a value gives. -/
def text? : Datum → Option String
  | text s => some s
  | _ => none

/-- The flag that a value gives. -/
def flag? : Datum → Option Bool
  | present => some true
  | _ => none

/-- The address that a value gives. -/
def address? : Datum → Option Address
  | address a => some a
  | _ => none

/-- The entry that a value refers to. -/
def target? : Datum → Option Nat
  | unitReference k => some k
  | forestReference k => some k
  | _ => none

/-- A value can be written: texts hold no zero byte, references stay in the unit, whose
entries have the numbers from `first` up to `last`, or among all `total` entries. -/
def Valid (first last total : Nat) : Datum → Prop
  | text s => '\x00' ∉ s.toList
  | address _ => True
  | present => True
  | unitReference k => first ≤ k ∧ k < last
  | forestReference k => k < total

end Datum

/-- What an entry is to say: its shape and a value for each attribute of the shape. -/
structure EntryPlan where
  shape : Nat × Nat × Bool × List (Nat × Nat)
  data : List Datum
  known : shape ∈ Assembly.shapes
  fits : data.map Datum.form = shape.2.2.2.map Prod.snd

namespace EntryPlan

variable (p : EntryPlan)

/-- The code of the shape. -/
def code : Nat := p.shape.1

/-- What the entry describes. -/
def tag : Tag := p.shape.2.1.toUInt16

/-- Whether the shape leaves room for children. -/
def hasChildren : Bool := p.shape.2.2.1

/-- What is written for the children of an entry: nothing without room for any. -/
def enclose {α : Type} (children stop : List α) : List α :=
  if p.hasChildren then children ++ stop else []

/-- The attributes with their values. -/
def attributes : List (AttributeCode × Datum) :=
  (p.shape.2.2.2.map fun a => a.1.toUInt16).zip p.data

/-- The value of an attribute. -/
def datum? (code : AttributeCode) : Option Datum :=
  (p.attributes.find? (·.1 == code)).map (·.2)

/-- The compile unit of a name. -/
def root (name : String) : EntryPlan where
  shape := (0x1, 0x11, true, [(0x03, 0x08)])
  data := [.text name]
  known := by decide
  fits := rfl

end EntryPlan

/-- Siblings, each with what stands below it. -/
inductive Family where
  | nil
  | entry (p : EntryPlan) (below later : Family)

namespace Family

/-- How many entries there are. -/
def count : Family → Nat
  | nil => 0
  | entry _ below later => 1 + below.count + later.count

/-- The number of the first entry, if there is one and counting goes on from `k`. -/
def first? (k : Nat) : Family → Option Nat
  | nil => none
  | entry _ _ _ => some k

/-- A family can be written: its values can, and nothing stands below an entry whose
shape leaves no room for children. -/
def Valid (first last total : Nat) : Family → Prop
  | nil => True
  | entry p below later =>
    (∀ d ∈ p.data, d.Valid first last total) ∧ (p.hasChildren = false → below = nil) ∧
      below.Valid first last total ∧ later.Valid first last total

end Family

/-- A unit: the name of its root, and what stands below the root. -/
structure UnitPlan where
  name : String
  below : Family

namespace UnitPlan

/-- The root of a unit with all below it. -/
def family (u : UnitPlan) : Family := .entry (.root u.name) u.below .nil

/-- How many entries the unit has. -/
def count (u : UnitPlan) : Nat := u.family.count

/-- How many entries units have together. -/
def total (units : List UnitPlan) : Nat := (units.map count).sum

/-- The number of the root of a unit. -/
def firstOf (units : List UnitPlan) (i : Nat) : Nat := total (units.take i)

/-- Units can be written: each with references to its own entries and those of all. -/
def Valid (units : List UnitPlan) : Prop :=
  ∀ i (u : UnitPlan), units[i]? = some u →
    u.family.Valid (firstOf units i) (firstOf units i + u.count) (total units)

end UnitPlan

/-! ## Stores that display a plan -/

variable {ε : Type}

/-- The entry at a number says what is planned. -/
structure DisplaysEntry (F : Forest ε) (place : Nat → ε) (k : Nat) (p : EntryPlan) : Prop where
  tag : F.tag (place k) = some p.tag
  text : ∀ code, F.text (place k) code = (p.datum? code).bind Datum.text?
  flag : ∀ code, F.flag (place k) code = (p.datum? code).bind Datum.flag?
  address : ∀ code, F.address (place k) code = (p.datum? code).bind Datum.address?
  reference : ∀ code, F.reference (place k) code =
    ((p.datum? code).bind Datum.target?).map fun j => F.ref (place j)

/-- The entries at the numbers from `k` on are linked as a family is nested and say what
is planned. -/
def Displays (F : Forest ε) (place : Nat → ε) : (k : Nat) → Family → Prop
  | _, .nil => True
  | k, .entry p below later =>
    DisplaysEntry F place k p ∧
      F.firstChild (place k) = (below.first? (k + 1)).map place ∧
      F.nextSibling (place k) = (later.first? (k + 1 + below.count)).map place ∧
      Displays F place (k + 1) below ∧ Displays F place (k + 1 + below.count) later

/-- **A store displays units:** it has these units and no others, and each of their
entries is found at its own offset. -/
structure DisplaysUnits (F : Forest ε) (place : Nat → ε) (units : List UnitPlan) : Prop where
  unitCount : F.unitCount = units.length
  unitInfo : ∀ i, (F.unitInfo i).isSome = decide (i < units.length)
  unitRoot : ∀ i, F.unitRoot i =
    if i < units.length then some (place (UnitPlan.firstOf units i)) else none
  unit : ∀ i u, units[i]? = some u → Displays F place (UnitPlan.firstOf units i) u.family
  entryAt_ref : ∀ k, k < UnitPlan.total units → F.entryAt (F.ref (place k)) = some (place k)

namespace UnitPlan

variable {units rest : List UnitPlan} {i k : Nat} {u : UnitPlan}

@[simp] theorem total_nil : total [] = 0 := rfl

@[simp] theorem total_cons (u : UnitPlan) (rest : List UnitPlan) :
    total (u :: rest) = u.count + total rest := rfl

@[simp] theorem firstOf_zero (units : List UnitPlan) : firstOf units 0 = 0 := rfl

@[simp] theorem firstOf_cons_succ (u : UnitPlan) (rest : List UnitPlan) (i : Nat) :
    firstOf (u :: rest) (i + 1) = u.count + firstOf rest i := rfl

/-- The entries of a unit are among all. -/
theorem firstOf_add_count_le (hu : units[i]? = some u) :
    firstOf units i + u.count ≤ total units := by
  induction units generalizing i with
  | nil => simp at hu
  | cons v rest ih =>
    cases i with
    | zero =>
      cases hu
      simp
    | succ i =>
      have := ih (i := i) (by simpa using hu)
      simp only [firstOf_cons_succ, total_cons]
      omega

/-- Each number belongs to an entry of some unit. -/
theorem exists_unit_of_lt (hk : k < total units) :
    ∃ i u, units[i]? = some u ∧ firstOf units i ≤ k ∧ k < firstOf units i + u.count := by
  induction units generalizing k with
  | nil => simp at hk
  | cons v rest ih =>
    by_cases hv : k < v.count
    · exact ⟨0, v, rfl, Nat.zero_le _, by simpa using hv⟩
    · rw [total_cons] at hk
      obtain ⟨i, u, hu, hle, hlt⟩ := ih (k := k - v.count) (by omega)
      refine ⟨i + 1, u, by simpa using hu, ?_, ?_⟩ <;> rw [firstOf_cons_succ] <;> omega

/-- A unit has a root. -/
theorem count_pos (u : UnitPlan) : 0 < u.count := by
  simp only [count, family, Family.count]
  omega

end UnitPlan

/-! ## Two stores that display the same units -/

section Correspond

variable {δ : Type} {F : Forest Nat} {G : Forest δ} {place : Nat → δ} {n k j : Nat}

/-- The entry at a number is linked alike in both stores, and says the same. -/
structure AlikeAt (F : Forest Nat) (G : Forest δ) (place : Nat → δ) (n k : Nat) : Prop where
  firstChild : G.firstChild (place k) = (F.firstChild k).map place
  firstChild_lt : ∀ c, F.firstChild k = some c → c < n
  nextSibling : G.nextSibling (place k) = (F.nextSibling k).map place
  nextSibling_lt : ∀ s, F.nextSibling k = some s → s < n
  tag : G.tag (place k) = F.tag k
  text : ∀ code, G.text (place k) code = F.text k code
  flag : ∀ code, G.flag (place k) code = F.flag k code
  address : ∀ code, G.address (place k) code = F.address k code
  reference : ∀ code, ∃ target? : Option Nat, (∀ x, target? = some x → x < n) ∧
    F.reference k code = target?.map F.ref ∧
      G.reference (place k) code = target?.map fun x => G.ref (place x)

/-- The first entry of a family is one of it. -/
theorem Family.first?_lt {f : Family} {x : Nat} (h : f.first? k = some x) :
    x = k ∧ k < k + f.count := by
  cases f with
  | nil => cases h
  | entry p below later =>
    cases h
    exact ⟨rfl, by simp only [Family.count]; omega⟩

/-- A datum that is found is one of the entry. -/
theorem EntryPlan.mem_of_datum? {p : EntryPlan} {code : AttributeCode} {d : Datum}
    (h : p.datum? code = some d) : d ∈ p.data := by
  obtain ⟨⟨c, d'⟩, hfound, rfl⟩ := Option.map_eq_some_iff.1 h
  exact (List.of_mem_zip (List.mem_of_find?_eq_some hfound)).2

/-- A valid value refers to one of all entries. -/
theorem Datum.target?_lt {d : Datum} {first last total x : Nat} (hd : d.Valid first last total)
    (hlast : last ≤ total) (h : d.target? = some x) : x < total := by
  cases d with
  | unitReference k =>
    cases h
    exact Nat.lt_of_lt_of_le hd.2 hlast
  | forestReference k =>
    cases h
    exact hd
  | _ => cases h

/-- **Entries of one family are alike** in two stores that display it. -/
theorem alikeAt_of_displays {f : Family} {first last : Nat} (hF : Displays F id k f)
    (hG : Displays G place k f) (hvalid : f.Valid first last n) (hlast : last ≤ n)
    (hn : k + f.count ≤ n) (hkj : k ≤ j) (hj : j < k + f.count) : AlikeAt F G place n j := by
  induction f generalizing k with
  | nil =>
    simp only [Family.count] at hj
    omega
  | entry p below later ihbelow ihlater =>
    obtain ⟨hp, -, hvbelow, hvlater⟩ := hvalid
    obtain ⟨heF, hcF, hsF, hbF, hlF⟩ := hF
    obtain ⟨heG, hcG, hsG, hbG, hlG⟩ := hG
    simp only [Family.count] at hn hj
    rcases Nat.lt_or_ge j (k + 1) with hhere | hhere
    · obtain rfl : j = k := by omega
      rw [id_eq, Option.map_id] at hcF hsF
      refine ⟨hcG.trans (congrArg _ hcF.symm), fun c hc => ?_, hsG.trans (congrArg _ hsF.symm),
        fun s hs => ?_, heG.tag.trans heF.tag.symm, fun code => (heG.text code).trans
        (heF.text code).symm, fun code => (heG.flag code).trans (heF.flag code).symm,
        fun code => (heG.address code).trans (heF.address code).symm, fun code => ?_⟩
      · have := Family.first?_lt (hcF.symm.trans hc)
        omega
      · have := Family.first?_lt (hsF.symm.trans hs)
        omega
      · refine ⟨_, fun x hx => ?_, heF.reference code, heG.reference code⟩
        obtain ⟨d, hd, htarget⟩ := Option.bind_eq_some_iff.1 hx
        exact Datum.target?_lt (hp d (EntryPlan.mem_of_datum? hd)) hlast htarget
    · rcases Nat.lt_or_ge j (k + 1 + below.count) with hin | hin
      · exact ihbelow hbF hbG hvbelow (by omega) hhere hin
      · exact ihlater hlF hlG hvlater (by omega) hin (by omega)

/-- **Two stores that display the same units correspond.** -/
theorem corresponds_of_displays {units : List UnitPlan} (hF : DisplaysUnits F id units)
    (hG : DisplaysUnits G place units) (hvalid : UnitPlan.Valid units)
    (hplace : ∀ a b, a < UnitPlan.total units → b < UnitPlan.total units →
      place a = place b → a = b) :
    F.Corresponds G (· < UnitPlan.total units) place := by
  have halike : ∀ k, k < UnitPlan.total units →
      AlikeAt F G place (UnitPlan.total units) k := by
    intro k hk
    obtain ⟨i, u, hu, hle, hlt⟩ := UnitPlan.exists_unit_of_lt hk
    exact alikeAt_of_displays (hF.unit i u hu) (hG.unit i u hu) (hvalid i u hu)
      (UnitPlan.firstOf_add_count_le hu) (UnitPlan.firstOf_add_count_le hu) hle hlt
  refine
    { injective := hplace
      unitCount := hG.unitCount.trans hF.unitCount.symm
      unitInfo := fun i => (hG.unitInfo i).trans (hF.unitInfo i).symm
      unitRoot := fun i => ?_
      nodes_unitRoot := fun i root hroot => ?_
      firstChild := fun e he => (halike e he).firstChild
      nodes_firstChild := fun e c he => (halike e he).firstChild_lt c
      nextSibling := fun e he => (halike e he).nextSibling
      nodes_nextSibling := fun e s he => (halike e he).nextSibling_lt s
      tag := fun e he => (halike e he).tag
      text := fun e code he => (halike e he).text code
      flag := fun e code he => (halike e he).flag code
      address := fun e code he => (halike e he).address code
      reference := fun e code he => (halike e he).reference code
      entryAt_ref := fun e he => ⟨hF.entryAt_ref e he, hG.entryAt_ref e he⟩ }
  · rw [hF.unitRoot, hG.unitRoot]
    split <;> rfl
  · rw [hF.unitRoot] at hroot
    split at hroot
    · rename_i hi
      cases hroot
      have hu := List.getElem?_eq_getElem hi
      have := UnitPlan.firstOf_add_count_le hu
      have := units[i].count_pos
      dsimp only [id]
      omega
    · cases hroot

end Correspond

end Dwarf
end ParamAtlas
