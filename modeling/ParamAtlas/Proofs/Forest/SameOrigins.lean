/-
# Parameters whose origins say the same

A parameter is read from the entries on its chain of origins, and offsets are only what
leads from one to the next.  They are compared, but it does not matter what they are, only
which of them are equal.  So where the chains of two parameters say the same, entry by
entry, and their offsets match one to one (`AgreeFrom`), the two are followed alike
(`followOrigins_alike`) and the parameters are the same (`SameOrigins.parameter_eq`),
whatever else the two stores hold.
-/

import Mathlib.Data.List.Forall2
import ParamAtlas.Forest.Origin

namespace ParamAtlas

/-- Two resolutions know the same, after lookups at offsets that match. -/
structure Resolution.Alike (R : EntryRef → EntryRef → Prop) (r r' : Resolution) : Prop where
  name : r'.name = r.name
  artificial : r'.artificial = r.artificial
  lookups : List.Forall₂ R r.lookups r'.lookups

/-- The entry at an offset is still to be looked up for the parameter at `own`. -/
def Resolution.Admits (own o : EntryRef) (r : Resolution) : Prop :=
  ¬r.complete = true ∧ r.lookups.length < maxOrigins ∧ o ≠ own ∧ o ∉ r.lookups

namespace Forest

variable {ε δ : Type}

/-- Two stores agree on two chains of origins as far as `hops` of them: both end, or come
to offsets that match, where both find nothing or entries of the same name and mark. -/
inductive AgreeFrom (F : Forest ε) (G : Forest δ) (R : EntryRef → EntryRef → Prop) :
    (hops : Nat) → Option EntryRef → Option EntryRef → Prop
  | limit (o? o?' : Option EntryRef) : AgreeFrom F G R 0 o? o?'
  | last (hops : Nat) : AgreeFrom F G R hops none none
  | dangling {hops : Nat} {o o' : EntryRef} (ho : R o o') (hF : F.entryAt o = none)
      (hG : G.entryAt o' = none) : AgreeFrom F G R hops (some o) (some o')
  | origin {hops : Nat} {o o' : EntryRef} {e : ε} {e' : δ} (ho : R o o')
      (hF : F.entryAt o = some e) (hG : G.entryAt o' = some e')
      (htext : G.text e' .name = F.text e .name)
      (hflag : G.flag e' .artificial = F.flag e .artificial)
      (hrest : AgreeFrom F G R hops (F.reference e .abstractOrigin)
        (G.reference e' .abstractOrigin)) :
      AgreeFrom F G R (hops + 1) (some o) (some o')

/-- Parameters of two stores that say the same, each by itself and by the entries on its
chain of origins, where offsets match one to one. -/
structure SameOrigins (F : Forest ε) (G : Forest δ) (p : ε) (p' : δ) : Prop where
  text : G.text p' .name = F.text p .name
  flag : G.flag p' .artificial = F.flag p .artificial
  chain : ∃ R, Relator.BiUnique R ∧ R (F.ref p) (G.ref p') ∧
    F.AgreeFrom G R maxOrigins (F.reference p .abstractOrigin) (G.reference p' .abstractOrigin)

/-- Offsets match one to one where they are the same. -/
theorem biUnique_eq : Relator.BiUnique (Eq : EntryRef → EntryRef → Prop) :=
  ⟨fun _ _ _ h h' => h.trans h'.symm, fun _ _ _ h h' => h.symm.trans h'⟩

/-! ## One lookup -/

section Lookup

variable {F : Forest ε} {own o : EntryRef} {r : Resolution}

/-- Without a reference nothing is looked up. -/
theorem followOrigins_none : F.followOrigins own none r = r := by
  rw [followOrigins]

/-- Neither is anything that a resolution does not admit. -/
theorem followOrigins_of_not_admits (h : ¬r.Admits own o) :
    F.followOrigins own (some o) r = r := by
  rw [followOrigins]
  dsimp only
  split_ifs with hcomplete hfresh
  · rfl
  · exact absurd ⟨hcomplete, hfresh⟩ h
  · rfl

/-- When no lookup is left the chain is not followed any further. -/
theorem followOrigins_of_le (h : maxOrigins ≤ r.lookups.length) (o? : Option EntryRef) :
    F.followOrigins own o? r = r := by
  cases o? with
  | none => exact followOrigins_none
  | some o => exact followOrigins_of_not_admits fun hadmits => Nat.not_lt.2 h hadmits.2.1

/-- A reference to nothing is the last one looked up. -/
theorem followOrigins_of_dangling (h : r.Admits own o) (hnone : F.entryAt o = none) :
    F.followOrigins own (some o) r = { r with lookups := o :: r.lookups } := by
  obtain ⟨hcomplete, hfresh⟩ := h
  rw [followOrigins, if_neg hcomplete, dif_pos hfresh, hnone]

/-- An entry that is found fills in what is missing, and its own origin is next. -/
theorem followOrigins_of_found (h : r.Admits own o) {e : ε} (he : F.entryAt o = some e) :
    F.followOrigins own (some o) r =
      F.followOrigins own (F.reference e .abstractOrigin)
        (F.fill e { r with lookups := o :: r.lookups }) := by
  obtain ⟨hcomplete, hfresh⟩ := h
  rw [followOrigins, if_neg hcomplete, dif_pos hfresh, he]

end Lookup

/-! ## Two chains -/

variable {F : Forest ε} {G : Forest δ} {R : EntryRef → EntryRef → Prop} {own own' o o' : EntryRef}
  {r r' : Resolution}

/-- Offsets that match are looked up in both stores or in neither. -/
theorem admits_iff_of_alike (hR : Relator.BiUnique R) (hown : R own own') (ho : R o o')
    (h : r.Alike R r') : r'.Admits own' o' ↔ r.Admits own o := by
  have hcomplete : r'.complete = r.complete := by
    rw [Resolution.complete, Resolution.complete, h.name, h.artificial]
  have heq : o = own ↔ o' = own' := Relator.rel_eq hR ho hown
  have hmem : o ∈ r.lookups ↔ o' ∈ r'.lookups := List.rel_mem hR ho h.lookups
  rw [Resolution.Admits, Resolution.Admits, hcomplete, h.lookups.length_eq, ne_eq, ne_eq, heq,
    hmem]

/-- **Chains that say the same** are followed alike, as far as they may be. -/
theorem followOrigins_alike (hR : Relator.BiUnique R) (hown : R own own') {hops : Nat}
    {o? o?' : Option EntryRef} (h : F.AgreeFrom G R hops o? o?') :
    ∀ r r', maxOrigins ≤ r.lookups.length + hops → r.Alike R r' →
      (F.followOrigins own o? r).Alike R (G.followOrigins own' o?' r') := by
  induction h with
  | limit o? o?' =>
    intro r r' hhops hr
    have hhops' : maxOrigins ≤ r'.lookups.length := hr.lookups.length_eq ▸ hhops
    rw [followOrigins_of_le hhops, followOrigins_of_le hhops']
    exact hr
  | last hops =>
    intro r r' _ hr
    rw [followOrigins_none, followOrigins_none]
    exact hr
  | @dangling hops o o' ho hF hG =>
    intro r r' _ hr
    have hiff := admits_iff_of_alike hR hown ho hr
    by_cases hadmits : r.Admits own o
    · rw [followOrigins_of_dangling hadmits hF, followOrigins_of_dangling (hiff.2 hadmits) hG]
      exact ⟨hr.name, hr.artificial, .cons ho hr.lookups⟩
    · rw [followOrigins_of_not_admits hadmits, followOrigins_of_not_admits (mt hiff.1 hadmits)]
      exact hr
  | @origin hops o o' e e' ho hF hG htext hflag _ ih =>
    intro r r' hhops hr
    have hiff := admits_iff_of_alike hR hown ho hr
    by_cases hadmits : r.Admits own o
    · have hlater : maxOrigins ≤ (o :: r.lookups).length + hops := by
        rw [List.length_cons]
        omega
      rw [followOrigins_of_found hadmits hF, followOrigins_of_found (hiff.2 hadmits) hG]
      refine ih _ _ hlater ⟨?_, ?_, .cons ho hr.lookups⟩
      · rw [fill, fill, htext, hr.name]
      · rw [fill, fill, hflag, hr.artificial]
    · rw [followOrigins_of_not_admits hadmits, followOrigins_of_not_admits (mt hiff.1 hadmits)]
      exact hr

/-- **A parameter is the same** where it and its origins say the same. -/
theorem SameOrigins.parameter_eq {p : ε} {p' : δ} (h : F.SameOrigins G p p') :
    G.parameter p' = F.parameter p := by
  obtain ⟨R, hR, hown, hchain⟩ := h.chain
  have halike := followOrigins_alike hR hown hchain ⟨F.text p .name, F.flag p .artificial, []⟩
    ⟨G.text p' .name, G.flag p' .artificial, []⟩ (Nat.le_add_left ..) ⟨h.text, h.flag, .nil⟩
  rw [parameter, parameter, Resolution.parameter, Resolution.parameter]
  exact congrArg₂ _ (congrArg (·.getD "") halike.name) (congrArg (·.getD false) halike.artificial)

end Forest
end ParamAtlas
