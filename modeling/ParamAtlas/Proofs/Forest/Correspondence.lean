/-
# Forests that correspond

Two stores hold the same trees if a map takes the entries of the first to entries of
the second, different ones to different ones, such that both answer every question
alike: whatever is an entry in an answer of the first store is mapped to the answer of
the second, and all else is the same (`Forest.Corresponds`).

Offsets are not the same, and yet the name of a parameter is found by comparing
offsets.  Only whether two of them differ matters, and that is the same in both stores
(`biUnique_offsets`).  So subprograms are the same (`subprogram_eq`), walks visit
entries that are mapped to each other (`visits_eq`), and a harvest yields the same
table, the same number of units and the same counts (`harvest_alike`).
-/

import ParamAtlas.Proofs.Forest.Harvest
import ParamAtlas.Proofs.Forest.Kinship
import ParamAtlas.Proofs.Forest.SameOrigins
import ParamAtlas.Proofs.Forest.Steps

namespace ParamAtlas

/-- Two harvests yield the same, whatever was told on the way. -/
structure Harvest.Alike (h h' : Harvest) : Prop where
  table : h'.table = h.table
  units : h'.units = h.units
  stats : h'.stats = h.stats

namespace Forest

variable {ε δ : Type}

/-- **The second store holds the trees of the first:** `f` takes the entries among
`nodes`, which links and references do not leave, to entries that answer alike. -/
structure Corresponds (F : Forest ε) (G : Forest δ) (nodes : ε → Prop) (f : ε → δ) : Prop where
  injective : ∀ a b, nodes a → nodes b → f a = f b → a = b
  unitCount : G.unitCount = F.unitCount
  unitInfo : ∀ i, (G.unitInfo i).isSome = (F.unitInfo i).isSome
  unitRoot : ∀ i, G.unitRoot i = (F.unitRoot i).map f
  nodes_unitRoot : ∀ i root, F.unitRoot i = some root → nodes root
  firstChild : ∀ e, nodes e → G.firstChild (f e) = (F.firstChild e).map f
  nodes_firstChild : ∀ e c, nodes e → F.firstChild e = some c → nodes c
  nextSibling : ∀ e, nodes e → G.nextSibling (f e) = (F.nextSibling e).map f
  nodes_nextSibling : ∀ e s, nodes e → F.nextSibling e = some s → nodes s
  tag : ∀ e, nodes e → G.tag (f e) = F.tag e
  text : ∀ e code, nodes e → G.text (f e) code = F.text e code
  flag : ∀ e code, nodes e → G.flag (f e) code = F.flag e code
  address : ∀ e code, nodes e → G.address (f e) code = F.address e code
  /-- A reference leads to the offset of an entry, in both stores of the same one. -/
  reference : ∀ e code, nodes e → ∃ target? : Option ε, (∀ x, target? = some x → nodes x) ∧
    F.reference e code = target?.map F.ref ∧
      G.reference (f e) code = target?.map fun x => G.ref (f x)
  entryAt_ref : ∀ e, nodes e →
    F.entryAt (F.ref e) = some e ∧ G.entryAt (G.ref (f e)) = some (f e)

/-- The offsets of one entry in both stores. -/
def Offsets (F : Forest ε) (G : Forest δ) (nodes : ε → Prop) (f : ε → δ) (o o' : EntryRef) :
    Prop :=
  ∃ x, nodes x ∧ F.ref x = o ∧ G.ref (f x) = o'

variable {F : Forest ε} {G : Forest δ} {nodes : ε → Prop} {f : ε → δ}

namespace Corresponds

variable (h : F.Corresponds G nodes f)

include h

/-- Distinct entries have distinct offsets, -/
theorem ref_inj {a b : ε} (ha : nodes a) (hb : nodes b) : F.ref a = F.ref b ↔ a = b := by
  refine ⟨fun heq => ?_, congrArg F.ref⟩
  have := (h.entryAt_ref a ha).1.symm.trans (heq ▸ (h.entryAt_ref b hb).1)
  exact Option.some.inj this

/-- and so have their counterparts. -/
theorem ref_map_inj {a b : ε} (ha : nodes a) (hb : nodes b) :
    G.ref (f a) = G.ref (f b) ↔ a = b := by
  refine ⟨fun heq => ?_, fun heq => heq ▸ rfl⟩
  have := (h.entryAt_ref a ha).2.symm.trans (heq ▸ (h.entryAt_ref b hb).2)
  exact h.injective a b ha hb (Option.some.inj this)

/-- **Offsets match one to one.** -/
theorem biUnique_offsets : Relator.BiUnique (F.Offsets G nodes f) := by
  constructor
  · rintro _ _ _ ⟨x, hx, rfl, hxy⟩ ⟨y, hy, rfl, rfl⟩
    exact congrArg F.ref ((h.ref_map_inj hx hy).1 hxy)
  · rintro _ _ _ ⟨x, hx, hxy, rfl⟩ ⟨y, hy, rfl, rfl⟩
    exact congrArg (fun x => G.ref (f x)) ((h.ref_inj hx hy).1 hxy)

/-- A chain of origins that starts at an entry says the same in both stores. -/
theorem agreeFrom (hops : Nat) (target? : Option ε) (htarget : ∀ x, target? = some x → nodes x) :
    F.AgreeFrom G (F.Offsets G nodes f) hops (target?.map F.ref)
      (target?.map fun x => G.ref (f x)) := by
  induction hops generalizing target? with
  | zero => exact .limit _ _
  | succ hops ih =>
    cases target? with
    | none => exact .last (hops + 1)
    | some x =>
      have hx := htarget x rfl
      obtain ⟨hF, hG⟩ := h.entryAt_ref x hx
      obtain ⟨next?, hnext, hrefF, hrefG⟩ := h.reference x .abstractOrigin hx
      refine .origin ⟨x, hx, rfl, rfl⟩ hF hG (h.text x .name hx) (h.flag x .artificial hx) ?_
      rw [hrefF, hrefG]
      exact ih next? hnext

/-- A parameter has the same name and mark in both stores. -/
theorem parameter_eq {e : ε} (he : nodes e) : G.parameter (f e) = F.parameter e := by
  obtain ⟨target?, htarget, hF, hG⟩ := h.reference e .abstractOrigin he
  refine SameOrigins.parameter_eq ⟨h.text e .name he, h.flag e .artificial he, F.Offsets G nodes f,
    h.biUnique_offsets, ⟨e, he, rfl, rfl⟩, ?_⟩
  rw [hF, hG]
  exact h.agreeFrom maxOrigins target? htarget

/-! ## Children and subprograms -/

/-- The correspondence covers all siblings from an entry on. -/
theorem nodes_siblings? {e? : Option ε} (he : ∀ e, e? = some e → nodes e) :
    ∀ x ∈ F.siblings? e?, nodes x := by
  cases e? with
  | none => simp
  | some e =>
    replace he := he e rfl
    induction e using F.linkInduction with
    | step e ih _ =>
      rw [siblings?_some, List.forall_mem_cons]
      refine ⟨he, ?_⟩
      cases hs : F.nextSibling e with
      | none => simp
      | some s => exact ih s hs (h.nodes_nextSibling e s he hs)

/-- Siblings of a counterpart are the counterparts of siblings. -/
theorem siblings?_eq {e? : Option ε} (he : ∀ e, e? = some e → nodes e) :
    G.siblings? (e?.map f) = (F.siblings? e?).map f := by
  cases e? with
  | none => simp
  | some e =>
    replace he := he e rfl
    induction e using F.linkInduction with
    | step e ih _ =>
      rw [Option.map_some, siblings?_some, siblings?_some, List.map_cons, h.nextSibling e he]
      cases hs : F.nextSibling e with
      | none => simp
      | some s => rw [← ih s hs (h.nodes_nextSibling e s he hs), Option.map_some]

/-- Counterparts have the same tags. -/
theorem hasTag_eq (t : Tag) {e : ε} (he : nodes e) : G.hasTag t (f e) = F.hasTag t e := by
  rw [hasTag, hasTag, h.tag e he]

/-- **A subprogram is the same** in both stores. -/
theorem subprogram_eq {e : ε} (he : nodes e) : G.subprogram (f e) = F.subprogram e := by
  have hchildren : ∀ x ∈ F.children e, nodes x :=
    h.nodes_siblings? fun c hc => h.nodes_firstChild e c he hc
  have hentries : G.parameterEntries (f e) = (F.parameterEntries e).map f := by
    rw [parameterEntries, parameterEntries, children_eq, children_eq, h.firstChild e he,
      h.siblings?_eq fun c hc => h.nodes_firstChild e c he hc, List.filter_map]
    exact congrArg _ (List.filter_congr fun x hx => h.hasTag_eq _ (hchildren x hx))
  rw [subprogram, subprogram, hentries, List.map_map, h.address e .lowPc he]
  congr 1
  exact List.map_congr_left fun x hx => h.parameter_eq (hchildren x (List.mem_filter.1 hx).1)

/-! ## Walks -/

/-- A counterpart is entered at the counterpart of what is entered. -/
theorem entered_eq {e : ε} (he : nodes e) : G.entered (f e) = (F.entered e).map f := by
  unfold entered
  rw [h.tag e he, h.firstChild e he]
  split_ifs <;> rfl

/-- The correspondence covers all that a walk visits. -/
theorem nodes_visits {e : ε} (he : nodes e) : ∀ x ∈ F.visits e, nodes x :=
  forall_mem_visits (fun a b ha hab => h.nodes_nextSibling a b ha hab)
    (fun a b ha hab => h.nodes_firstChild a b ha (firstChild_of_entered hab)) he

/-- **A walk visits the same entries** in both stores, in the same order. -/
theorem visits_eq {e : ε} (he : nodes e) : G.visits (f e) = (F.visits e).map f :=
  visits_map (fun a ha => ⟨h.nextSibling a ha, fun s => h.nodes_nextSibling a s ha⟩)
    (fun a ha => ⟨h.entered_eq ha,
      fun c hc => h.nodes_firstChild a c ha (firstChild_of_entered hc)⟩) he

/-- Counterparts count alike. -/
theorem statsOf_map {visited : List ε} (hvisited : ∀ x ∈ visited, nodes x) :
    G.statsOf (visited.map f) = F.statsOf visited := by
  rw [statsOf, statsOf, List.length_map, List.countP_map, List.countP_map]
  congr 1
  · exact List.countP_congr fun x hx => by rw [Function.comp_apply, h.hasTag_eq _ (hvisited x hx)]
  · exact List.countP_congr fun x hx => by rw [Function.comp_apply, h.tag x (hvisited x hx)]

/-- **Counterparts of visited subprograms are the same subprograms,** in the same order. -/
theorem map_subprogram_subprogramsOf {visited : List ε} (hvisited : ∀ x ∈ visited, nodes x) :
    (G.subprogramsOf (visited.map f)).map G.subprogram =
      (F.subprogramsOf visited).map F.subprogram := by
  have hfilter : visited.filter (G.hasTag Tag.subprogram ∘ f) =
      visited.filter (F.hasTag Tag.subprogram) :=
    List.filter_congr fun x hx => h.hasTag_eq _ (hvisited x hx)
  rw [subprogramsOf, subprogramsOf, List.filter_map, List.map_map, hfilter]
  exact List.map_congr_left fun x hx => h.subprogram_eq (hvisited x (List.mem_filter.1 hx).1)

/-! ## Harvests -/

/-- **One index adds the same** to both harvests. -/
theorem gather_alike {a b : Harvest} (hab : a.Alike b) (i : Nat) :
    (F.gather a (F.unitSlot i)).Alike (G.gather b (G.unitSlot i)) := by
  have hinfo := h.unitInfo i
  unfold unitSlot
  rw [h.unitRoot i]
  cases hF : F.unitInfo i with
  | none =>
    rw [hF, Option.isSome_none, Option.isSome_eq_false_iff, Option.isNone_iff_eq_none] at hinfo
    rw [hinfo]
    exact hab
  | some info =>
    rw [hF, Option.isSome_some] at hinfo
    obtain ⟨info', hG⟩ := Option.isSome_iff_exists.1 hinfo
    rw [hG]
    cases hroot : F.unitRoot i with
    | none => exact ⟨hab.table, hab.units, hab.stats⟩
    | some root =>
      have hnode := h.nodes_unitRoot i root hroot
      simp only [Option.map_some, gather_unit]
      refine ⟨?_, ?_, ?_⟩
      · rw [h.visits_eq hnode, h.map_subprogram_subprogramsOf (h.nodes_visits hnode), hab.table]
      · rw [hab.units]
      · rw [h.visits_eq hnode, h.statsOf_map (h.nodes_visits hnode), hab.stats]

/-- **A harvest yields the same** from both stores. -/
theorem harvest_alike (t : ParameterTable) : (F.harvest t).Alike (G.harvest t) := by
  have hfold : ∀ (indices : List Nat) (a b : Harvest), a.Alike b →
      ((indices.map F.unitSlot).foldl F.gather a).Alike
        ((indices.map G.unitSlot).foldl G.gather b) := by
    intro indices
    induction indices with
    | nil => exact fun a b hab => hab
    | cons i rest ih => exact fun a b hab => ih _ _ (h.gather_alike hab i)
  unfold harvest unitSlots
  rw [h.unitCount]
  exact hfold _ _ _ ⟨rfl, rfl, rfl⟩

end Corresponds
end Forest
end ParamAtlas
