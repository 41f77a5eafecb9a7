/-
# Origins without a memory

The plain rule for a parameter follows references as often as it may, eight times, and
remembers nothing on the way: its chain is the parameter, the entry that it repeats, the
entry which that one repeats, and so on up to the first reference that is missing or
leads nowhere (`originsFrom`).  The name is the first on the chain, and so is the
artificial mark, each for itself (`plainParameter`).

`Forest.parameter` goes by the same references, but stops early:

| it stops | for |
| --- | --- |
| when name and mark are known | the rest of the chain could not change them |
| at an offset met before | all that follows has been met (`Explored.repeats`) |

The second reason holds only where an entry is told by its offset (`ToldByOffset`): what
is found again at an offset must say what it said before.  Forests in memory and loaded
units are of that kind.
-/

import ParamAtlas.Forest.Memory
import ParamAtlas.Forest.Origin
import ParamAtlas.Proofs.Dwarf.Lookup

namespace ParamAtlas
namespace Forest

variable {ε : Type}

/-- Among `nodes`, to which all belongs that stands at some offset, an entry is told by
its offset: it is found there or nothing is, and entries at one offset say the same. -/
structure ToldByOffset (F : Forest ε) (nodes : ε → Prop) : Prop where
  nodes_entryAt : ∀ o e, F.entryAt o = some e → nodes e
  ref_entryAt : ∀ o e, F.entryAt o = some e → F.ref e = o
  text : ∀ a b, nodes a → nodes b → F.ref a = F.ref b → F.text a = F.text b
  flag : ∀ a b, nodes a → nodes b → F.ref a = F.ref b → F.flag a = F.flag b
  reference : ∀ a b, nodes a → nodes b → F.ref a = F.ref b → F.reference a = F.reference b

/-- The entries met when `hops` references are followed, the first of them given, up to
one that is missing or leads nowhere. -/
def originsFrom (F : Forest ε) : (hops : Nat) → Option EntryRef → List ε
  | 0, _ => []
  | hops + 1, origin? =>
    match origin?.bind F.entryAt with
    | none => []
    | some e => e :: F.originsFrom hops (F.reference e .abstractOrigin)

/-- A parameter by the plain rule: its name and its mark are the first on the chain of
an entry and its origins. -/
def plainParameter (F : Forest ε) (hops : Nat) (e : ε) : Parameter :=
  let chain := e :: F.originsFrom hops (F.reference e .abstractOrigin)
  ⟨(chain.findSome? (F.text · .name)).getD "",
    (chain.findSome? (F.flag · .artificial)).getD false⟩

/-- Without a reference there is no origin. -/
theorem originsFrom_none (F : Forest ε) (hops : Nat) : F.originsFrom hops none = [] := by
  cases hops <;> rfl

/-- A reference to nothing ends the origins. -/
theorem originsFrom_of_entryAt_eq_none {F : Forest ε} {o : EntryRef} (h : F.entryAt o = none)
    (hops : Nat) : F.originsFrom hops (some o) = [] := by
  cases hops with
  | zero => rfl
  | succ hops => simp only [originsFrom, Option.bind_some, h]

/-- An origin is followed by its own. -/
theorem originsFrom_of_entryAt_eq_some {F : Forest ε} {o : EntryRef} {e : ε}
    (h : F.entryAt o = some e) (hops : Nat) :
    F.originsFrom (hops + 1) (some o) =
      e :: F.originsFrom hops (F.reference e .abstractOrigin) := by
  simp only [originsFrom, Option.bind_some, h]

/-! ## What has been met -/

/-- What holds while origins are followed: `known` are the entries that were asked, and
`origin?` is the next offset to look up. -/
structure Explored (F : Forest ε) (nodes : ε → Prop) (own : EntryRef) (known : List ε)
    (origin? : Option EntryRef) (r : Resolution) : Prop where
  nodes : ∀ e ∈ known, nodes e
  /-- At each offset looked up an entry was asked. -/
  met : ∀ o, o = own ∨ o ∈ r.lookups → ∃ e ∈ known, F.ref e = o
  /-- Where an entry refers was looked up, or is looked up next. -/
  ahead : ∀ e ∈ known, ∀ o, F.reference e .abstractOrigin = some o →
    (o = own ∨ o ∈ r.lookups) ∨ origin? = some o
  name : r.name = none → ∀ e ∈ known, F.text e .name = none
  artificial : r.artificial = none → ∀ e ∈ known, F.flag e .artificial = none

namespace Explored

variable {F : Forest ε} {nodes : ε → Prop} {own o : EntryRef} {known : List ε}
  {origin? : Option EntryRef} {r : Resolution}

/-- At first only the parameter was asked. -/
theorem start {p : ε} (hp : nodes p) :
    F.Explored nodes (F.ref p) [p] (F.reference p .abstractOrigin)
      ⟨F.text p .name, F.flag p .artificial, []⟩ where
  nodes := by simpa using hp
  met := by simp
  ahead := by simpa using fun _ => Or.inr
  name := by simp
  artificial := by simp

/-- An origin that is found is asked, and its own origin comes next. -/
theorem step (h : F.ToldByOffset nodes) (x : F.Explored nodes own known (some o) r) {e : ε}
    (he : F.entryAt o = some e) :
    F.Explored nodes own (e :: known) (F.reference e .abstractOrigin)
      (F.fill e { r with lookups := o :: r.lookups }) where
  nodes := List.forall_mem_cons.2 ⟨h.nodes_entryAt o e he, x.nodes⟩
  met o' ho' := by
    by_cases heq : o' = o
    · exact ⟨e, List.mem_cons_self, (h.ref_entryAt o e he).trans heq.symm⟩
    · obtain ⟨d, hd, href⟩ := x.met o' (ho'.imp_right (List.mem_of_ne_of_mem heq))
      exact ⟨d, List.mem_cons_of_mem _ hd, href⟩
  ahead d hd o' ho' := by
    rcases List.mem_cons.1 hd with rfl | hd
    · exact .inr ho'
    · refine .inl ?_
      rcases x.ahead d hd o' ho' with hseen | hnext
      · exact hseen.imp_right (List.mem_cons_of_mem _)
      · cases hnext
        exact .inr List.mem_cons_self
  name hname := by
    obtain ⟨hr, hself⟩ := Option.or_eq_none_iff.1 hname
    exact List.forall_mem_cons.2 ⟨hself, x.name hr⟩
  artificial hmark := by
    obtain ⟨hr, hself⟩ := Option.or_eq_none_iff.1 hmark
    exact List.forall_mem_cons.2 ⟨hself, x.artificial hr⟩

/-- **Nothing new comes behind an offset met before:** all entries on the chain from
there on stand at offsets of entries that were asked. -/
theorem repeats (h : F.ToldByOffset nodes) (x : F.Explored nodes own known (some o) r)
    (ho : o = own ∨ o ∈ r.lookups) (hops : Nat) (next? : Option EntryRef)
    (hnext : ∀ o', next? = some o' → o' = own ∨ o' ∈ r.lookups) :
    ∀ d ∈ F.originsFrom hops next?, nodes d ∧ ∃ e ∈ known, F.ref d = F.ref e := by
  induction hops generalizing next? with
  | zero => simp [originsFrom]
  | succ hops ih =>
    cases next? with
    | none => simp [originsFrom_none]
    | some o' =>
      cases hfound : F.entryAt o' with
      | none => simp [originsFrom_of_entryAt_eq_none hfound]
      | some d =>
        obtain ⟨e, he, href⟩ := x.met o' (hnext o' rfl)
        have hnode : nodes d := h.nodes_entryAt o' d hfound
        have hsame : F.ref d = F.ref e := (h.ref_entryAt o' d hfound).trans href.symm
        rw [originsFrom_of_entryAt_eq_some hfound, List.forall_mem_cons]
        refine ⟨⟨hnode, e, he, hsame⟩, ih _ fun o'' ho'' => ?_⟩
        rw [h.reference d e hnode (x.nodes e he) hsame] at ho''
        rcases x.ahead e he o'' ho'' with hseen | hpending
        · exact hseen
        · cases hpending
          exact ho

/-- Nothing that is still unknown is found behind an offset met before. -/
theorem findSome?_repeats (h : F.ToldByOffset nodes) (x : F.Explored nodes own known (some o) r)
    (ho : o = own ∨ o ∈ r.lookups) (hops : Nat) :
    (r.name = none → (F.originsFrom hops (some o)).findSome? (F.text · .name) = none) ∧
      (r.artificial = none →
        (F.originsFrom hops (some o)).findSome? (F.flag · .artificial) = none) := by
  have hrest := x.repeats h ho hops (some o) fun o' ho' => Option.some.inj ho' ▸ ho
  constructor
  · refine fun hname => List.findSome?_eq_none_iff.2 fun d hd => ?_
    obtain ⟨hnode, e, he, hsame⟩ := hrest d hd
    rw [h.text d e hnode (x.nodes e he) hsame, x.name hname e he]
  · refine fun hmark => List.findSome?_eq_none_iff.2 fun d hd => ?_
    obtain ⟨hnode, e, he, hsame⟩ := hrest d hd
    rw [h.flag d e hnode (x.nodes e he) hsame, x.artificial hmark e he]

end Explored

/-! ## The two rules -/

/-- What is known of a parameter, completed by the entries still to come. -/
def completed (F : Forest ε) (r : Resolution) (later : List ε) : Parameter :=
  ⟨(r.name.or (later.findSome? (F.text · .name))).getD "",
    (r.artificial.or (later.findSome? (F.flag · .artificial))).getD false⟩

/-- Entries that have nothing of what is missing add nothing. -/
theorem completed_of_nothing {F : Forest ε} {r : Resolution} {later : List ε}
    (hname : r.name = none → later.findSome? (F.text · .name) = none)
    (hmark : r.artificial = none → later.findSome? (F.flag · .artificial) = none) :
    F.completed r later = r.parameter := by
  unfold completed Resolution.parameter
  congr 1
  · cases h : r.name with
    | none => rw [hname h, Option.or_none]
    | some name => rfl
  · cases h : r.artificial with
    | none => rw [hmark h, Option.or_none]
    | some mark => rfl

/-- Asking the next entry of a chain first changes nothing. -/
theorem completed_cons (F : Forest ε) (r : Resolution) (e : ε) (later : List ε) :
    F.completed r (e :: later) = F.completed (F.fill e r) later := by
  simp only [completed, fill, List.findSome?_cons, Option.or_assoc]
  congr 1
  · cases F.text e .name <;> rfl
  · cases F.flag e .artificial <;> rfl

/-- **Origins followed with a memory** give what the entries still to come on the plain
chain give. -/
theorem parameter_followOrigins {F : Forest ε} {nodes : ε → Prop} (h : F.ToldByOffset nodes)
    (own : EntryRef) (origin? : Option EntryRef) (r : Resolution) :
    ∀ known, F.Explored nodes own known origin? r →
      (F.followOrigins own origin? r).parameter =
        F.completed r (F.originsFrom (maxOrigins - r.lookups.length) origin?) := by
  fun_induction F.followOrigins own origin? r with
  | case1 r =>
    intro known _
    rw [originsFrom_none]
    exact (completed_of_nothing (fun _ => rfl) fun _ => rfl).symm
  | case2 r o hcomplete =>
    intro known _
    simp only [Resolution.complete, Bool.and_eq_true] at hcomplete
    refine (completed_of_nothing (fun hname => ?_) fun hmark => ?_).symm
    · simp [hname] at hcomplete
    · simp [hmark] at hcomplete
  | case3 r o hcomplete hfresh r' hnone =>
    intro known _
    rw [originsFrom_of_entryAt_eq_none hnone]
    exact (completed_of_nothing (fun _ => rfl) fun _ => rfl).symm
  | case4 r o hcomplete hfresh r' e hsome ih =>
    intro known x
    have hhops : maxOrigins - r.lookups.length =
        maxOrigins - (o :: r.lookups).length + 1 := by
      have := hfresh.1
      rw [List.length_cons]
      omega
    rw [ih _ (x.step h hsome), hhops, originsFrom_of_entryAt_eq_some hsome, completed_cons]
    rfl
  | case5 r o hcomplete hstale =>
    intro known x
    by_cases hlen : r.lookups.length < maxOrigins
    · have ho : o = own ∨ o ∈ r.lookups := by
        by_contra hnew
        exact hstale ⟨hlen, not_or.1 hnew⟩
      obtain ⟨hname, hmark⟩ := x.findSome?_repeats h ho (maxOrigins - r.lookups.length)
      exact (completed_of_nothing hname hmark).symm
    · rw [Nat.sub_eq_zero_of_le (Nat.le_of_not_lt hlen)]
      exact (completed_of_nothing (fun _ => rfl) fun _ => rfl).symm

/-! ## Stores that tell entries by their offsets -/

/-- Entries that are found again at their own offsets are told by them. -/
theorem toldByOffset_of_entryAt_ref {F : Forest ε} {nodes : ε → Prop}
    (hfound : ∀ o e, F.entryAt o = some e → nodes e ∧ F.ref e = o)
    (hself : ∀ e, nodes e → F.entryAt (F.ref e) = some e) : F.ToldByOffset nodes := by
  have hinj : ∀ a b, nodes a → nodes b → F.ref a = F.ref b → a = b := fun a b ha hb heq =>
    Option.some.inj ((hself a ha).symm.trans (heq ▸ hself b hb))
  refine ⟨fun o e he => (hfound o e he).1, fun o e he => (hfound o e he).2,
    fun a b ha hb heq => ?_, fun a b ha hb heq => ?_, fun a b ha hb heq => ?_⟩
  all_goals rw [hinj a b ha hb heq]

end Forest

/-- A forest in memory tells its entries by their positions. -/
theorem MemoryForest.toldByOffset (m : MemoryForest) (hm : m.entries.size ≤ UInt64.size) :
    m.forest.ToldByOffset (· < m.entries.size) := by
  refine Forest.toldByOffset_of_entryAt_ref (fun o e he => ?_) fun e he => ?_
  · simp only [forest] at he
    split at he
    · rename_i hlt
      cases he
      exact ⟨hlt, by simp [forest]⟩
    · cases he
  · have hword : (e.toUInt64).toNat = e :=
      UInt64.toNat_ofNat_of_lt' (Nat.lt_of_lt_of_le he hm)
    simp only [forest, hword, he, if_true]

namespace Dwarf.Store

variable {S : Sections} {e : Entry}

/-- The offset of an entry that can be read does not wrap. -/
theorem Holds.toNat_ref (hS : S.Addressable) (h : (ofSections S).Holds e) {u : LoadedUnit}
    (hu : (ofSections S).units[e.unit]? = some u) :
    ((ofSections S).ref e).offset.toNat = u.start + e.offset := by
  obtain ⟨v, hv, hsome⟩ := h
  cases hu.symm.trans hv
  obtain ⟨head, hhead⟩ := Option.isSome_iff_exists.1 hsome
  exact Store.toNat_ref hS hu (EntryList.headAt?_eq_some_iff.1 hhead).2.1

/-- An entry that can be read is found at its own offset. -/
theorem Holds.entryAt?_ref (hS : S.Addressable) (h : (ofSections S).Holds e) :
    (ofSections S).entryAt? ((ofSections S).ref e) = some e := by
  have ⟨u, hu, hsome⟩ := h
  exact entryAt?_eq_some_iff.2 ⟨u, hu, hsome, (h.toNat_ref hS hu).symm⟩

/-- Loaded units tell their entries by offsets into the section. -/
theorem toldByOffset (hS : S.Addressable) :
    (ofSections S).forest.ToldByOffset (ofSections S).Holds := by
  refine Forest.toldByOffset_of_entryAt_ref (fun o e he => ?_) fun e he => he.entryAt?_ref hS
  obtain ⟨u, hu, hsome, hoffset⟩ := entryAt?_eq_some_iff.1 he
  have hholds : (ofSections S).Holds e := ⟨u, hu, hsome⟩
  have href : ((ofSections S).ref e).offset = o.offset :=
    UInt64.toNat_inj.1 ((hholds.toNat_ref hS hu).trans hoffset)
  exact ⟨hholds, congrArg EntryRef.mk href⟩

end Dwarf.Store

/-! ## The plain rule -/

namespace Forest

/-- **The plain rule for parameters.**  Where entries are told by their offsets, a
parameter is what the plain rule makes of its chain of at most eight origins, whatever
the references lead to: no name and no mark is lost by stopping at what is known, at an
offset met before, or at the parameter itself. -/
theorem parameter_eq_plainParameter {F : Forest ε} {nodes : ε → Prop} (h : F.ToldByOffset nodes)
    {p : ε} (hp : nodes p) : F.parameter p = F.plainParameter 8 p := by
  rw [parameter, resolution, parameter_followOrigins h _ _ _ _ (.start hp)]
  simp only [completed, plainParameter, List.findSome?_cons]
  congr 1
  · cases F.text p .name <;> rfl
  · cases F.flag p .artificial <;> rfl

/-- Two parameters that repeat each other through a third entry, which is marked.  None
of them has a name. -/
def circle : MemoryForest where
  entries := #[
    ⟨none, some Tag.formalParameter, [(.abstractOrigin, .reference ⟨1⟩)]⟩,
    ⟨none, some Tag.formalParameter,
      [(.artificial, .flag true), (.abstractOrigin, .reference ⟨2⟩)]⟩,
    ⟨none, some Tag.formalParameter, [(.abstractOrigin, .reference ⟨0⟩)]⟩]
  units := #[]

/-- Though its origins lead back to it, the first parameter is marked, and has no name. -/
theorem parameter_eq_plainParameter_circle :
    circle.forest.ToldByOffset (· < 3) ∧ 0 < 3 ∧
      circle.forest.parameter 0 = circle.forest.plainParameter 8 0 ∧
      circle.forest.parameter 0 = ⟨"", true⟩ := by
  have htold : circle.forest.ToldByOffset (· < 3) := circle.toldByOffset (by decide)
  have hplain := parameter_eq_plainParameter htold (show 0 < 3 by decide)
  exact ⟨htold, by decide, hplain, hplain.trans (by decide)⟩

end Forest
end ParamAtlas
