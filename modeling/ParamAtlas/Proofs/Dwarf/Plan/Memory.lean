/-
# Plans in memory

A plan is put into memory one entry after another, in order of declaration, so the
position of an entry is its number (`MemoryForest.ofPlan`).  Positions of parents then
tell how families are nested: of the entries behind an entry, those below it come
first, and the parent of each of these is the entry or one of them; those behind them
have parents further up (`parent?_of_stands`).  So the least position with a certain
parent is where the plan says, and the store in memory displays the plan
(`displaysUnits_ofPlan`).
-/

import ParamAtlas.Proofs.Dwarf.Plan.Basic
import ParamAtlas.Proofs.Forest.Memory

namespace ParamAtlas

open Dwarf

/-- A value as it is kept in memory. -/
def Dwarf.Datum.value : Datum → MemoryValue
  | .text s => .text s
  | .address a => .address a
  | .present => .flag true
  | .unitReference k => .reference ⟨k.toUInt64⟩
  | .forestReference k => .reference ⟨k.toUInt64⟩

/-- An entry as it is kept in memory. -/
def Dwarf.EntryPlan.memoryEntry (parent : Option Nat) (p : EntryPlan) : MemoryEntry :=
  ⟨parent, some p.tag, p.attributes.map fun a => (a.1, a.2.value)⟩

namespace MemoryForest

/-- Appends a family below the entry at a position. -/
def addFamily (m : MemoryForest) (parent : Nat) : Family → MemoryForest
  | .nil => m
  | .entry p below later =>
    ((m.add (p.memoryEntry (some parent))).addFamily m.entries.size below).addFamily parent later

/-- Appends a unit with all its entries. -/
def addPlan (m : MemoryForest) (u : UnitPlan) : MemoryForest :=
  (m.addUnit.setAttribute m.entries.size .name (.text u.name)).addFamily m.entries.size u.below

/-- Units in memory. -/
def ofPlan (units : List UnitPlan) : MemoryForest := units.foldl addPlan .empty

/-! ## Where entries stand -/

/-- A family stands at the positions from `k` on, below an entry or at the top. -/
def Stands (m : MemoryForest) (parent : Option Nat) : (k : Nat) → Family → Prop
  | _, .nil => True
  | k, .entry p below later =>
    m.entries[k]? = some (p.memoryEntry parent) ∧ m.Stands (some k) (k + 1) below ∧
      m.Stands parent (k + 1 + below.count) later

/-- The entries of a family in order, if the first of them stands at position `k`. -/
def entriesOf (parent : Option Nat) (k : Nat) : Family → List MemoryEntry
  | .nil => []
  | .entry p below later =>
    p.memoryEntry parent ::
      (entriesOf (some k) (k + 1) below ++ entriesOf parent (k + 1 + below.count) later)

/-- A family makes one entry in memory of each of its own. -/
theorem length_entriesOf (parent : Option Nat) (k : Nat) (f : Family) :
    (entriesOf parent k f).length = f.count := by
  induction f generalizing parent k with
  | nil => rfl
  | entry p below later ihbelow ihlater =>
    rw [entriesOf, List.length_cons, List.length_append, ihbelow, ihlater, Family.count]
    omega

/-- Adding a family appends its entries. -/
theorem toList_addFamily (m : MemoryForest) (parent : Nat) (f : Family) :
    (m.addFamily parent f).entries.toList =
      m.entries.toList ++ entriesOf (some parent) m.entries.size f := by
  induction f generalizing m parent with
  | nil => simp [addFamily, entriesOf]
  | entry p below later ihbelow ihlater =>
    have hadd : (m.add (p.memoryEntry (some parent))).entries.toList =
        m.entries.toList ++ [p.memoryEntry (some parent)] := by simp [add]
    have hsize : (m.add (p.memoryEntry (some parent))).entries.size = m.entries.size + 1 := by
      simp [add]
    have hbelow := ihbelow (m.add (p.memoryEntry (some parent))) m.entries.size
    have hsize' : ((m.add (p.memoryEntry (some parent))).addFamily m.entries.size
        below).entries.size = m.entries.size + 1 + below.count := by
      rw [← Array.length_toList, hbelow, List.length_append, length_entriesOf, Array.length_toList,
        hsize]
    rw [addFamily, ihlater, hbelow, hsize', hadd, hsize, entriesOf]
    simp

/-- A family stands where its entries are. -/
theorem stands_of_toList {m : MemoryForest} {parent : Option Nat} {k : Nat} {f : Family}
    {before after : List MemoryEntry}
    (h : m.entries.toList = before ++ entriesOf parent k f ++ after) (hk : before.length = k) :
    m.Stands parent k f := by
  induction f generalizing parent k before after with
  | nil => trivial
  | entry p below later ihbelow ihlater =>
    subst hk
    simp only [entriesOf] at h
    refine ⟨?_, ?_, ?_⟩
    · rw [← Array.getElem?_toList, h]
      simp
    · have hlist : m.entries.toList = (before ++ [p.memoryEntry parent]) ++
          entriesOf (some before.length) (before.length + 1) below ++
            (entriesOf parent (before.length + 1 + below.count) later ++ after) := by
        rw [h]
        simp
      exact ihbelow hlist (by simp)
    · have hlist : m.entries.toList = (before ++ p.memoryEntry parent ::
          entriesOf (some before.length) (before.length + 1) below) ++
            entriesOf parent (before.length + 1 + below.count) later ++ after := by
        rw [h]
        simp
      refine ihlater hlist ?_
      rw [List.length_append, List.length_cons, length_entriesOf]
      omega

/-! ## Links -/

variable {m : MemoryForest} {parent : Option Nat} {f : Family} {i j k q : Nat}

/-- The first child of a parent from an index on, if it is known. -/
theorem findFrom_parent_eq_some (hij : i ≤ j) (hj : m.parent? j = some q)
    (hleast : ∀ x, i ≤ x → x < j → m.parent? x ≠ some q) :
    m.findFrom (·.parent == some q) i = some j := by
  fun_induction findFrom m (·.parent == some q) i with
  | case1 i hi htest =>
    have hparent : m.parent? i = some q := by
      rw [parent?, Array.getElem?_eq_getElem hi, Option.bind_some]
      exact eq_of_beq htest
    rcases Nat.eq_or_lt_of_le hij with rfl | hlt
    · rfl
    · exact absurd hparent (hleast i (Nat.le_refl i) hlt)
  | case2 i hi htest ih =>
    refine ih (Nat.lt_of_le_of_ne hij ?_) fun x hx => hleast x (by omega)
    rintro rfl
    rw [parent?, Array.getElem?_eq_getElem hi, Option.bind_some] at hj
    exact htest (beq_iff_eq.2 hj)
  | case3 i hi =>
    rw [parent?_eq_none (by omega)] at hj
    cases hj

/-- Where no entry has the parent no child is found. -/
theorem findFrom_parent_eq_none (h : ∀ x, i ≤ x → m.parent? x ≠ some q) :
    m.findFrom (·.parent == some q) i = none := by
  rw [Option.eq_none_iff_forall_not_mem]
  intro j hj
  obtain ⟨⟨e, he, hparent⟩, -⟩ := findFrom_least hj
  refine h j (m.findFrom_bounds _ _ _ hj).1 ?_
  rw [parent?, he, Option.bind_some]
  exact eq_of_beq hparent

/-- The parent of an entry is the one that it was made with. -/
theorem parent?_of_getElem? {p : EntryPlan} (h : m.entries[k]? = some (p.memoryEntry parent)) :
    m.parent? k = parent := by
  rw [parent?, h]
  rfl

/-- **In a family the parent of each entry** is the entry above the family or an entry
of the family. -/
theorem parent?_of_stands (h : m.Stands parent k f) (hkj : k ≤ j) (hj : j < k + f.count) :
    m.parent? j = parent ∨ ∃ i, k ≤ i ∧ m.parent? j = some i := by
  induction f generalizing parent k with
  | nil =>
    simp only [Family.count] at hj
    omega
  | entry p below later ihbelow ihlater =>
    obtain ⟨hk, hbelow, hlater⟩ := h
    simp only [Family.count] at hj
    rcases Nat.lt_or_ge j (k + 1) with hhere | hhere
    · obtain rfl : j = k := by omega
      exact .inl (parent?_of_getElem? hk)
    · rcases Nat.lt_or_ge j (k + 1 + below.count) with hin | hin
      · rcases ihbelow hbelow hhere hin with hp | ⟨i, hi, hp⟩
        · exact .inr ⟨k, Nat.le_refl k, hp⟩
        · exact .inr ⟨i, by omega, hp⟩
      · rcases ihlater hlater hin (by omega) with hp | ⟨i, hi, hp⟩
        · exact .inl hp
        · exact .inr ⟨i, by omega, hp⟩

/-- An entry made of a planned one shows what is planned. -/
theorem displaysEntry_of_getElem? {p : EntryPlan}
    (h : m.entries[k]? = some (p.memoryEntry parent)) : DisplaysEntry m.forest id k p := by
  have hvalue : ∀ code, m.value? k code = (p.datum? code).map Datum.value := by
    intro code
    rw [value?, h, Option.bind_some, EntryPlan.memoryEntry, List.find?_map, EntryPlan.datum?,
      Option.map_map, Option.map_map]
    rfl
  refine ⟨?_, fun code => ?_, fun code => ?_, fun code => ?_, fun code => ?_⟩
  · simp only [forest, id_eq, h, Option.bind_some]
    rfl
  all_goals
    simp only [forest, id_eq, hvalue]
    cases p.datum? code with
    | none => rfl
    | some d => cases d <;> rfl

/-- Entries behind a family have their parents elsewhere: not among its entries, and not
the entry above it. -/
def ParentsElsewhere (m : MemoryForest) (parent k n : Nat) : Prop :=
  ∀ j i, n ≤ j → m.parent? j = some i → i ≠ parent ∧ (i < k ∨ n ≤ i)

/-- **A family in memory is displayed.** -/
theorem displays_of_stands (h : m.Stands (some q) k f) (hq : q < k)
    (helse : m.ParentsElsewhere q k (k + f.count)) : Displays m.forest id k f := by
  induction f generalizing q k with
  | nil => trivial
  | entry p below later ihbelow ihlater =>
    obtain ⟨hk, hbelow, hlater⟩ := h
    have hparent := parent?_of_getElem? hk
    simp only [Family.count] at helse
    have hbehind : ∀ j i, k + 1 + below.count ≤ j → m.parent? j = some i →
        i ≠ k ∧ (i < k + 1 ∨ k + 1 + below.count ≤ i) := by
      intro j i hj hi
      rcases Nat.lt_or_ge j (k + 1 + below.count + later.count) with hin | hout
      · rcases parent?_of_stands hlater hj hin with hp | ⟨i', hi', hp⟩
        · cases hp.symm.trans hi
          omega
        · cases hp.symm.trans hi
          omega
      · have := helse j i (by omega) hi
        omega
    refine ⟨displaysEntry_of_getElem? hk, ?_, ?_, ihbelow hbelow (Nat.lt_succ_self k) hbehind,
      ihlater hlater (by omega) fun j i hj hi => ?_⟩
    · rw [Option.map_id]
      change m.firstChild k = _
      cases below with
      | nil => exact findFrom_parent_eq_none fun x hx hp => (hbehind x k hx hp).1 rfl
      | entry p' below' later' =>
        exact findFrom_parent_eq_some (Nat.le_refl _) (parent?_of_getElem? hbelow.1)
          fun x hx hx' => by omega
    · rw [Option.map_id]
      change m.nextSibling k = _
      have hin : ∀ x, k + 1 ≤ x → x < k + 1 + below.count → m.parent? x ≠ some q := by
        intro x hx hx' hp
        rcases parent?_of_stands hbelow hx hx' with hp' | ⟨i', hi', hp'⟩
        · cases hp.symm.trans hp'
          omega
        · cases hp.symm.trans hp'
          omega
      have hnext : m.nextSibling k = m.findFrom (·.parent == some q) (k + 1) := by
        rw [nextSibling, show (m.entries[k]?).bind (·.parent) = some q from hparent]
      rw [hnext]
      cases later with
      | nil =>
        refine findFrom_parent_eq_none fun x hx hp => ?_
        rcases Nat.lt_or_ge x (k + 1 + below.count) with hlt | hge
        · exact hin x hx hlt hp
        · exact (helse x q (by simp only [Family.count]; omega) hp).1 rfl
      | entry p' below' later' =>
        exact findFrom_parent_eq_some (by omega) (parent?_of_getElem? hlater.1) hin
    · have := helse j i (by omega) hi
      omega

/-! ## Units -/

/-- Units stand one behind another at the positions from `k` on, and nothing behind
them. -/
def StandsUnits (m : MemoryForest) : (k : Nat) → List UnitPlan → Prop
  | k, [] => m.entries.size = k
  | k, u :: rest => m.Stands none k u.family ∧ m.StandsUnits (k + u.count) rest

/-- Behind the start of a unit all parents stand behind the start. -/
theorem le_of_standsUnits {units : List UnitPlan} (h : m.StandsUnits k units) (hkj : k ≤ j)
    (hi : m.parent? j = some i) : k ≤ i := by
  induction units generalizing k with
  | nil =>
    have hsize : m.entries.size = k := h
    rw [parent?_eq_none (by omega)] at hi
    cases hi
  | cons u rest ih =>
    rcases Nat.lt_or_ge j (k + u.count) with hin | hout
    · rcases parent?_of_stands h.1 hkj hin with hp | ⟨i', hi', hp⟩
      · cases hp.symm.trans hi
      · cases hp.symm.trans hi
        exact hi'
    · have := ih h.2 hout
      omega

/-- **A unit that stands in memory is displayed there** as it is planned. -/
theorem displays_of_standsUnits {units : List UnitPlan} (h : m.StandsUnits k units) {u : UnitPlan}
    (hu : units[i]? = some u) :
    Displays m.forest id (k + UnitPlan.firstOf units i) u.family := by
  induction units generalizing k i with
  | nil => cases hu
  | cons v rest ih =>
    obtain ⟨hfamily, hrest⟩ := h
    cases i with
    | zero =>
      cases hu
      obtain ⟨hroot, hbelow, -⟩ := hfamily
      rw [UnitPlan.firstOf_zero, Nat.add_zero]
      have hcount : u.count = 1 + u.below.count := rfl
      have helse : m.ParentsElsewhere k (k + 1) (k + 1 + u.below.count) := by
        intro j i hj hi
        have := le_of_standsUnits hrest (by omega) hi
        omega
      refine ⟨displaysEntry_of_getElem? hroot, ?_, ?_,
        displays_of_stands hbelow (Nat.lt_succ_self k) helse, trivial⟩
      · rw [Option.map_id]
        change m.firstChild k = _
        cases hb : u.below with
        | nil =>
          refine findFrom_parent_eq_none fun x hx hp => (helse x k ?_ hp).1 rfl
          rw [hb, Family.count]
          exact hx
        | entry p below later =>
          rw [hb] at hbelow
          exact findFrom_parent_eq_some (Nat.le_refl _) (parent?_of_getElem? hbelow.1)
            fun x hx hx' => by omega
      · change m.nextSibling k = none
        rw [nextSibling, show (m.entries[k]?).bind (·.parent) = none from
          parent?_of_getElem? hroot]
    | succ i =>
      have := ih hrest (i := i) hu
      rwa [Nat.add_assoc] at this

/-- The entries of units in order, if the first of them stands at position `k`. -/
def entriesOfUnits : (k : Nat) → List UnitPlan → List MemoryEntry
  | _, [] => []
  | k, u :: rest => entriesOf none k u.family ++ entriesOfUnits (k + u.count) rest

/-- The unit whose root stands at a position. -/
def unitAt (k : Nat) : MemoryUnit := ⟨some ⟨⟨k.toUInt64⟩, 5, 8⟩, some k⟩

/-- The units, if the first of them starts at position `k`. -/
def unitsFrom : (k : Nat) → List UnitPlan → List MemoryUnit
  | _, [] => []
  | k, u :: rest => unitAt k :: unitsFrom (k + u.count) rest

/-- Adding a family adds no unit. -/
theorem units_addFamily (m : MemoryForest) (parent : Nat) (f : Family) :
    (m.addFamily parent f).units = m.units := by
  induction f generalizing m parent with
  | nil => rfl
  | entry p below later ihbelow ihlater => rw [addFamily, ihlater, ihbelow, add]

/-- Adding a unit appends the entries of its family. -/
theorem toList_addPlan (m : MemoryForest) (u : UnitPlan) :
    (m.addPlan u).entries.toList = m.entries.toList ++ entriesOf none m.entries.size u.family := by
  have hroot : (m.addUnit.setAttribute m.entries.size .name (.text u.name)).entries =
      m.entries.push ((EntryPlan.root u.name).memoryEntry none) := by
    rw [setAttribute, addUnit, add]
    refine Array.ext_getElem? fun i => ?_
    rw [Array.getElem?_modify, Array.getElem?_push, Array.getElem?_push]
    split
    · rename_i hi
      rw [if_pos hi.symm, if_pos hi.symm]
      rfl
    · rename_i hi
      rw [if_neg (Ne.symm hi), if_neg (Ne.symm hi)]
  rw [addPlan, toList_addFamily, hroot, Array.toList_push, Array.size_push, UnitPlan.family,
    entriesOf, entriesOf, List.append_nil, List.append_assoc]
  rfl

/-- Adding units appends the entries of all, and one unit for each. -/
theorem toList_foldl_addPlan (m : MemoryForest) (units : List UnitPlan) :
    (units.foldl addPlan m).entries.toList =
        m.entries.toList ++ entriesOfUnits m.entries.size units ∧
      (units.foldl addPlan m).units.toList = m.units.toList ++ unitsFrom m.entries.size units := by
  induction units generalizing m with
  | nil => simp [entriesOfUnits, unitsFrom]
  | cons u rest ih =>
    obtain ⟨hentries, hunits⟩ := ih (m.addPlan u)
    have hsize : (m.addPlan u).entries.size = m.entries.size + u.count := by
      rw [← Array.length_toList, toList_addPlan, List.length_append, length_entriesOf,
        Array.length_toList]
      rfl
    have hunit : (m.addPlan u).units.toList = m.units.toList ++
        [unitAt m.entries.size] := by
      rw [addPlan, units_addFamily]
      simp [setAttribute, addUnit, unitAt]
    rw [List.foldl_cons, hentries, hunits, hsize, toList_addPlan, hunit, entriesOfUnits, unitsFrom]
    simp

/-- All units together have as many entries as the plan. -/
theorem length_entriesOfUnits (k : Nat) (units : List UnitPlan) :
    (entriesOfUnits k units).length = UnitPlan.total units := by
  induction units generalizing k with
  | nil => rfl
  | cons u rest ih =>
    rw [entriesOfUnits, List.length_append, length_entriesOf, ih, UnitPlan.total_cons]
    rfl

/-- Units stand where their entries are. -/
theorem standsUnits_of_toList {units : List UnitPlan} {before : List MemoryEntry}
    (h : m.entries.toList = before ++ entriesOfUnits k units) (hk : before.length = k) :
    m.StandsUnits k units := by
  induction units generalizing k before with
  | nil =>
    have := congrArg List.length h
    rwa [entriesOfUnits, List.append_nil, hk, Array.length_toList] at this
  | cons u rest ih =>
    rw [entriesOfUnits, ← List.append_assoc] at h
    refine ⟨stands_of_toList h hk, ih h ?_⟩
    rw [List.length_append, length_entriesOf, hk]
    rfl

/-- Each planned unit makes one in memory. -/
theorem length_unitsFrom (k : Nat) (units : List UnitPlan) :
    (unitsFrom k units).length = units.length := by
  induction units generalizing k with
  | nil => rfl
  | cons u rest ih => rw [unitsFrom, List.length_cons, List.length_cons, ih]

/-- The root of a unit is behind all entries of the units before it. -/
theorem getElem?_unitsFrom (k : Nat) (units : List UnitPlan) (i : Nat) :
    (unitsFrom k units)[i]? = (units[i]?).map fun _ => unitAt (k + UnitPlan.firstOf units i) := by
  induction units generalizing k i with
  | nil => rfl
  | cons u rest ih =>
    cases i with
    | zero => rfl
    | succ i =>
      rw [unitsFrom, List.getElem?_cons_succ, List.getElem?_cons_succ, ih,
        UnitPlan.firstOf_cons_succ, Nat.add_assoc]

/-- All entries of a plan are in memory, and no others. -/
theorem size_entries_ofPlan (units : List UnitPlan) :
    (ofPlan units).entries.size = UnitPlan.total units := by
  rw [← Array.length_toList, ofPlan, (toList_foldl_addPlan .empty units).1]
  exact length_entriesOfUnits 0 units

/-- **A plan in memory is displayed.** -/
theorem displaysUnits_ofPlan {units : List UnitPlan} (h : UnitPlan.total units ≤ 2 ^ 64) :
    DisplaysUnits (ofPlan units).forest id units := by
  obtain ⟨hentries, hunits⟩ := toList_foldl_addPlan .empty units
  have hstands : (ofPlan units).StandsUnits 0 units := standsUnits_of_toList hentries rfl
  have hsize := size_entries_ofPlan units
  have hunit : ∀ i, (ofPlan units).units[i]? =
      (units[i]?).map fun _ => unitAt (UnitPlan.firstOf units i) := by
    intro i
    have := getElem?_unitsFrom 0 units i
    rw [Nat.zero_add] at this
    rw [← Array.getElem?_toList, ofPlan, hunits, ← this]
    rfl
  refine ⟨?_, fun i => ?_, fun i => ?_, fun i u hu => ?_, fun k hk => ?_⟩
  · change (ofPlan units).units.size = _
    rw [← Array.length_toList, ofPlan, hunits]
    exact length_unitsFrom 0 units
  · change (((ofPlan units).units[i]?).bind (·.info)).isSome = _
    rw [hunit]
    cases hu : units[i]? with
    | none => simpa using hu
    | some u => simpa [unitAt] using (List.getElem?_eq_some_iff.1 hu).1
  · change (((ofPlan units).units[i]?).bind (·.root)).filter (· < (ofPlan units).entries.size) = _
    rw [hunit, hsize]
    cases hu : units[i]? with
    | none =>
      rw [if_neg (by simpa using hu)]
      rfl
    | some u =>
      have := UnitPlan.firstOf_add_count_le hu
      have := u.count_pos
      rw [if_pos (List.getElem?_eq_some_iff.1 hu).1]
      exact Option.filter_some_pos (decide_eq_true (by omega))
  · have := displays_of_standsUnits hstands hu
    rwa [Nat.zero_add] at this
  · have hword : k.toUInt64.toNat = k := UInt64.toNat_ofNat_of_lt' (by simp [UInt64.size]; omega)
    change (if k.toUInt64.toNat < (ofPlan units).entries.size then some k.toUInt64.toNat
      else none) = some k
    rw [hword, hsize, if_pos hk]

end MemoryForest
end ParamAtlas
