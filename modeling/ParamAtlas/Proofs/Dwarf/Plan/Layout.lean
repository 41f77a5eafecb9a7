/-
# The layout of a plan

Where everything in assembled units comes to stand depends on sizes alone:

| part | bytes |
| --- | --- |
| header of a unit | 11 |
| entry | its code, its values |
| family | each entry, and behind one with room for children those and a zero byte |

So the offset of each entry is known beforehand (`UnitPlan.offsetOf`).  Offsets rise
with the numbers of entries (`pairwise_offsetsFrom`), and each is made up of the start
of a unit and the place of an entry in it (`getElem?_offsetsFrom`).  With the offsets
the bytes of units are known as well (`UnitPlan.bytesFrom`).
-/

import ParamAtlas.Proofs.Dwarf.Decoding
import ParamAtlas.Proofs.Dwarf.Plan.Basic

namespace ParamAtlas
namespace Dwarf

/-! ## Sizes -/

/-- How many bytes a value takes. -/
def Datum.size : Datum → Nat
  | text s => s.toUTF8.data.size + 1
  | address _ => 8
  | present => 0
  | unitReference _ => 4
  | forestReference _ => 4

/-- How many bytes an entry takes. -/
def EntryPlan.size (p : EntryPlan) : Nat :=
  (unsignedBytes p.code).length + (p.data.map Datum.size).sum

/-- How many bytes are written for the children of an entry. -/
def EntryPlan.enclosedSize (p : EntryPlan) (n : Nat) : Nat := if p.hasChildren then n + 1 else 0

/-- How many bytes a family takes. -/
def Family.size : Family → Nat
  | nil => 0
  | entry p below later => p.size + p.enclosedSize below.size + later.size

namespace UnitPlan

/-- The size of the header of a unit. -/
def headerSize : Nat := 11

/-- How many bytes a unit takes. -/
def size (u : UnitPlan) : Nat := headerSize + u.family.size

/-- How many bytes units take. -/
def totalSize (units : List UnitPlan) : Nat := (units.map size).sum

/-- Where a unit starts. -/
def startOf (units : List UnitPlan) (i : Nat) : Nat := totalSize (units.take i)

@[simp] theorem totalSize_nil : totalSize [] = 0 := rfl

@[simp] theorem totalSize_cons (u : UnitPlan) (rest : List UnitPlan) :
    totalSize (u :: rest) = u.size + totalSize rest := rfl

@[simp] theorem startOf_zero (units : List UnitPlan) : startOf units 0 = 0 := rfl

@[simp] theorem startOf_cons_succ (u : UnitPlan) (rest : List UnitPlan) (i : Nat) :
    startOf (u :: rest) (i + 1) = u.size + startOf rest i := rfl

/-- A unit ends within all. -/
theorem startOf_add_size_le {units : List UnitPlan} {i : Nat} {u : UnitPlan}
    (hu : units[i]? = some u) : startOf units i + u.size ≤ totalSize units := by
  induction units generalizing i with
  | nil => simp at hu
  | cons v rest ih =>
    cases i with
    | zero =>
      cases hu
      simp
    | succ i =>
      have := ih (i := i) hu
      simp only [startOf_cons_succ, totalSize_cons]
      omega

end UnitPlan

/-- An entry has a code at least. -/
theorem EntryPlan.size_pos (p : EntryPlan) : 0 < p.size :=
  Nat.add_pos_left (length_unsignedBytes_pos p.code) _

/-- What is written for the children of an entry is no shorter than they are, since an
entry without room for children has none. -/
theorem EntryPlan.size_le_enclosedSize {p : EntryPlan} {below : Family}
    (hleaf : p.hasChildren = false → below = .nil) : below.size ≤ p.enclosedSize below.size := by
  unfold enclosedSize
  cases hroom : p.hasChildren with
  | false =>
    rw [hleaf hroom]
    exact Nat.le_refl 0
  | true => exact Nat.le_succ _

/-- Each entry takes at least a byte. -/
theorem Family.Valid.count_le_size {first last total : Nat} {f : Family}
    (hvalid : f.Valid first last total) : f.count ≤ f.size := by
  induction f with
  | nil => exact Nat.le_refl 0
  | entry p below later ihbelow ihlater =>
    obtain ⟨-, hleaf, hbelow, hlater⟩ := hvalid
    have hp := p.size_pos
    have hcount := ihbelow hbelow
    have := ihlater hlater
    have henclosed := EntryPlan.size_le_enclosedSize hleaf
    rw [count, size]
    omega

/-! ## Places -/

namespace Family

/-- Where the entries of a family come to stand, in order, if the family starts at an
offset. -/
def offsets : (o : Nat) → Family → List Nat
  | _, nil => []
  | o, entry p below later =>
    o :: (below.offsets (o + p.size) ++
      later.offsets (o + p.size + p.enclosedSize below.size))

/-- A family has an offset for each of its entries. -/
theorem length_offsets (o : Nat) (f : Family) : (f.offsets o).length = f.count := by
  induction f generalizing o with
  | nil => rfl
  | entry p below later ihbelow ihlater =>
    rw [offsets, List.length_cons, List.length_append, ihbelow, ihlater, count]
    omega

/-- The entries below the first one are numbered behind it. -/
theorem getElem?_offsets_below {p : EntryPlan} {below : Family} {o j x : Nat} (later : Family)
    (hx : (below.offsets (o + p.size))[j]? = some x) :
    ((entry p below later).offsets o)[j + 1]? = some x := by
  rw [offsets, List.getElem?_cons_succ,
    List.getElem?_append_left (List.getElem?_eq_some_iff.1 hx).1, hx]

/-- The later siblings of the first one are numbered behind all below it. -/
theorem getElem?_offsets_later {p : EntryPlan} {below later : Family} {o j x : Nat}
    (hx : (later.offsets (o + p.size + p.enclosedSize below.size))[j]? = some x) :
    ((entry p below later).offsets o)[below.count + j + 1]? = some x := by
  rw [offsets, List.getElem?_cons_succ,
    List.getElem?_append_right (by rw [length_offsets]; omega), length_offsets,
    Nat.add_sub_cancel_left, hx]

/-- A family that stands further on has all its offsets further on. -/
theorem offsets_add (n o : Nat) (f : Family) :
    f.offsets (n + o) = (f.offsets o).map (n + ·) := by
  induction f generalizing o with
  | nil => rfl
  | entry p below later ihbelow ihlater =>
    rw [offsets, offsets, List.map_cons, List.map_append, ← ihbelow, ← ihlater]
    simp only [Nat.add_assoc]

/-- The entries of a family are within its bytes. -/
theorem bounds_of_mem_offsets {first last total o x : Nat} {f : Family}
    (hvalid : f.Valid first last total) (hx : x ∈ f.offsets o) : o ≤ x ∧ x < o + f.size := by
  induction f generalizing o with
  | nil => cases hx
  | entry p below later ihbelow ihlater =>
    obtain ⟨-, hleaf, hbelow, hlater⟩ := hvalid
    have hp := p.size_pos
    rw [offsets, List.mem_cons, List.mem_append] at hx
    rw [size]
    rcases hx with rfl | hx | hx
    · omega
    · have hbounds := ihbelow hbelow hx
      have henclosed := EntryPlan.size_le_enclosedSize hleaf
      omega
    · have := ihlater hlater hx
      omega

/-- **Entries stand in the order of their numbers.** -/
theorem pairwise_offsets {first last total : Nat} (o : Nat) {f : Family}
    (hvalid : f.Valid first last total) : (f.offsets o).Pairwise (· < ·) := by
  induction f generalizing o with
  | nil => exact .nil
  | entry p below later ihbelow ihlater =>
    obtain ⟨hdata, hleaf, hbelow, hlater⟩ := hvalid
    have hp := p.size_pos
    rw [offsets, List.pairwise_cons, List.pairwise_append]
    refine ⟨fun x hx => ?_, ihbelow _ hbelow, ihlater _ hlater, fun x hx y hy => ?_⟩
    · rcases List.mem_append.1 hx with hx | hx
      · have := bounds_of_mem_offsets hbelow hx
        omega
      · have := bounds_of_mem_offsets hlater hx
        omega
    · have := bounds_of_mem_offsets hbelow hx
      have := bounds_of_mem_offsets hlater hy
      have := EntryPlan.size_le_enclosedSize hleaf
      omega

end Family

namespace UnitPlan

variable {units : List UnitPlan} {i j k : Nat} {u : UnitPlan}

/-- Where the entries of units come to stand, in order of their numbers, if the first
unit starts at an offset. -/
def offsetsFrom : (start : Nat) → List UnitPlan → List Nat
  | _, [] => []
  | start, u :: rest =>
    u.family.offsets (start + headerSize) ++ offsetsFrom (start + u.size) rest

/-- Where the entry with a number comes to stand. -/
def offsetOf (units : List UnitPlan) (k : Nat) : Nat := (offsetsFrom 0 units).getD k 0

/-- Units and offsets in units at which the entries come to stand, in order of their
numbers, if units are counted from `n`. -/
def placesFrom : (n : Nat) → List UnitPlan → List Entry
  | _, [] => []
  | n, u :: rest => (u.family.offsets headerSize).map (⟨n, ·⟩) ++ placesFrom (n + 1) rest

/-- The unit and the offset in it at which the entry with a number comes to stand. -/
def placeOf (units : List UnitPlan) (k : Nat) : Entry := (placesFrom 0 units).getD k ⟨0, 0⟩

/-- A plan has an offset for each of its entries. -/
theorem length_offsetsFrom (start : Nat) (units : List UnitPlan) :
    (offsetsFrom start units).length = total units := by
  induction units generalizing start with
  | nil => rfl
  | cons u rest ih =>
    rw [offsetsFrom, List.length_append, Family.length_offsets, ih]
    rfl

/-- **The offset of an entry** counts from the start of its unit. -/
theorem getElem?_offsetsFrom (start : Nat) (hu : units[i]? = some u) (hj : j < u.count) :
    (offsetsFrom start units)[firstOf units i + j]? =
      ((u.family.offsets headerSize)[j]?).map (start + startOf units i + ·) := by
  induction units generalizing i start with
  | nil => cases hu
  | cons v rest ih =>
    cases i with
    | zero =>
      cases hu
      have hlt : j < (u.family.offsets (start + headerSize)).length := by
        rw [Family.length_offsets]
        exact hj
      rw [firstOf_zero, Nat.zero_add, offsetsFrom, List.getElem?_append_left hlt,
        Family.offsets_add, List.getElem?_map]
      rfl
    | succ i =>
      have hlength : (v.family.offsets (start + headerSize)).length = v.count :=
        Family.length_offsets _ _
      rw [firstOf_cons_succ, startOf_cons_succ, offsetsFrom,
        List.getElem?_append_right (by omega), hlength, ← Nat.add_assoc start, ← ih _ hu]
      congr 1
      omega

/-- **The place of an entry** is in its unit. -/
theorem getElem?_placesFrom (n : Nat) (hu : units[i]? = some u) (hj : j < u.count) :
    (placesFrom n units)[firstOf units i + j]? =
      ((u.family.offsets headerSize)[j]?).map (⟨n + i, ·⟩) := by
  induction units generalizing i n with
  | nil => cases hu
  | cons v rest ih =>
    have hlength : ((v.family.offsets headerSize).map fun x => Entry.mk n x).length = v.count := by
      rw [List.length_map]
      exact Family.length_offsets _ _
    cases i with
    | zero =>
      cases hu
      rw [firstOf_zero, Nat.zero_add, placesFrom, List.getElem?_append_left (by omega),
        List.getElem?_map]
      rfl
    | succ i =>
      have hunit : n + (i + 1) = n + 1 + i := by omega
      rw [firstOf_cons_succ, placesFrom, List.getElem?_append_right (by omega), hlength, hunit,
        ← ih _ hu]
      congr 1
      omega

/-- An entry of a unit has a place in that unit, and an offset that goes with it. -/
theorem place_of_lt (hu : units[i]? = some u) (hj : j < u.count) :
    ∃ x, (u.family.offsets headerSize)[j]? = some x ∧ placeOf units (firstOf units i + j) = ⟨i, x⟩ ∧
      offsetOf units (firstOf units i + j) = startOf units i + x := by
  have hlt : j < (u.family.offsets headerSize).length := by
    rw [Family.length_offsets]
    exact hj
  have hx := List.getElem?_eq_getElem hlt
  refine ⟨_, hx, ?_, ?_⟩
  · rw [placeOf, List.getD_eq_getElem?_getD, getElem?_placesFrom 0 hu hj, hx, Nat.zero_add]
    rfl
  · rw [offsetOf, List.getD_eq_getElem?_getD, getElem?_offsetsFrom 0 hu hj, hx, Nat.zero_add]
    rfl

/-- Each entry has a place in some unit, and an offset that goes with it. -/
theorem exists_place_of_lt (hk : k < total units) :
    ∃ i u x, units[i]? = some u ∧ x ∈ u.family.offsets headerSize ∧ placeOf units k = ⟨i, x⟩ ∧
      offsetOf units k = startOf units i + x := by
  obtain ⟨i, u, hu, hfirst, hlast⟩ := exists_unit_of_lt hk
  obtain ⟨j, rfl⟩ := Nat.exists_eq_add_of_le hfirst
  obtain ⟨x, hx, hplace, hoffset⟩ := place_of_lt hu (j := j) (by omega)
  exact ⟨i, u, x, hu, List.mem_of_getElem? hx, hplace, hoffset⟩

/-- No entry is before the first unit. -/
theorem le_of_mem_offsetsFrom {start x : Nat}
    (hvalid : ∀ u ∈ units, ∃ first last total, u.family.Valid first last total)
    (hx : x ∈ offsetsFrom start units) : start ≤ x := by
  induction units generalizing start with
  | nil => cases hx
  | cons u rest ih =>
    rw [List.forall_mem_cons] at hvalid
    rw [offsetsFrom, List.mem_append] at hx
    rcases hx with hx | hx
    · obtain ⟨first, last, total, hu⟩ := hvalid.1
      have := Family.bounds_of_mem_offsets hu hx
      omega
    · have := ih hvalid.2 hx
      omega

/-- **Entries of all units stand in the order of their numbers.** -/
theorem pairwise_offsetsFrom (start : Nat)
    (hvalid : ∀ u ∈ units, ∃ first last total, u.family.Valid first last total) :
    (offsetsFrom start units).Pairwise (· < ·) := by
  induction units generalizing start with
  | nil => exact .nil
  | cons u rest ih =>
    rw [List.forall_mem_cons] at hvalid
    obtain ⟨first, last, total, hu⟩ := hvalid.1
    rw [offsetsFrom, List.pairwise_append]
    refine ⟨Family.pairwise_offsets _ hu, ih _ hvalid.2, fun x hx y hy => ?_⟩
    have := Family.bounds_of_mem_offsets hu hx
    have := le_of_mem_offsetsFrom hvalid.2 hy
    rw [size] at this
    omega

/-- Each unit of a valid plan has a valid family. -/
theorem Valid.exists_family (h : Valid units) :
    ∀ u ∈ units, ∃ first last total, u.family.Valid first last total := by
  intro u hu
  obtain ⟨i, hi⟩ := List.mem_iff_getElem?.1 hu
  exact ⟨_, _, _, h i u hi⟩

/-- A plan has at least as many bytes as entries. -/
theorem Valid.total_le_totalSize (h : Valid units) : total units ≤ totalSize units := by
  have hvalid := h.exists_family
  clear h
  induction units with
  | nil => exact Nat.le_refl 0
  | cons u rest ih =>
    rw [List.forall_mem_cons] at hvalid
    obtain ⟨first, last, n, hu⟩ := hvalid.1
    have hcount : u.count ≤ u.family.size := hu.count_le_size
    have := ih hvalid.2
    rw [total_cons, totalSize_cons, size]
    omega

/-- Different entries stand at different offsets. -/
theorem Valid.offsetOf_inj (h : Valid units) {a b : Nat} (ha : a < total units)
    (hb : b < total units) (heq : offsetOf units a = offsetOf units b) : a = b := by
  have hnodup : (offsetsFrom 0 units).Nodup :=
    (pairwise_offsetsFrom 0 h.exists_family).imp Nat.ne_of_lt
  rw [← length_offsetsFrom 0] at ha hb
  simp only [offsetOf, List.getD_eq_getElem?_getD, List.getElem?_eq_getElem ha,
    List.getElem?_eq_getElem hb, Option.getD_some] at heq
  exact (List.Nodup.getElem_inj_iff hnodup).1 heq

/-- An entry of a unit stands behind the header of the unit and before its end. -/
theorem Valid.bounds_offsetOf (h : Valid units) (hu : units[i]? = some u)
    (hfirst : firstOf units i ≤ k) (hk : k < firstOf units i + u.count) :
    startOf units i + headerSize ≤ offsetOf units k ∧
      offsetOf units k < startOf units i + u.size := by
  obtain ⟨j, rfl⟩ := Nat.exists_eq_add_of_le hfirst
  obtain ⟨x, hx, -, hoffset⟩ := place_of_lt hu (j := j) (by omega)
  have := Family.bounds_of_mem_offsets (h i u hu) (List.mem_of_getElem? hx)
  rw [hoffset, size]
  omega

/-- An entry stands within all units. -/
theorem Valid.offsetOf_lt (h : Valid units) (hk : k < total units) :
    offsetOf units k < totalSize units := by
  obtain ⟨i, u, x, hu, hx, -, hoffset⟩ := exists_place_of_lt hk
  have := Family.bounds_of_mem_offsets (h i u hu) hx
  have := startOf_add_size_le hu
  rw [size] at this
  omega

end UnitPlan

/-- The entries of the unit that starts at `start` stand behind its start, and all
entries at offsets of 32 bits. -/
structure Placed (offsetOf : Nat → Nat) (first last total start : Nat) : Prop where
  lt : ∀ k, k < total → offsetOf k < UInt32.size
  le : ∀ k, first ≤ k → k < last → start ≤ offsetOf k
  last_le : last ≤ total

/-- **The entries of a unit are where the plan has them,** and those of all units are below
2³². -/
theorem UnitPlan.Valid.placed {units : List UnitPlan} {i : Nat} {u : UnitPlan}
    (h : UnitPlan.Valid units) (hsize : UnitPlan.totalSize units ≤ UInt32.size)
    (hu : units[i]? = some u) :
    Placed (UnitPlan.offsetOf units) (UnitPlan.firstOf units i)
      (UnitPlan.firstOf units i + u.count) (UnitPlan.total units) (UnitPlan.startOf units i) := by
  refine ⟨fun k hk => Nat.lt_of_lt_of_le (h.offsetOf_lt hk) hsize, fun k hfirst hlast => ?_,
    UnitPlan.firstOf_add_count_le hu⟩
  have := h.bounds_offsetOf hu hfirst hlast
  omega

/-! ## Bytes -/

/-- The bytes of a value in the unit that starts at `start`. -/
def Datum.bytes (offsetOf : Nat → Nat) (start : Nat) : Datum → List UInt8
  | text s => s.toUTF8.data.toList ++ [0]
  | address a => littleBytes a.toNat 8
  | present => []
  | unitReference k => littleBytes (offsetOf k - start) 4
  | forestReference k => littleBytes (offsetOf k) 4

/-- The bytes of an entry. -/
def EntryPlan.bytes (offsetOf : Nat → Nat) (start : Nat) (p : EntryPlan) : List UInt8 :=
  unsignedBytes p.code ++ p.data.flatMap (Datum.bytes offsetOf start)

/-- The bytes of a family. -/
def Family.bytes (offsetOf : Nat → Nat) (start : Nat) : Family → List UInt8
  | nil => []
  | entry p below later =>
    p.bytes offsetOf start ++ p.enclose (below.bytes offsetOf start) [0] ++
      later.bytes offsetOf start

namespace UnitPlan

/-- The bytes of a unit that starts at `start`. -/
def bytes (offsetOf : Nat → Nat) (start : Nat) (u : UnitPlan) : List UInt8 :=
  littleBytes (u.size - 4) 4 ++ (littleBytes 4 2 ++ littleBytes 0 4 ++ [8]) ++
    u.family.bytes offsetOf start

/-- The bytes of units, the first of which starts at `start`. -/
def bytesFrom (offsetOf : Nat → Nat) : (start : Nat) → List UnitPlan → List UInt8
  | _, [] => []
  | start, u :: rest => u.bytes offsetOf start ++ bytesFrom offsetOf (start + u.size) rest

end UnitPlan

/-- Children are written with one end, or not at all. -/
theorem EntryPlan.length_enclose {α : Type} (p : EntryPlan) (children : List α) (stop : α) :
    (p.enclose children [stop]).length = p.enclosedSize children.length := by
  unfold enclose enclosedSize
  split <;> simp

section Length

variable (offsetOf : Nat → Nat) (start : Nat)

/-- A datum is as long as planned. -/
theorem Datum.length_bytes (d : Datum) : (d.bytes offsetOf start).length = d.size := by
  cases d <;> simp [bytes, size]

/-- So is an entry. -/
theorem EntryPlan.length_bytes (p : EntryPlan) : (p.bytes offsetOf start).length = p.size := by
  rw [bytes, List.length_append, List.length_flatMap, size]
  simp only [Datum.length_bytes]

/-- So is a family. -/
theorem Family.length_bytes (f : Family) : (f.bytes offsetOf start).length = f.size := by
  induction f with
  | nil => rfl
  | entry p below later ihbelow ihlater =>
    rw [bytes, List.length_append, List.length_append, EntryPlan.length_bytes,
      EntryPlan.length_enclose, ihbelow, ihlater, size]

/-- So is a unit. -/
theorem UnitPlan.length_bytes (u : UnitPlan) : (u.bytes offsetOf start).length = u.size := by
  simp only [bytes, List.length_append, length_littleBytes, Family.length_bytes, size, headerSize,
    List.length_singleton]

/-- All units together are as long as planned. -/
theorem UnitPlan.length_bytesFrom (units : List UnitPlan) :
    (bytesFrom offsetOf start units).length = totalSize units := by
  induction units generalizing start with
  | nil => rfl
  | cons u rest ih => rw [bytesFrom, List.length_append, length_bytes, ih, totalSize_cons]

end Length

end Dwarf
end ParamAtlas
