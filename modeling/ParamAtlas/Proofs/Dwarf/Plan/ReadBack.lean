/-
# Reading back what was assembled

Where the bytes of units stand one behind another, each unit is found and loaded, with
its root right behind its header:

| read | what is found |
| --- | --- |
| header | a unit of version 4 with 32-bit offsets (`rawUnit_of_shows`) |
| table of abbreviations | every shape under its code (`Assembly.exists_abbreviations`) |
| root | its name, and neither a line program nor an entry address |
| entries in a row | the family of the root (`Loads.entriesFrom_loaded`) |

The first child of an entry is the next one in a row if that is one step deeper, and its
sibling is the next one that is not deeper.  So links are as families are nested, and
the store displays the plan (`Loads.displaysUnits`), as the plan in memory does.  Two
stores that display a plan correspond, so what was assembled is read back
(`readsBack_ofPlan`).
-/

import ParamAtlas.Proofs.Dwarf.Coverage
import ParamAtlas.Proofs.Dwarf.Lookup
import ParamAtlas.Proofs.Dwarf.Plan.Assembly
import ParamAtlas.Proofs.Dwarf.Plan.Entries
import ParamAtlas.Proofs.Dwarf.Plan.Memory

namespace ParamAtlas
namespace Dwarf

/-! ## Units -/

/-- The header that each unit is written with is read as one of version 4. -/
theorem Reader.unitHeader_of_shows {b : Bytes} {p : Nat}
    (h : b.Shows p (littleBytes 4 2 ++ littleBytes 0 4 ++ [8])) :
    (Reader.unitHeader .little .bits32).run b p = .ok (⟨Assembly.encoding, 0⟩, p + 7) := by
  rw [Bytes.shows_append, Bytes.shows_append, List.length_append, length_littleBytes,
    length_littleBytes] at h
  obtain ⟨⟨hversion, hoffset⟩, hsize⟩ := h
  have hversion : (Reader.version .little).run b p = .ok (4, p + 2) := by
    rw [Reader.version, Reader.run_bind (Reader.number_of_shows (by decide) (by decide) hversion),
      if_pos (by decide)]
    rfl
  have hoffset : (Reader.offset .little .bits32).run b (p + 2) = .ok (0, p + 2 + 4) :=
    Reader.number_of_shows (by decide) (by decide) hoffset
  have hsize : Reader.addressSize.run b (p + 2 + 4) = .ok (8, p + 2 + 4 + 1) := by
    rw [Reader.addressSize, Reader.run_bind (Reader.byte_of_shows hsize), if_pos (by decide)]
    rfl
  rw [Reader.unitHeader, Reader.run_bind hversion, if_pos (by decide), Reader.run_bind hoffset,
    Reader.run_bind hsize]
  rfl

namespace UnitPlan

/-- Units with their starts, if the first of them has a start. -/
def withStarts : (start : Nat) → List UnitPlan → List (Nat × UnitPlan)
  | _, [] => []
  | start, u :: rest => (start, u) :: withStarts (start + u.size) rest

/-- Each unit has a start. -/
theorem length_withStarts (start : Nat) (units : List UnitPlan) :
    (withStarts start units).length = units.length := by
  induction units generalizing start with
  | nil => rfl
  | cons u rest ih => rw [withStarts, List.length_cons, List.length_cons, ih]

/-- The start of a unit is the size of all units before it. -/
theorem getElem?_withStarts (start : Nat) (units : List UnitPlan) (i : Nat) :
    (withStarts start units)[i]? = (units[i]?).map fun u => (start + startOf units i, u) := by
  induction units generalizing start i with
  | nil => rfl
  | cons u rest ih =>
    cases i with
    | zero => rfl
    | succ i =>
      rw [withStarts, List.getElem?_cons_succ, List.getElem?_cons_succ, ih, startOf_cons_succ,
        Nat.add_assoc]

section Load

variable (offsetOf : Nat → Nat) (table : Abbreviations) (start : Nat) (u : UnitPlan)

/-- A unit before it is loaded. -/
def rawUnit : Sections.RawUnit :=
  ⟨start, (u.bytes offsetOf start).toArray, ⟨Assembly.encoding, 0⟩, headerSize⟩

/-- The entries of a unit. -/
def entryList : EntryList where
  encoding := Assembly.encoding
  abbreviations := table
  bytes := (u.bytes offsetOf start).toArray
  headerSize := headerSize

/-- A unit ready for use. -/
def loaded : LoadedUnit :=
  (Sections.assembled start (u.entryList offsetOf table start)
    [(AttributeCode.name, .text u.name.toUTF8.data)]).1

end Load

variable {S : Sections} {offsetOf : Nat → Nat} {table : Abbreviations} {start : Nat} {u : UnitPlan}

/-- The parts of a unit stand at their places in it. -/
theorem shows_bytes (offsetOf : Nat → Nat) (start : Nat) (u : UnitPlan) :
    Bytes.Shows (u.bytes offsetOf start).toArray 4 (littleBytes 4 2 ++ littleBytes 0 4 ++ [8]) ∧
      Bytes.Shows (u.bytes offsetOf start).toArray headerSize (u.family.bytes offsetOf start) := by
  have h : Bytes.Shows (u.bytes offsetOf start).toArray 0 (u.bytes offsetOf start) :=
    Bytes.shows_of_toList rfl
  rw [bytes, Bytes.shows_append, Bytes.shows_append] at h
  exact ⟨h.1.2, h.2⟩

/-- A unit below the limit of 32 bits is found where its bytes stand. -/
theorem rawUnit_of_shows (horder : S.order = .little) (hsize : u.size < 0xfffffff0)
    (h : S.info.Shows start (u.bytes offsetOf start)) :
    S.rawUnit start = .ok (u.rawUnit offsetOf start) := by
  have hlength : (u.bytes offsetOf start).length = u.size := length_bytes offsetOf start u
  have hhead : headerSize ≤ u.size := Nat.le_add_right headerSize u.family.size
  have hinitial : (Reader.initialLength .little).run S.info start =
      .ok ((u.size - 4, .bits32), start + 4) := by
    rw [bytes, Bytes.shows_append, Bytes.shows_append] at h
    rw [Reader.initialLength,
      Reader.run_bind (Reader.number_of_shows (by decide) (by omega) h.1.1), if_pos (by omega)]
    rfl
  have hslice : S.info.slice? start (4 + (u.size - 4)) =
      some (u.bytes offsetOf start).toArray := by
    have hne : u.bytes offsetOf start ≠ [] :=
      List.ne_nil_of_length_pos (hlength ▸ Nat.lt_of_lt_of_le (by decide) hhead)
    have hcount : 4 + (u.size - 4) = (u.bytes offsetOf start).length := by
      simp only [headerSize] at hhead
      omega
    rw [hcount, Bytes.slice?, if_pos (h.le_size hne), h.extract]
  have hheader := Reader.unitHeader_of_shows (shows_bytes offsetOf start u).1
  simp only [Sections.rawUnit, horder, hinitial, Nat.add_sub_cancel_left, hslice, hheader]
  rfl

/-- **The units in a row are those whose bytes stand there.** -/
theorem rawUnitsFrom_of_shows (horder : S.order = .little) {units : List UnitPlan}
    (hsize : totalSize units < 0xfffffff0) (h : S.info.Shows start (bytesFrom offsetOf start units))
    (hend : start + totalSize units = S.info.size) :
    S.rawUnitsFrom start = (withStarts start units).map fun a => a.2.rawUnit offsetOf a.1 := by
  induction units generalizing start with
  | nil => exact Sections.rawUnitsFrom_end (Nat.le_of_eq hend.symm)
  | cons u rest ih =>
    rw [bytesFrom, Bytes.shows_append, length_bytes] at h
    rw [totalSize_cons] at hsize hend
    have hraw := rawUnit_of_shows horder (by omega) h.1
    have hbytes : (u.rawUnit offsetOf start).bytes.size = u.size := length_bytes offsetOf start u
    rw [Sections.rawUnitsFrom_unit hraw, hbytes, ih (by omega) h.2 (by omega), withStarts,
      List.map_cons]

/-- The root stands right behind the header. -/
theorem shows_root (offsetOf : Nat → Nat) (start : Nat) (u : UnitPlan) :
    Bytes.Shows (u.bytes offsetOf start).toArray headerSize
      ((EntryPlan.root u.name).bytes offsetOf start) := by
  have hfamily := (shows_bytes offsetOf start u).2
  rw [family, Family.bytes, Bytes.shows_append, Bytes.shows_append] at hfamily
  exact hfamily.1.1

section Shapes

variable (htable : ∀ shape ∈ Assembly.shapes,
  table[shape.1]? = some (Assembly.abbreviationOf shape))

include htable

/-- The root of a unit is its first entry. -/
theorem root_entryList : (u.entryList offsetOf table start).root =
    .ok (headerSize, (EntryPlan.root u.name).headAt headerSize) :=
  EntryList.root_of_headAt? (EntryPlan.headAt?_of_shows ⟨rfl, htable⟩ (Nat.le_refl headerSize)
    (shows_root offsetOf start u))

/-- **A unit is loaded** if the table of shapes is read. -/
theorem loadUnit?_rawUnit {q first last total : Nat}
    (hread : Reader.abbreviations.run S.abbreviations 0 = .ok (table, q))
    (hplaced : Placed offsetOf first last total start)
    (hvalid : u.family.Valid first last total) :
    S.loadUnit? (u.rawUnit offsetOf start) = some (u.loaded offsetOf table start) := by
  have hvalues := EntryPlan.values_headAt_of_shows
    (u := u.entryList offsetOf table start) ⟨rfl, htable⟩ hplaced hvalid.1
    (shows_root offsetOf start u)
  refine (S.loadUnit?_eq_some_iff _ _).2 ⟨u.entryList offsetOf table start,
    [(AttributeCode.name, .text u.name.toUTF8.data)], ?_, rfl, rfl, rfl⟩
  simp only [Sections.rootValues, except_bind_eq_ok]
  exact ⟨_, hread, _, root_entryList htable, _, hvalues, rfl⟩

end Shapes

end UnitPlan

/-! ## Rows of families -/

namespace Family

/-- A row has the offsets of a family. -/
theorem map_snd_row (d o : Nat) (f : Family) : (f.row d o).map Prod.snd = f.offsets o := by
  induction f generalizing d o with
  | nil => rfl
  | entry p below later ihbelow ihlater =>
    rw [row, List.map_cons, List.map_append, ihbelow, ihlater, offsets]

/-- Nothing in a row is less deep than the family. -/
theorem le_of_mem_row {d o : Nat} {f : Family} : ∀ e ∈ f.row d o, d ≤ e.1 := by
  induction f generalizing d o with
  | nil => simp [row]
  | entry p below later ihbelow ihlater =>
    rw [row, List.forall_mem_cons]
    refine ⟨Nat.le_refl d, fun e he => ?_⟩
    rcases List.mem_append.1 he with he | he
    · exact Nat.le_of_succ_le (ihbelow e he)
    · exact ihlater e he

/-- The first entry of a family has its place if all its entries have. -/
theorem map_first? {place : Nat → Entry} {i k o : Nat} {f : Family}
    (hplace : ∀ j x, (f.offsets o)[j]? = some x → place (k + j) = ⟨i, x⟩) :
    (f.first? o).map (⟨i, ·⟩) = (f.first? k).map place := by
  cases f with
  | nil => rfl
  | entry p below later => exact congrArg some (hplace 0 o rfl).symm

end Family

/-- What is deeper does not count in the search for a sibling. -/
theorem siblingIn_append {d : Nat} {deeper : List (Nat × Nat)} (h : ∀ e ∈ deeper, d < e.1)
    (rest : List (Nat × Nat)) : siblingIn d (deeper ++ rest) = siblingIn d rest := by
  induction deeper with
  | nil => rfl
  | cons e deeper ih =>
    rw [List.forall_mem_cons] at h
    rw [List.cons_append, siblingIn, if_pos h.1, ih h.2]

/-- Rows begin above a depth. -/
def Above (d : Nat) (row : List (Nat × Nat)) : Prop := ∀ e, row.head? = some e → e.1 < d

/-- The sibling that a row starts with is the family's first entry. -/
theorem Above.siblingIn_row {d o : Nat} {rest : List (Nat × Nat)} (h : Above d rest) (f : Family) :
    siblingIn d (f.row d o ++ rest) = f.first? o := by
  cases f with
  | nil =>
    cases rest with
    | nil => rfl
    | cons e rest =>
      have := h e rfl
      change (if d < e.1 then _ else if e.1 = d then _ else none) = none
      rw [if_neg (by omega), if_neg (by omega)]
  | entry p below later =>
    change (if d < d then _ else if d = d then some o else none) = some o
    rw [if_neg (by omega), if_pos rfl]

/-- The child that a row starts with is the family's first entry. -/
theorem Above.childIn_row {d o : Nat} {rest : List (Nat × Nat)} (h : Above (d + 1) rest)
    (f : Family) : EntryList.childIn d (f.row (d + 1) o ++ rest) = f.first? o := by
  cases f with
  | nil =>
    cases rest with
    | nil => rfl
    | cons e rest =>
      have := h e rfl
      exact if_neg (by omega)
  | entry p below later => exact if_pos rfl

/-- What is above a family and what follows it is above what is deeper in it. -/
theorem Above.row_append {d o : Nat} {rest : List (Nat × Nat)} (h : Above d rest) (f : Family) :
    Above (d + 1) (f.row d o ++ rest) := by
  intro e he
  cases f with
  | nil => exact Nat.lt_succ_of_lt (h e he)
  | entry p below later =>
    cases he
    exact Nat.lt_succ_self d

/-! ## The store -/

namespace Store

variable {S : Sections} {place : Nat → Entry} {offsetOf : Nat → Nat}
  {first last total start i : Nat} {u : LoadedUnit}

section Displays

variable (hu : (ofSections S).units[i]? = some u) (hknows : u.KnowsShapes)
  (hstart : u.start = start) (hplaced : Placed offsetOf first last total start)
  (href : ∀ k, k < total → (ofSections S).ref (place k) = ⟨(offsetOf k).toUInt64⟩)

include hu hknows hstart hplaced href

/-- **An entry that stands somewhere says what is planned.** -/
theorem displaysEntry_of_shows {p : EntryPlan} (hvalid : ∀ d ∈ p.data, d.Valid first last total)
    {k o : Nat} (hk : place k = ⟨i, o⟩) (ho : u.headerSize ≤ o)
    (h : u.bytes.Shows o (p.bytes offsetOf start)) :
    DisplaysEntry (ofSections S).forest place k p := by
  have hvalue := EntryPlan.value?_of_shows hknows hplaced hvalid h ho
  refine ⟨?_, fun code => ?_, fun code => ?_, fun code => ?_, fun code => ?_⟩
  · simp only [forest, ask, hk, hu, EntryPlan.headAt?_of_shows hknows ho h, Option.map_some]
    rfl
  · simp only [forest, attribute?, ask, hk, hu, hvalue]
    cases p.datum? code with
    | none => rfl
    | some d =>
      cases d with
      | text s => exact congrArg some (Utf8.lossy_toUTF8 s)
      | _ => rfl
  · simp only [forest, attribute?, ask, hk, hu, hvalue]
    cases p.datum? code with
    | none => rfl
    | some d => cases d <;> rfl
  · simp only [forest, attribute?, ask, hk, hu, hvalue]
    cases p.datum? code with
    | none => rfl
    | some d => cases d <;> rfl
  · simp only [forest, attribute?, ask, hk, hu, hvalue]
    cases hdatum : p.datum? code with
    | none => rfl
    | some d =>
      have hd := hvalid d (EntryPlan.mem_of_datum? hdatum)
      cases d with
      | unitReference j =>
        have hsum : start + (offsetOf j - start) = offsetOf j :=
          Nat.add_sub_cancel' (hplaced.le j hd.1 hd.2)
        have hword : u.start.toUInt64 + (offsetOf j - start).toUInt64 = (offsetOf j).toUInt64 := by
          rw [hstart]
          exact (UInt64.ofNat_add _ _).symm.trans (congrArg UInt64.ofNat hsum)
        change some (EntryRef.mk (u.start.toUInt64 + (offsetOf j - start).toUInt64)) =
          some ((ofSections S).ref (place j))
        rw [hword, href j (Nat.lt_of_lt_of_le hd.2 hplaced.last_le)]
      | forestReference j => exact congrArg some (href j hd).symm
      | _ => rfl

/-- **A family that stands somewhere is displayed.** -/
theorem displays_of_shows {f : Family} (hvalid : f.Valid first last total) {k d o : Nat}
    {rest : List (Nat × Nat)} (ho : u.headerSize ≤ o)
    (h : u.bytes.Shows o (f.bytes offsetOf start))
    (hsuffix : f.row d o ++ rest <:+ u.entriesFrom 0 u.headerSize) (hrest : Above d rest)
    (hplace : ∀ j x, (f.offsets o)[j]? = some x → place (k + j) = ⟨i, x⟩) :
    Displays (ofSections S).forest place k f := by
  induction f generalizing k d o rest with
  | nil => trivial
  | entry p below later ihbelow ihlater =>
    obtain ⟨hdata, hleaf, hbelow, hlater⟩ := hvalid
    rw [Family.bytes, Bytes.shows_append, Bytes.shows_append, List.length_append,
      EntryPlan.length_bytes, EntryPlan.length_enclose, Family.length_bytes, ← Nat.add_assoc] at h
    obtain ⟨⟨hentry, hinner⟩, hbehind⟩ := h
    have hk : place k = ⟨i, o⟩ := hplace 0 o rfl
    have hplaceBelow : ∀ j x, (below.offsets (o + p.size))[j]? = some x →
        place (k + 1 + j) = ⟨i, x⟩ := by
      intro j x hx
      rw [Nat.add_assoc, Nat.add_comm 1]
      exact hplace (j + 1) x (Family.getElem?_offsets_below later hx)
    have hplaceLater : ∀ j x,
        (later.offsets (o + p.size + p.enclosedSize below.size))[j]? = some x →
          place (k + 1 + below.count + j) = ⟨i, x⟩ := by
      intro j x hx
      rw [Nat.add_assoc, Nat.add_assoc, Nat.add_comm 1]
      exact hplace (below.count + j + 1) x (Family.getElem?_offsets_later hx)
    have hrow : (Family.entry p below later).row d o ++ rest =
        (d, o) :: (below.row (d + 1) (o + p.size) ++
          (later.row d (o + p.size + p.enclosedSize below.size) ++ rest)) := by
      rw [Family.row, List.cons_append, List.append_assoc]
    rw [hrow] at hsuffix
    -- The row behind the family below goes on with what is later, which is not deeper, so
    -- a search in the family below stops there.
    have habove := hrest.row_append (o := o + p.size + p.enclosedSize below.size) later
    have hshows : u.bytes.Shows (o + p.size) (below.bytes offsetOf start) := by
      unfold EntryPlan.enclose at hinner
      cases hroom : p.hasChildren with
      | false =>
        rw [hleaf hroom]
        exact Bytes.shows_nil
      | true =>
        rw [if_pos hroom] at hinner
        exact (Bytes.shows_append.1 hinner).1
    have hinside := (List.suffix_cons _ _).trans hsuffix
    refine ⟨displaysEntry_of_shows hu hknows hstart hplaced href hdata hk ho hentry, ?_, ?_,
      ihbelow hbelow (by omega) hshows hinside habove hplaceBelow,
      ihlater hlater (by omega) hbehind ((List.suffix_append _ _).trans hinside) hrest hplaceLater⟩
    · rw [hk, firstChild_of_suffix hu hsuffix, habove.childIn_row, Family.map_first? hplaceBelow]
    · have hdeeper : ∀ e ∈ below.row (d + 1) (o + p.size), d < e.1 := Family.le_of_mem_row
      rw [hk, nextSibling_of_suffix hu hsuffix, siblingIn_append hdeeper, hrest.siblingIn_row,
        Family.map_first? hplaceLater]

end Displays

end Store

/-! ## All units -/

/-- The units loaded are those planned, each at its start, and know their shapes. -/
structure Loads (S : Sections) (table : Abbreviations) (units : List UnitPlan) : Prop where
  units : (Store.ofSections S).units.toList = (UnitPlan.withStarts 0 units).map fun a =>
    a.2.loaded (UnitPlan.offsetOf units) table a.1
  table : ∀ shape ∈ Assembly.shapes, table[shape.1]? = some (Assembly.abbreviationOf shape)

/-- **The units planned are loaded** where their bytes and the table of shapes stand. -/
theorem loads_of_toList {S : Sections} {units : List UnitPlan} {table : Abbreviations} {q : Nat}
    (horder : S.order = .little)
    (hinfo : S.info.toList = UnitPlan.bytesFrom (UnitPlan.offsetOf units) 0 units)
    (hread : Reader.abbreviations.run S.abbreviations 0 = .ok (table, q))
    (htable : ∀ shape ∈ Assembly.shapes, table[shape.1]? = some (Assembly.abbreviationOf shape))
    (hvalid : UnitPlan.Valid units) (hsize : UnitPlan.totalSize units < 0xfffffff0) :
    Loads S table units := by
  refine ⟨?_, htable⟩
  have hend : 0 + UnitPlan.totalSize units = S.info.size := by
    rw [← Array.length_toList, hinfo, UnitPlan.length_bytesFrom, Nat.zero_add]
  change S.load.units.toList = _
  rw [Sections.toList_units_load, Sections.rawUnits,
    UnitPlan.rawUnitsFrom_of_shows horder hsize (Bytes.shows_of_toList hinfo) hend,
    List.filterMap_map, ← List.filterMap_eq_map]
  refine List.filterMap_congr fun a ha => ?_
  obtain ⟨i, hi⟩ := List.mem_iff_getElem?.1 ha
  rw [UnitPlan.getElem?_withStarts, Option.map_eq_some_iff] at hi
  obtain ⟨u, hu, rfl⟩ := hi
  have hplaced := hvalid.placed (Nat.le_of_lt (Nat.lt_trans hsize (by decide))) hu
  rw [← Nat.zero_add (UnitPlan.startOf units i)] at hplaced
  exact UnitPlan.loadUnit?_rawUnit htable hread hplaced (hvalid i u hu)

namespace Loads

variable {S : Sections} {table : Abbreviations} {units : List UnitPlan} (h : Loads S table units)
  {i k : Nat} {u : UnitPlan}

include h

/-- The units that are loaded are those of the plan, each at its start. -/
theorem getElem?_units (i : Nat) : (Store.ofSections S).units[i]? =
    (units[i]?).map fun u => u.loaded (UnitPlan.offsetOf units) table
      (UnitPlan.startOf units i) := by
  rw [← Array.getElem?_toList, h.units, List.getElem?_map, UnitPlan.getElem?_withStarts,
    Option.map_map, Nat.zero_add]
  rfl

/-- A unit of the plan is loaded. -/
theorem unit (hu : units[i]? = some u) : (Store.ofSections S).units[i]? =
    some (u.loaded (UnitPlan.offsetOf units) table (UnitPlan.startOf units i)) := by
  rw [h.getElem?_units, hu, Option.map_some]

/-- The place of an entry has the offset that the plan gives it. -/
theorem ref_placeOf (hk : k < UnitPlan.total units) :
    (Store.ofSections S).ref (UnitPlan.placeOf units k) =
      ⟨(UnitPlan.offsetOf units k).toUInt64⟩ := by
  obtain ⟨i, u, x, hu, -, hplace, hoffset⟩ := UnitPlan.exists_place_of_lt hk
  simp only [hplace, hoffset, Store.ref, h.unit hu]
  rfl

variable (hvalid : UnitPlan.Valid units) (hsize : UnitPlan.totalSize units ≤ UInt32.size)

include hvalid hsize

/-- The entries of a unit in a row are those planned. -/
theorem entriesFrom_loaded (hu : units[i]? = some u) :
    (u.loaded (UnitPlan.offsetOf units) table (UnitPlan.startOf units i)).entriesFrom 0
      UnitPlan.headerSize = u.family.row 0 UnitPlan.headerSize := by
  have hrow := Family.entriesFrom_of_shows (d := 0)
    (u := u.entryList (UnitPlan.offsetOf units) table (UnitPlan.startOf units i))
    ⟨rfl, h.table⟩ (hvalid.placed hsize hu) (hvalid i u hu) (UnitPlan.shows_bytes _ _ u).2
  have hbytes : (u.entryList (UnitPlan.offsetOf units) table
      (UnitPlan.startOf units i)).bytes.size = UnitPlan.headerSize + u.family.size :=
    UnitPlan.length_bytes _ _ u
  rw [EntryList.entriesFrom_end (Nat.le_of_eq hbytes), List.append_nil] at hrow
  exact hrow

/-- An entry stands at the place of each number. -/
theorem entryAt_ref (hk : k < UnitPlan.total units) :
    (Store.ofSections S).entryAt? ((Store.ofSections S).ref (UnitPlan.placeOf units k)) =
      some (UnitPlan.placeOf units k) := by
  obtain ⟨i, u, x, hu, hx, hplace, hoffset⟩ := UnitPlan.exists_place_of_lt hk
  have hword : (UnitPlan.offsetOf units k).toUInt64.toNat = UnitPlan.offsetOf units k :=
    UInt64.toNat_ofNat_of_lt' (Nat.lt_trans ((hvalid.placed hsize hu).lt k hk) (by decide))
  rw [h.ref_placeOf hk, hplace]
  refine Store.entryAt?_eq_some_iff.2 ⟨_, h.unit hu, ?_, ?_⟩
  · rw [← Family.map_snd_row 0] at hx
    obtain ⟨e, he, rfl⟩ := List.mem_map.1 hx
    rw [← h.entriesFrom_loaded hvalid hsize hu] at he
    exact EntryList.isSome_headAt?_of_mem_entriesFrom he
  · rw [hword, hoffset]
    rfl

omit hvalid hsize in
/-- The root of a unit is the first of its entries. -/
theorem root? (hu : units[i]? = some u) :
    (Store.ofSections S).root? i = some (UnitPlan.placeOf units (UnitPlan.firstOf units i)) := by
  obtain ⟨x, hx, hplace, -⟩ := UnitPlan.place_of_lt hu u.count_pos
  cases hx
  have hroot : (u.loaded (UnitPlan.offsetOf units) table (UnitPlan.startOf units i)).root =
      .ok (UnitPlan.headerSize, (EntryPlan.root u.name).headAt UnitPlan.headerSize) :=
    UnitPlan.root_entryList h.table
  rw [Nat.add_zero] at hplace
  simp only [Store.root?, h.unit hu, hroot, hplace]

/-- **A store of the units planned displays them.** -/
theorem displaysUnits :
    DisplaysUnits (Store.ofSections S).forest (UnitPlan.placeOf units) units := by
  refine ⟨?_, fun i => ?_, fun i => ?_, fun i u hu => ?_,
    fun k hk => h.entryAt_ref hvalid hsize hk⟩
  · change (Store.ofSections S).units.size = units.length
    rw [← Array.length_toList, h.units, List.length_map, UnitPlan.length_withStarts]
  · change (((Store.ofSections S).units[i]?).map _).isSome = _
    rw [Option.isSome_map, h.getElem?_units, Option.isSome_map]
    exact Bool.eq_iff_iff.2 ((iff_of_eq (isSome_getElem? units i)).trans decide_eq_true_iff.symm)
  · change (Store.ofSections S).root? i = _
    split
    · rename_i hi
      exact h.root? (List.getElem?_eq_getElem hi)
    · rename_i hi
      have hnone : units[i]? = none := List.getElem?_eq_none (Nat.le_of_not_lt hi)
      simp only [Store.root?, h.getElem?_units, hnone, Option.map_none]
  · have hrow : u.family.row 0 UnitPlan.headerSize ++ [] =
        (u.loaded (UnitPlan.offsetOf units) table (UnitPlan.startOf units i)).entriesFrom 0
          UnitPlan.headerSize :=
      (List.append_nil _).trans (h.entriesFrom_loaded hvalid hsize hu).symm
    have habove : Above 0 [] := fun e he => by cases he
    refine Store.displays_of_shows (h.unit hu) ⟨rfl, h.table⟩ rfl (hvalid.placed hsize hu)
      (fun k hk => h.ref_placeOf hk) (hvalid i u hu) (Nat.le_refl _) (UnitPlan.shows_bytes _ _ u).2
      (hrow ▸ List.suffix_refl _) habove ?_
    · intro j x hx
      have hj := (List.getElem?_eq_some_iff.1 hx).1
      rw [Family.length_offsets] at hj
      obtain ⟨x', hx', hplace, -⟩ := UnitPlan.place_of_lt hu hj
      cases hx.symm.trans hx'
      exact hplace

end Loads

/-! ## Reading back -/

/-- The sections assembled from a plan hold the entries of the plan, each at the offset of
its label, as the plan in memory does. -/
structure ReadsBack (label : Nat → String) (units : List UnitPlan) (place : Nat → Entry) :
    Prop where
  entries : (MemoryForest.ofPlan units).entries.size = UnitPlan.total units
  offset : ∀ k, k < UnitPlan.total units → ∃ o, (Assembly.ofPlan label units).labels[label k]? =
    some o ∧ (Store.ofSections (Assembly.ofPlan label units).sections).ref (place k) = ⟨o.toUInt64⟩
  corresponds : (MemoryForest.ofPlan units).forest.Corresponds
    (Store.ofSections (Assembly.ofPlan label units).sections).forest
    (· < UnitPlan.total units) place
  harvest : ∀ policy, ((MemoryForest.ofPlan units).forest.harvest (.empty policy)).Alike
    ((Store.ofSections (Assembly.ofPlan label units).sections).forest.harvest (.empty policy))

/-- **What was assembled is read back** as the plan says it, below the limit of 32 bits. -/
theorem readsBack_ofPlan {label : Nat → String} (hlabel : Function.Injective label)
    {units : List UnitPlan} (hvalid : UnitPlan.Valid units)
    (hsize : UnitPlan.totalSize units < 0xfffffff0) :
    ReadsBack label units (UnitPlan.placeOf units) := by
  obtain ⟨table, q, hread, htable⟩ := Assembly.exists_abbreviations
  have hword : UnitPlan.totalSize units ≤ UInt32.size :=
    Nat.le_of_lt (Nat.lt_trans hsize (by decide))
  have htotal : UnitPlan.total units ≤ 2 ^ 64 := by
    have := hvalid.total_le_totalSize
    omega
  have hinfo := toList_infoBytes_ofPlan hlabel hvalid hword
  have hloads : Loads (Assembly.ofPlan label units).sections table units :=
    loads_of_toList rfl hinfo hread htable hvalid hsize
  have hoffset : ∀ k, k < UnitPlan.total units → UnitPlan.offsetOf units k < 2 ^ 64 := by
    intro k hk
    have := hvalid.offsetOf_lt hk
    omega
  have hinjective : ∀ a b, a < UnitPlan.total units → b < UnitPlan.total units →
      UnitPlan.placeOf units a = UnitPlan.placeOf units b → a = b := by
    intro a b ha hb heq
    have href := (hloads.ref_placeOf ha).symm.trans (heq ▸ hloads.ref_placeOf hb)
    have hnat := congrArg UInt64.toNat (EntryRef.mk.inj href)
    rw [UInt64.toNat_ofNat_of_lt' (hoffset a ha), UInt64.toNat_ofNat_of_lt' (hoffset b hb)] at hnat
    exact hvalid.offsetOf_inj ha hb hnat
  have hcorresponds := corresponds_of_displays (MemoryForest.displaysUnits_ofPlan htotal)
    (hloads.displaysUnits hvalid hword) hvalid hinjective
  exact
    { entries := MemoryForest.size_entries_ofPlan units
      offset := fun k hk =>
        ⟨_, getElem?_labels_ofPlan hlabel hvalid hk, hloads.ref_placeOf hk⟩
      corresponds := hcorresponds
      harvest := fun policy => hcorresponds.harvest_alike (.empty policy) }

/-- Labels of different lengths. -/
def strokes (k : Nat) : String := String.ofList (List.replicate k 'x')

/-- Labels of strokes are distinct. -/
theorem strokes_injective : Function.Injective strokes := by
  intro a b h
  have := congrArg List.length (String.ofList_injective h)
  rwa [List.length_replicate, List.length_replicate] at this

/-- Two units: a function with two parameters, of which the first is an instance of the
second, and in the other unit a parameter that is an instance of it as well. -/
def crossPlan : List UnitPlan :=
  let function : EntryPlan := ⟨(0x2, 0x2e, true, [(0x03, 0x08), (0x11, 0x01)]),
    [.text "f", .address 16], by decide, rfl⟩
  let named : EntryPlan := ⟨(0x4, 0x05, false, [(0x03, 0x08)]), [.text "x"], by decide, rfl⟩
  let within : EntryPlan := ⟨(0x5, 0x05, false, [(0x31, 0x13)]), [.unitReference 3],
    by decide, rfl⟩
  let across : EntryPlan := ⟨(0x7, 0x05, false, [(0x31, 0x10)]), [.forestReference 3],
    by decide, rfl⟩
  [⟨"a", .entry function (.entry within .nil (.entry named .nil .nil)) .nil⟩,
    ⟨"b", .entry across .nil .nil⟩]

/-- A plan of two units with references in a unit and across units is read back. -/
theorem readsBack_crossPlan :
    Function.Injective strokes ∧ UnitPlan.Valid crossPlan ∧
      UnitPlan.totalSize crossPlan < 0xfffffff0 ∧
        ReadsBack strokes crossPlan (UnitPlan.placeOf crossPlan) := by
  have hvalid : UnitPlan.Valid crossPlan := by
    intro i u hu
    rcases i with _ | _ | i
    · cases hu
      simp [UnitPlan.family, Family.Valid, EntryPlan.root, EntryPlan.hasChildren, Datum.Valid,
        UnitPlan.count, Family.count, crossPlan]
    · cases hu
      simp [UnitPlan.family, Family.Valid, EntryPlan.root, EntryPlan.hasChildren, Datum.Valid,
        UnitPlan.count, Family.count, crossPlan]
    · cases hu
  have hsize : UnitPlan.totalSize crossPlan < 0xfffffff0 := by
    simp [crossPlan, UnitPlan.size, UnitPlan.headerSize, UnitPlan.family, Family.size,
      EntryPlan.size, EntryPlan.enclosedSize, EntryPlan.root, EntryPlan.code, EntryPlan.hasChildren,
      Datum.size, unsignedBytes]
    decide
  exact ⟨strokes_injective, hvalid, hsize, readsBack_ofPlan strokes_injective hvalid hsize⟩

end Dwarf
end ParamAtlas
