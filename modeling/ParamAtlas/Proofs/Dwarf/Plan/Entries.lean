/-
# Reading entries of a plan back

A unit knows the shapes of assembly under their codes (`EntryList.KnowsShapes`).  Where
the bytes of an entry stand in it, the entry is read with its tag, each of its
attributes has the value that was planned (`value?_of_shows`), and its values end where
the entry does (`valuesEnd?_of_shows`).  Where the bytes of a family stand, its entries
are the next ones in a row, each at the depth at which the family is nested, and behind
them the reading goes on at the same depth (`entriesFrom_of_shows`).
-/

import ParamAtlas.Proofs.Bytes.Utf8
import ParamAtlas.Proofs.Dwarf.Plan.Layout

namespace ParamAtlas
namespace Dwarf

/-- How assembled units are encoded. -/
def Assembly.encoding : Encoding := ⟨.little, .bits32, 4, 8⟩

/-- The value that is read for what was planned, in the unit that starts at `start`. -/
def Datum.stored (offsetOf : Nat → Nat) (start : Nat) : Datum → Value
  | text s => .text s.toUTF8.data
  | address a => .address a
  | present => .flag true
  | unitReference k => .unitReference (offsetOf k - start).toUInt64
  | forestReference k => .forestReference (offsetOf k).toUInt64

section Values

variable {offsetOf : Nat → Nat} {first last total start : Nat} {b : Bytes} {p : Nat}

/-- A form other than the indirect one is what it is. -/
theorem directForm_of_ne {form : Form} (h : form ≠ indirectForm) :
    (Reader.directForm form).run b p = .ok (form, p) := by
  simp only [Reader.directForm, Reader.loop]
  rw [Reader.loopFrom.eq_def]
  simp [h, Reader.give]

/-- **A value is read back.** -/
theorem value_of_shows (hplaced : Placed offsetOf first last total start) {d : Datum}
    (hd : d.Valid first last total) (h : b.Shows p (d.bytes offsetOf start))
    (code : AttributeCode) :
    (Reader.value Assembly.encoding ⟨code, d.form, false⟩).run b p =
      .ok (d.stored offsetOf start, p + d.size) := by
  have hdirect : d.form ≠ indirectForm := by cases d <;> simp [Datum.form, indirectForm]
  rw [Reader.value, Reader.run_bind (directForm_of_ne hdirect)]
  cases d with
  | text s =>
    have hread := Reader.zeroEnded_of_shows (Utf8.zero_notMem_toUTF8 hd) h
    change (Reader.zeroEnded >>= fun t => Reader.give (Value.text t)).run b p = _
    rw [Reader.run_bind hread, Array.toArray_toList, Array.length_toList]
    rfl
  | address v =>
    have hread := Reader.number_of_shows (by decide) v.toNat_lt h
    change (Reader.number .little 8 >>= fun i => Reader.give (Value.address i.toUInt64)).run b p = _
    rw [Reader.run_bind hread]
    have : v.toNat.toUInt64 = v := UInt64.ofNat_toNat
    rw [this]
    rfl
  | present => rfl
  | unitReference k =>
    have hk := hplaced.lt k (Nat.lt_of_lt_of_le hd.2 hplaced.last_le)
    have hread := Reader.number_of_shows (by decide) (Nat.lt_of_le_of_lt (Nat.sub_le _ start) hk) h
    change (Reader.number .little 4 >>= fun i =>
      Reader.give (Value.unitReference i.toUInt64)).run b p = _
    rw [Reader.run_bind hread]
    rfl
  | forestReference k =>
    have hread := Reader.number_of_shows (by decide) (hplaced.lt k hd) h
    change (Reader.number .little 4 >>= fun i =>
      Reader.give (Value.forestReference i.toUInt64)).run b p = _
    rw [Reader.run_bind hread]
    rfl

/-! ## Attributes -/

/-- The attribute of an abbreviation in which a value is written. -/
def attributeOf (a : AttributeCode × Datum) : AttributeShape := ⟨a.1, a.2.form, false⟩

variable {attributes : List (AttributeCode × Datum)}

/-- **The values of an entry are read back.** -/
theorem values_of_shows (hplaced : Placed offsetOf first last total start)
    (hvalid : ∀ a ∈ attributes, a.2.Valid first last total)
    (h : b.Shows p (attributes.flatMap fun a => a.2.bytes offsetOf start)) :
    (Reader.values Assembly.encoding (attributes.map attributeOf)).run b p =
      .ok (attributes.map fun a => (a.1, a.2.stored offsetOf start),
        p + (attributes.map fun a => a.2.size).sum) := by
  induction attributes generalizing p with
  | nil => rfl
  | cons a rest ih =>
    rw [List.forall_mem_cons] at hvalid
    rw [List.flatMap_cons, Bytes.shows_append, Datum.length_bytes] at h
    rw [List.map_cons, Reader.values, attributeOf,
      Reader.run_bind (value_of_shows hplaced hvalid.1 h.1 a.1),
      Reader.run_bind (ih hvalid.2 h.2), List.map_cons, List.map_cons, List.sum_cons,
      Nat.add_assoc]
    rfl

end Values

namespace EntryPlan

/-- The attributes of the shape of an entry are those in which its values are written. -/
theorem attributes_abbreviationOf (p : EntryPlan) :
    (Assembly.abbreviationOf p.shape).attributes = p.attributes.map attributeOf := by
  have hzip : ∀ (shapes : List (Nat × Nat)) (data : List Datum),
      data.map Datum.form = shapes.map Prod.snd →
        (shapes.map fun a => (⟨a.1.toUInt16, a.2, false⟩ : AttributeShape)) =
          ((shapes.map fun a => a.1.toUInt16).zip data).map attributeOf := by
    intro shapes
    induction shapes with
    | nil => exact fun data _ => rfl
    | cons a rest ih =>
      intro data hdata
      cases data with
      | nil => cases hdata
      | cons d data =>
        rw [List.map_cons, List.map_cons, List.cons.injEq] at hdata
        rw [List.map_cons, List.map_cons, List.zip_cons_cons, List.map_cons, ih data hdata.2,
          attributeOf, hdata.1]
  exact hzip _ _ p.fits

/-- The attributes of an entry have its data. -/
theorem map_snd_attributes (p : EntryPlan) : p.attributes.map Prod.snd = p.data := by
  have hlength := congrArg List.length p.fits
  rw [List.length_map, List.length_map] at hlength
  rw [attributes, List.map_snd_zip (Nat.le_of_eq (by rw [List.length_map, hlength]))]

end EntryPlan

/-! ## Entries -/

/-- The unit knows the shapes of assembly under their codes, and is encoded as assembled
units are. -/
structure EntryList.KnowsShapes (u : EntryList) : Prop where
  encoding : u.encoding = Assembly.encoding
  abbreviations : ∀ shape ∈ Assembly.shapes,
    u.abbreviations[shape.1]? = some (Assembly.abbreviationOf shape)

namespace EntryPlan

/-- The head of an entry that stands at an offset. -/
def headAt (p : EntryPlan) (o : Nat) : EntryHead :=
  ⟨Assembly.abbreviationOf p.shape, o + (unsignedBytes p.code).length⟩

variable {offsetOf : Nat → Nat} {first last total start o : Nat} {u : EntryList} {p : EntryPlan}

/-- The code of an entry is read, and its values stand behind it. -/
theorem code_of_shows (hu : u.KnowsShapes) (h : u.bytes.Shows o (p.bytes offsetOf start)) :
    u.code.run u.bytes o = .ok (some (p.headAt o).abbreviation, (p.headAt o).values) := by
  obtain ⟨⟨hpos, hlt⟩, -⟩ := Assembly.fits_of_mem_shapes p.shape p.known
  exact EntryList.code_of_getElem? (Reader.unsigned_of_shows hlt (Bytes.shows_append.1 h).1)
    (Nat.ne_of_gt hpos) (hu.abbreviations p.shape p.known)

/-- An entry is in its unit. -/
theorem lt_size_of_shows (h : u.bytes.Shows o (p.bytes offsetOf start)) : o < u.bytes.size := by
  have hpos := p.size_pos
  rw [← length_bytes offsetOf start] at hpos
  have := h.le_size (List.ne_nil_of_length_pos hpos)
  omega

/-- **An entry that is written is found.** -/
theorem headAt?_of_shows (hu : u.KnowsShapes) (ho : u.headerSize ≤ o)
    (h : u.bytes.Shows o (p.bytes offsetOf start)) : u.headAt? o = some (p.headAt o) :=
  EntryList.headAt?_eq_some_iff.2 ⟨ho, lt_size_of_shows h, code_of_shows hu h⟩

section Valid

variable (hu : u.KnowsShapes) (hplaced : Placed offsetOf first last total start)
  (hvalid : ∀ d ∈ p.data, d.Valid first last total)
  (h : u.bytes.Shows o (p.bytes offsetOf start))

include hu hplaced hvalid h

/-- The values of an entry are read as they were written. -/
theorem values_headAt_of_shows :
    (Reader.values u.encoding (p.headAt o).abbreviation.attributes).run u.bytes
      (p.headAt o).values =
        .ok (p.attributes.map fun a => (a.1, a.2.stored offsetOf start), o + p.size) := by
  have hbytes : p.data.flatMap (Datum.bytes offsetOf start) =
      p.attributes.flatMap fun a => a.2.bytes offsetOf start := by
    rw [← map_snd_attributes, List.flatMap_map]
  have hsizes : p.data.map Datum.size = p.attributes.map fun a => a.2.size := by
    rw [← map_snd_attributes, List.map_map]
    rfl
  have hvalues := (Bytes.shows_append.1 h).2
  rw [hbytes] at hvalues
  rw [hu.encoding, headAt, attributes_abbreviationOf, values_of_shows hplaced ?_ hvalues, size,
    hsizes, Nat.add_assoc]
  rw [← List.forall_mem_map (f := Prod.snd), map_snd_attributes]
  exact hvalid

/-- An entry ends where it is planned to end. -/
theorem valuesEnd?_of_shows : u.valuesEnd? (p.headAt o) = .ok (o + p.size) := by
  simp only [EntryList.valuesEnd?,
    Reader.skipValues_of_values (values_headAt_of_shows hu hplaced hvalid h)]

/-- **The value of an attribute is the one planned.** -/
theorem value?_of_shows (ho : u.headerSize ≤ o) (code : AttributeCode) :
    u.value? o code = (p.datum? code).map (Datum.stored offsetOf start) := by
  have hfound := Reader.findValue_of_values (values_headAt_of_shows hu hplaced hvalid h) code
  rw [List.find?_map, Option.map_map] at hfound
  rw [EntryList.value?, headAt?_of_shows hu ho h, datum?, Option.map_map]
  change ((Reader.findValue u.encoding code (p.headAt o).abbreviation.attributes).value? u.bytes
    (p.headAt o).values).bind id = _
  rw [hfound]
  rfl

end Valid

end EntryPlan

/-! ## Families -/

/-- The end of children is read as no code. -/
theorem EntryList.code_end {u : EntryList} {o : Nat} (h : u.bytes.Shows o [0]) :
    u.code.run u.bytes o = .ok (none, o + 1) := by
  rw [← Assembly.unsignedBytes_zero] at h
  rw [code, Reader.run_bind (Reader.unsigned_of_shows (by decide) h), if_pos rfl,
    Assembly.unsignedBytes_zero]
  rfl

namespace Family

/-- Depth and offset of the entries of a family in a row, if its first entry stands at an
offset and at a depth. -/
def row : (d o : Nat) → Family → List (Nat × Nat)
  | _, _, nil => []
  | d, o, entry p below later =>
    (d, o) :: (below.row (d + 1) (o + p.size) ++
      later.row d (o + p.size + p.enclosedSize below.size))

variable {offsetOf : Nat → Nat} {first last total start : Nat} {u : EntryList}

/-- **The entries of a family are the next ones in a row.** -/
theorem entriesFrom_of_shows (hu : u.KnowsShapes) (hplaced : Placed offsetOf first last total start)
    {f : Family} (hvalid : f.Valid first last total) {d o : Nat}
    (h : u.bytes.Shows o (f.bytes offsetOf start)) :
    u.entriesFrom d o = f.row d o ++ u.entriesFrom d (o + f.size) := by
  induction f generalizing d o with
  | nil => rfl
  | entry p below later ihbelow ihlater =>
    obtain ⟨hdata, hleaf, hbelow, hlater⟩ := hvalid
    rw [bytes, Bytes.shows_append, Bytes.shows_append, List.length_append, EntryPlan.length_bytes,
      EntryPlan.length_enclose, length_bytes, ← Nat.add_assoc] at h
    obtain ⟨⟨hentry, hinner⟩, hrest⟩ := h
    have hcode := EntryPlan.code_of_shows hu hentry
    have hend := EntryPlan.valuesEnd?_of_shows hu hplaced hdata hentry
    -- What is read behind the values comes back to depth `d` where the children end.
    have hchildren : u.entriesFrom (if p.hasChildren then (d : Int) + 1 else d) (o + p.size) =
        below.row (d + 1) (o + p.size) ++
          u.entriesFrom d (o + p.size + p.enclosedSize below.size) := by
      unfold EntryPlan.enclose at hinner
      unfold EntryPlan.enclosedSize
      cases hroom : p.hasChildren with
      | false =>
        rw [hleaf hroom]
        rfl
      | true =>
        rw [if_pos hroom, Bytes.shows_append, length_bytes] at hinner
        have hstop := EntryList.code_end hinner.2
        have hlt := hinner.2.le_size (List.cons_ne_nil 0 [])
        rw [List.length_singleton] at hlt
        simp only [if_true]
        rw [show (d : Int) + 1 = ((d + 1 : Nat) : Int) from rfl, ihbelow hbelow hinner.1,
          EntryList.entriesFrom_null hlt hstop, Int.natCast_add, Int.natCast_one,
          Int.add_sub_cancel, ← Nat.add_assoc]
    have hafter : u.entriesAfter d (p.headAt o) =
        u.entriesFrom (if p.hasChildren then (d : Int) + 1 else d) (o + p.size) := by
      simp only [EntryList.entriesAfter, hend]
      rfl
    rw [EntryList.entriesFrom_entry (EntryPlan.lt_size_of_shows hentry) hcode]
    change _ :: u.entriesAfter d (p.headAt o) = _
    rw [hafter, hchildren, ihlater hlater hrest, row, size]
    simp only [List.cons_append, List.append_assoc, Nat.add_assoc]

end Family

end Dwarf
end ParamAtlas
