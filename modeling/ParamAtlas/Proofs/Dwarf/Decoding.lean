/-
# What is read back

Where the bytes of something stand, a reader takes exactly these bytes and gives what
was written:

| reader | bytes |
| --- | --- |
| `number` | `littleBytes` |
| `unsigned` up to 64 bits, `unsigned16` up to 16 | `unsignedBytes` |
| `zeroEnded` | bytes without a zero byte, and one |
| `abbreviations` | the shapes that assembly knows (`exists_table`) |

Numbers are in the little byte order.
-/

import Mathlib.Algebra.Group.Nat.Defs
import ParamAtlas.Dwarf.Assembly
import ParamAtlas.Proofs.Bytes.Basic
import ParamAtlas.Proofs.Dwarf.Loading

namespace ParamAtlas
namespace Dwarf
@[simp] theorem length_littleBytes (n width : Nat) : (littleBytes n width).length = width := by
  induction width generalizing n with
  | zero => rfl
  | succ w ih => rw [littleBytes, List.length_cons, ih]

/-- A number takes a byte at least. -/
theorem length_unsignedBytes_pos (n : Nat) : 0 < (unsignedBytes n).length := by
  rw [unsignedBytes]
  split <;> simp

namespace Reader

variable {α β : Type} {b : Bytes} {p q : Nat}

/-- After a reader that goes well the next one reads on. -/
theorem run_bind {r : Reader α} {f : α → Reader β} {a : α} (h : r.run b p = .ok (a, q)) :
    (r >>= f).run b p = (f a).run b q := by
  simp only [bind, andThen, h]

/-- Two readers go well together exactly if each of them does, one behind the other. -/
theorem run_bind_eq_ok {r : Reader α} {f : α → Reader β} {c : β} {s : Nat} :
    (r >>= f).run b p = .ok (c, s) ↔
      ∃ a q, r.run b p = .ok (a, q) ∧ (f a).run b q = .ok (c, s) := by
  simp only [bind, andThen]
  rcases r.run b p with e | ⟨a, q⟩ <;> simp

/-! ## Numbers and texts -/

/-- Bytes written for a number are that number again. -/
theorem little_of_shows {n w : Nat} (hn : n < 256 ^ w) (h : b.Shows p (littleBytes n w)) :
    b.little p w = n := by
  induction w generalizing n p with
  | zero =>
    rw [Bytes.little]
    omega
  | succ w ih =>
    have hrest : n / 256 < 256 ^ w := by
      rw [Nat.div_lt_iff_lt_mul (by decide)]
      exact hn
    rw [Bytes.little, h.at0, ih hrest (Bytes.shows_cons.1 h).2, UInt8.toNat_ofNat']
    omega

/-- A number of fixed width is read as it was written. -/
theorem number_of_shows {n w : Nat} (hw : 0 < w) (hn : n < 256 ^ w)
    (h : b.Shows p (littleBytes n w)) : (number .little w).run b p = .ok (n, p + w) := by
  have hinside := h.le_size (List.ne_nil_of_length_pos (by rwa [length_littleBytes]))
  rw [length_littleBytes] at hinside
  simp only [number, Bytes.number, if_pos hinside, little_of_shows hn h]

/-- So is a byte. -/
theorem byte_of_shows {x : UInt8} {xs : List UInt8} (h : b.Shows p (x :: xs)) :
    byte.run b p = .ok (x.toNat, p + 1) := by
  have hinside := h.le_size (List.cons_ne_nil x xs)
  rw [List.length_cons] at hinside
  simp only [byte, number, Bytes.number, Bytes.little, h.at0, if_pos (show p + 1 ≤ b.size by omega)]
  rfl

/-- The last group of a number is its byte. -/
theorem byte_of_last {n : Nat} (hn : n < 128) (h : b.Shows p (unsignedBytes n)) :
    byte.run b p = .ok (n, p + (unsignedBytes n).length) := by
  have hbyte : n.toUInt8.toNat = n := UInt8.toNat_ofNat_of_lt' (show n < 256 by omega)
  rw [unsignedBytes, if_pos hn] at h ⊢
  rw [byte_of_shows h, hbyte]
  rfl

/-- A group before the last tells that more follow. -/
theorem byte_of_group {n : Nat} (hn : 128 ≤ n) (h : b.Shows p (unsignedBytes n)) :
    byte.run b p = .ok (n % 128 + 128, p + 1) ∧ b.Shows (p + 1) (unsignedBytes (n / 128)) ∧
      p + (unsignedBytes n).length = p + 1 + (unsignedBytes (n / 128)).length := by
  have hbyte : (n % 128 + 128).toUInt8.toNat = n % 128 + 128 :=
    UInt8.toNat_ofNat_of_lt' (show n % 128 + 128 < 256 by omega)
  have hbytes : unsignedBytes n = (n % 128 + 128).toUInt8 :: unsignedBytes (n / 128) := by
    rw [unsignedBytes, if_neg (Nat.not_lt.2 hn)]
  rw [hbytes] at h ⊢
  refine ⟨by rw [byte_of_shows h, hbyte], (Bytes.shows_cons.1 h).2, ?_⟩
  rw [List.length_cons]
  omega

/-- **A number in groups of seven bits is read back** if there may be as many groups. -/
theorem unsignedGroups_of_shows {k n : Nat} (hn : n < 2 * 128 ^ k)
    (h : b.Shows p (unsignedBytes n)) :
    (unsignedGroups (k + 1)).run b p = .ok (n, p + (unsignedBytes n).length) := by
  induction k generalizing n p with
  | zero =>
    rw [unsignedGroups, run_bind (byte_of_last (by omega) h), if_neg (by omega),
      if_pos (by omega)]
    rfl
  | succ k ih =>
    rw [unsignedGroups]
    rcases Nat.lt_or_ge n 128 with hlast | hmore
    · rw [run_bind (byte_of_last hlast h), if_neg (by omega), if_pos hlast]
      rfl
    · obtain ⟨hbyte, hrest, hlength⟩ := byte_of_group hmore h
      have hlt : n / 128 < 2 * 128 ^ k := by
        rw [Nat.div_lt_iff_lt_mul (by decide), Nat.mul_assoc]
        exact hn
      have hvalue : (n % 128 + 128) % 128 + 128 * (n / 128) = n := by omega
      rw [run_bind hbyte, if_neg (by omega), if_neg (by omega), run_bind (ih hlt hrest), hvalue,
        hlength]
      rfl

/-- **A number in groups of seven bits is read as it was written.** -/
theorem unsigned_of_shows {n : Nat} (hn : n < 2 ^ 64) (h : b.Shows p (unsignedBytes n)) :
    unsigned.run b p = .ok (n, p + (unsignedBytes n).length) :=
  unsignedGroups_of_shows hn h

/-- A number of up to 16 bits takes one to three groups. -/
theorem unsigned16_of_shows {n : Nat} (hn : n < 2 ^ 16) (h : b.Shows p (unsignedBytes n)) :
    unsigned16.run b p = .ok (n, p + (unsignedBytes n).length) := by
  rw [unsigned16]
  rcases Nat.lt_or_ge n 128 with hone | hmore
  · rw [run_bind (byte_of_last hone h), if_pos hone]
    rfl
  obtain ⟨hbyte, hrest, hlength⟩ := byte_of_group hmore h
  rw [run_bind hbyte, if_neg (by omega), hlength]
  rcases Nat.lt_or_ge (n / 128) 128 with htwo | hmore'
  · have hvalue : (n % 128 + 128) % 128 + 128 * (n / 128) = n := by omega
    rw [run_bind (byte_of_last htwo hrest), if_pos htwo, hvalue]
    rfl
  · obtain ⟨hbyte', hrest', hlength'⟩ := byte_of_group hmore' hrest
    have hvalue : (n % 128 + 128) % 128 + 128 * ((n / 128 % 128 + 128) % 128) +
        16384 * (n / 128 / 128) = n := by omega
    rw [run_bind hbyte', if_neg (by omega), run_bind (byte_of_last (by omega) hrest'),
      if_neg (by omega), hvalue, hlength']
    rfl

/-- Text without zeros is read up to the zero behind it. -/
theorem zeroEnded_of_shows {xs : List UInt8} (hxs : 0 ∉ xs) (h : b.Shows p (xs ++ [0])) :
    zeroEnded.run b p = .ok (xs.toArray, p + (xs.length + 1)) := by
  simp only [zeroEnded, h.findZero? hxs, (Bytes.shows_append.1 h).1.extract]
  rfl

/-! ## Lists -/

/-- A list ends at a reading that gives no item. -/
theorem itemsFrom_end {r : Reader (Option α)} {seen : Array α} (h : r.run b p = .ok (none, q)) :
    (itemsFrom r seen).run b p = .ok (seen.toList, q) := by
  simp only [itemsFrom, loop]
  rw [loopFrom.eq_def]
  simp [bind, andThen, h, give]

/-- An item is added behind those already seen. -/
theorem itemsFrom_item {r : Reader (Option α)} {seen : Array α} {a : α}
    (h : r.run b p = .ok (some a, q)) (hq : p < q ∧ q ≤ b.size) :
    (itemsFrom r seen).run b p = (itemsFrom r (seen.push a)).run b q := by
  simp only [itemsFrom, loop]
  rw [loopFrom.eq_def]
  simp [bind, andThen, h, give, hq]

/-! ## Values -/

section Values

variable {e : Encoding} {attributes : List AttributeShape} {values : List (AttributeCode × Value)}

/-- Values that can be read can be passed over. -/
theorem skipValues_of_values (h : (Reader.values e attributes).run b p = .ok (values, q)) :
    (skipValues e attributes).run b p = .ok ((), q) := by
  induction attributes generalizing p values with
  | nil =>
    cases h
    rfl
  | cons a rest ih =>
    obtain ⟨v, m, hv, h⟩ := run_bind_eq_ok.1 h
    obtain ⟨more, m', hmore, h⟩ := run_bind_eq_ok.1 h
    cases h
    rw [skipValues, run_bind hv, ih hmore]

/-- A value that is looked for is the first of its code among all. -/
theorem findValue_of_values (h : (Reader.values e attributes).run b p = .ok (values, q))
    (code : AttributeCode) :
    (findValue e code attributes).value? b p = some ((values.find? (·.1 == code)).map (·.2)) := by
  induction attributes generalizing p values with
  | nil =>
    cases h
    rfl
  | cons a rest ih =>
    obtain ⟨v, m, hv, h⟩ := run_bind_eq_ok.1 h
    obtain ⟨more, m', hmore, h⟩ := run_bind_eq_ok.1 h
    cases h
    rw [value?, findValue, run_bind hv, List.find?_cons]
    by_cases hcode : a.code = code
    · rw [if_pos hcode, beq_iff_eq.2 hcode]
      rfl
    · rw [if_neg hcode, beq_eq_false_iff_ne.2 hcode]
      exact ih hmore

end Values

end Reader

/-! ## Abbreviations -/

namespace Assembly

/-- The abbreviation that a shape stands for. -/
def abbreviationOf (shape : Nat × Nat × Bool × List (Nat × Nat)) : Abbreviation :=
  ⟨shape.2.1.toUInt16, shape.2.2.1, shape.2.2.2.map fun a => ⟨a.1.toUInt16, a.2, false⟩⟩

/-- The bytes of an attribute of a shape. -/
def attributeBytes (a : Nat × Nat) : List UInt8 := unsignedBytes a.1 ++ unsignedBytes a.2

/-- An attribute of a shape has a code and a form, and its value stands in the entry. -/
def AttributeFits (a : Nat × Nat) : Prop :=
  (0 < a.1 ∧ a.1 < 2 ^ 16) ∧ (0 < a.2 ∧ a.2 < 2 ^ 16) ∧ a.2 ≠ constantForm

/-- A shape has a code and a tag, and its attributes fit. -/
def Fits (shape : Nat × Nat × Bool × List (Nat × Nat)) : Prop :=
  (0 < shape.1 ∧ shape.1 < 2 ^ 64) ∧ (0 < shape.2.1 ∧ shape.2.1 < 2 ^ 16) ∧
    ∀ a ∈ shape.2.2.2, AttributeFits a

/-- The shapes of planned entries can be written. -/
theorem fits_of_mem_shapes : ∀ shape ∈ shapes, Fits shape := by
  unfold Fits AttributeFits
  decide

/-- Zero takes one byte. -/
theorem unsignedBytes_zero : unsignedBytes 0 = [0] := by
  rw [unsignedBytes]
  rfl

variable {b : Bytes} {p : Nat}

/-- The shape of an attribute is read as it was written. -/
theorem attributeShape_of_shows {a : Nat × Nat} (ha : AttributeFits a)
    (h : b.Shows p (attributeBytes a)) :
    Reader.attributeShape.run b p =
      .ok (some ⟨a.1.toUInt16, a.2, false⟩, p + (attributeBytes a).length) := by
  obtain ⟨⟨hcode, hcode'⟩, ⟨hform, hform'⟩, hconstant⟩ := ha
  obtain ⟨hfirst, hsecond⟩ := Bytes.shows_append.1 h
  rw [Reader.attributeShape, Reader.run_bind (Reader.unsigned16_of_shows hcode' hfirst),
    Reader.run_bind (Reader.unsigned16_of_shows hform' hsecond), if_neg (by omega),
    if_neg (by omega), if_neg hconstant, attributeBytes, List.length_append, Nat.add_assoc]
  rfl

/-- Two zero bytes end the attributes of a shape. -/
theorem attributeShape_end (h : b.Shows p [0, 0]) :
    Reader.attributeShape.run b p = .ok (none, p + 2) := by
  have hfirst : b.Shows p (unsignedBytes 0 ++ unsignedBytes 0) := by
    rwa [unsignedBytes_zero]
  obtain ⟨hfirst, hsecond⟩ := Bytes.shows_append.1 hfirst
  rw [Reader.attributeShape, Reader.run_bind (Reader.unsigned16_of_shows (by decide) hfirst),
    Reader.run_bind (Reader.unsigned16_of_shows (by decide) hsecond), if_pos rfl, if_pos rfl,
    unsignedBytes_zero]
  rfl

/-- So are the shapes of all attributes of an entry, up to the two zeros behind them. -/
theorem attributeShapes_of_shows {attributes : List (Nat × Nat)}
    (hattributes : ∀ a ∈ attributes, AttributeFits a)
    (h : b.Shows p (attributes.flatMap attributeBytes ++ [0, 0])) (seen : Array AttributeShape) :
    (Reader.itemsFrom Reader.attributeShape seen).run b p =
      .ok (seen.toList ++ attributes.map (fun a => ⟨a.1.toUInt16, a.2, false⟩),
        p + (attributes.flatMap attributeBytes ++ [0, 0]).length) := by
  induction attributes generalizing p seen with
  | nil =>
    rw [List.flatMap_nil, List.nil_append] at h ⊢
    rw [Reader.itemsFrom_end (attributeShape_end h), List.map_nil, List.append_nil]
    rfl
  | cons a rest ih =>
    rw [List.forall_mem_cons] at hattributes
    rw [List.flatMap_cons, List.append_assoc] at h ⊢
    obtain ⟨hfirst, hrest⟩ := Bytes.shows_append.1 h
    have hread := attributeShape_of_shows hattributes.1 hfirst
    have hmoves : p < p + (attributeBytes a).length ∧ p + (attributeBytes a).length ≤ b.size := by
      have hinside := hrest.le_size (by simp)
      have hcode := length_unsignedBytes_pos a.1
      rw [attributeBytes, List.length_append] at hinside ⊢
      omega
    rw [Reader.itemsFrom_item hread hmoves, ih hattributes.2 hrest, Array.toList_push,
      List.append_assoc, Nat.add_assoc, ← List.length_append]
    rfl

/-- **An abbreviation is read back.** -/
theorem abbreviation_of_shows {shape : Nat × Nat × Bool × List (Nat × Nat)} (hfits : Fits shape)
    (h : b.Shows p (shapeBytes shape)) :
    Reader.abbreviation.run b p =
      .ok (some (shape.1, abbreviationOf shape), p + (shapeBytes shape).length) := by
  obtain ⟨code, tag, children, attributes⟩ := shape
  obtain ⟨⟨hcode, hcode'⟩, ⟨htag, htag'⟩, hattributes⟩ := hfits
  have hbytes : shapeBytes (code, tag, children, attributes) = unsignedBytes code ++
      (unsignedBytes tag ++ ([if children then 1 else 0] ++
        (attributes.flatMap attributeBytes ++ [0, 0]))) := by
    simp only [shapeBytes, List.append_assoc]
    rfl
  rw [hbytes] at h ⊢
  obtain ⟨hfirst, h⟩ := Bytes.shows_append.1 h
  obtain ⟨hsecond, h⟩ := Bytes.shows_append.1 h
  obtain ⟨hthird, h⟩ := Bytes.shows_append.1 h
  have hchildren : (if children then 1 else 0 : UInt8).toNat = if children then 1 else 0 := by
    cases children <;> rfl
  have hitems := attributeShapes_of_shows hattributes h #[]
  change (Reader.items Reader.attributeShape).run b _ = _ at hitems
  rw [List.length_singleton] at hitems
  rw [Reader.abbreviation, Reader.run_bind (Reader.unsigned_of_shows hcode' hfirst),
    if_neg (by omega), Reader.run_bind (Reader.unsigned16_of_shows htag' hsecond),
    if_neg (by omega), Reader.run_bind (Reader.byte_of_shows hthird), hchildren,
    if_neg (by cases children <;> simp), Reader.run_bind hitems]
  simp only [List.length_append, List.length_singleton, ← Nat.add_assoc]
  cases children <;> rfl

/-! ## The table -/

/-- **A table of shapes is read back:** each code leads to the abbreviation of its
shape. -/
theorem exists_table {shapes : List (Nat × Nat × Bool × List (Nat × Nat))}
    (hfits : ∀ shape ∈ shapes, Fits shape) (hcodes : (shapes.map (·.1)).Nodup)
    {table : Abbreviations} (hfresh : ∀ shape ∈ shapes, shape.1 ∉ table)
    (h : b.Shows p (shapes.flatMap shapeBytes ++ [0])) :
    ∃ full q, (Reader.abbreviationsFrom table).run b p = .ok (full, q) ∧
      (∀ shape ∈ shapes, full[shape.1]? = some (abbreviationOf shape)) ∧
        ∀ code, code ∉ shapes.map (·.1) → full[code]? = table[code]? := by
  induction shapes generalizing p table with
  | nil =>
    have hend : Reader.abbreviation.run b p = .ok (none, p + 1) := by
      rw [List.flatMap_nil, List.nil_append, ← unsignedBytes_zero] at h
      rw [Reader.abbreviation, Reader.run_bind (Reader.unsigned_of_shows (by decide) h), if_pos rfl,
        unsignedBytes_zero]
      rfl
    exact ⟨table, p + 1, Reader.abbreviationsFrom_end hend, by simp, fun code _ => rfl⟩
  | cons shape rest ih =>
    rw [List.forall_mem_cons] at hfits hfresh
    rw [List.map_cons, List.nodup_cons] at hcodes
    rw [List.flatMap_cons, List.append_assoc] at h
    obtain ⟨hfirst, hrest⟩ := Bytes.shows_append.1 h
    have hread := abbreviation_of_shows hfits.1 hfirst
    have hmoves : p < p + (shapeBytes shape).length ∧
        p + (shapeBytes shape).length ≤ b.size := by
      have hinside := hrest.le_size (by simp)
      have : 0 < (shapeBytes shape).length := List.length_pos_iff.2 (by simp [shapeBytes])
      omega
    -- A code that is known already is refused, so the codes to come have to stay fresh.
    have hfresh' : ∀ s ∈ rest, s.1 ∉ table.insert shape.1 (abbreviationOf shape) := by
      intro s hs
      have hne : shape.1 ≠ s.1 := fun heq => hcodes.1 (heq ▸ List.mem_map_of_mem hs)
      simpa [Std.HashMap.mem_insert, hne] using hfresh.2 s hs
    obtain ⟨full, q, hfull, hknown, hother⟩ := ih hfits.2 hcodes.2 hfresh' hrest
    refine ⟨full, q, ?_, ?_, fun code hcode => ?_⟩
    · rw [Reader.abbreviationsFrom_entry hread hfresh.1 hmoves, hfull]
    · refine List.forall_mem_cons.2 ⟨?_, hknown⟩
      rw [hother _ hcodes.1, Std.HashMap.getElem?_insert_self]
    · rw [List.map_cons, List.mem_cons, not_or] at hcode
      rw [hother code hcode.2, Std.HashMap.getElem?_insert]
      simp [Ne.symm hcode.1]

/-- **The table that all assembled units share** is read back. -/
theorem exists_abbreviations :
    ∃ table q, Reader.abbreviations.run abbreviationBytes 0 = .ok (table, q) ∧
      ∀ shape ∈ shapes, table[shape.1]? = some (abbreviationOf shape) := by
  have hfresh : ∀ shape ∈ shapes, shape.1 ∉ (∅ : Abbreviations) := by simp
  obtain ⟨table, q, hread, hknown, -⟩ :=
    exists_table fits_of_mem_shapes (by decide) hfresh (Bytes.shows_of_toList rfl)
  exact ⟨table, q, hread, hknown⟩

end Assembly
end Dwarf
end ParamAtlas
