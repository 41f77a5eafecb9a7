/-
# Assembling a plan

A plan is assembled piece by piece, each entry with a label for its number
(`Assembly.ofPlan`).  While pieces are written, lengths and references are still
missing.  What has been written is kept track of as chunks, some of which are holes
that wait for the offset of a label (`Written`):

| piece | chunks |
| --- | --- |
| begin a unit, entry, text, address, end of children | bytes behind the others |
| reference | a hole behind the others |
| end a unit | the length goes into an earlier chunk |

In the end every hole is filled (`Written.toList_infoBytes`).  So the bytes assembled
are those of the layout, with every reference leading to the place of its entry
(`toList_infoBytes_ofPlan`).
-/

import ParamAtlas.Proofs.Dwarf.Plan.Layout

namespace ParamAtlas
namespace Dwarf

/-! ## Pieces -/

/-- The pieces of a value. -/
def Datum.pieces (label : Nat → String) : Datum → List Piece
  | text s => [.text s]
  | address a => [.address a]
  | present => []
  | unitReference k => [.unitReference (label k)]
  | forestReference k => [.forestReference (label k)]

/-- The pieces of an entry with a number. -/
def EntryPlan.pieces (label : Nat → String) (k : Nat) (p : EntryPlan) : List Piece :=
  .entry p.code (label k) :: p.data.flatMap (Datum.pieces label)

/-- The pieces of a family whose first entry has a number. -/
def Family.pieces (label : Nat → String) : (k : Nat) → Family → List Piece
  | _, nil => []
  | k, entry p below later =>
    p.pieces label k ++ p.enclose (below.pieces label (k + 1)) [.endChildren] ++
      later.pieces label (k + 1 + below.count)

/-- The pieces of a unit whose root has a number. -/
def UnitPlan.pieces (label : Nat → String) (k : Nat) (u : UnitPlan) : List Piece :=
  .beginUnit :: u.family.pieces label k ++ [.endUnit]

/-- The pieces of units, the first of which has a root with a number. -/
def UnitPlan.piecesFrom (label : Nat → String) : (k : Nat) → List UnitPlan → List Piece
  | _, [] => []
  | k, u :: rest => u.pieces label k ++ piecesFrom label (k + u.count) rest

/-- The assembly of units. -/
def Assembly.ofPlan (label : Nat → String) (units : List UnitPlan) : Assembly :=
  .ofPieces (UnitPlan.piecesFrom label 0 units)

/-! ## Chunks -/

/-- What has been written: bytes, or four bytes that wait for the offset of a label
counted from `base`. -/
inductive Chunk where
  | bytes (bs : List UInt8)
  | hole (label : String) (base : Nat)

namespace Chunk

/-- The bytes of a chunk while it waits. -/
def blank : Chunk → List UInt8
  | bytes bs => bs
  | hole _ _ => [0, 0, 0, 0]

/-- The bytes of a chunk once all labels are known. -/
def filled (a : Assembly) : Chunk → List UInt8
  | bytes bs => bs
  | hole label base =>
    littleBytes ((((a.labels.getD label 0 : Nat) : Int) - base) % UInt32.size).toNat 4

/-- The holes among chunks, with their positions. -/
def patchesFrom : (position : Nat) → List Chunk → List Patch
  | _, [] => []
  | position, bytes bs :: rest => patchesFrom (position + bs.length) rest
  | position, hole label base :: rest => ⟨position, label, base⟩ :: patchesFrom (position + 4) rest

/-- The patches of pieces one behind another: those of the later ones are behind the bytes
of the earlier. -/
theorem patchesFrom_append (position : Nat) (cs ds : List Chunk) :
    patchesFrom position (cs ++ ds) =
      patchesFrom position cs ++ patchesFrom (position + (cs.flatMap blank).length) ds := by
  induction cs generalizing position with
  | nil => simp [patchesFrom]
  | cons c cs ih =>
    have hlength : ((c :: cs).flatMap blank).length =
        c.blank.length + (cs.flatMap blank).length := by
      rw [List.flatMap_cons, List.length_append]
    rw [hlength, ← Nat.add_assoc, List.cons_append]
    cases c with
    | bytes bs => exact ih _
    | hole label base => exact congrArg (_ :: ·) (ih _)

end Chunk

open Chunk

/-- What an assembly has written so far. -/
structure Written (a : Assembly) (cs : List Chunk) : Prop where
  bytes : a.written.toList = cs.flatMap blank
  patches : a.patches.toList = patchesFrom 0 cs

/-- Overwriting changes the bytes at its place and no others. -/
theorem Assembly.toList_overwrite {b : Bytes} {before old after new : List UInt8}
    (h : b.toList = before ++ old ++ after) (hlen : old.length = new.length) :
    (overwrite b before.length new).toList = before ++ new ++ after := by
  induction new generalizing b before old with
  | nil =>
    rw [List.length_nil, List.length_eq_zero_iff] at hlen
    rw [overwrite, h, hlen]
  | cons v rest ih =>
    obtain ⟨w, old, rfl⟩ : ∃ w tail, old = w :: tail := by
      cases old with
      | nil => simp at hlen
      | cons w tail => exact ⟨w, tail, rfl⟩
    have hset : (b.setIfInBounds before.length v).toList = (before ++ [v]) ++ old ++ after := by
      rw [Array.toList_setIfInBounds, h]
      simp
    have := ih hset (by simpa using hlen)
    rw [List.length_append, List.length_singleton] at this
    rw [overwrite, this]
    simp

/-- Filling the holes of chunks, one after another, fills the chunks. -/
theorem Assembly.toList_foldl_patch (a : Assembly) {b : Bytes} {before : List UInt8}
    {cs : List Chunk} (h : b.toList = before ++ cs.flatMap blank) :
    ((patchesFrom before.length cs).foldl a.patch b).toList =
      before ++ cs.flatMap (filled a) := by
  induction cs generalizing b before with
  | nil => simpa [patchesFrom] using h
  | cons c rest ih =>
    cases c with
    | bytes bs =>
      have hskip : b.toList = (before ++ bs) ++ rest.flatMap blank := by simpa [blank] using h
      have := ih hskip
      rw [List.length_append] at this
      rw [patchesFrom, this]
      simp [filled]
    | hole label base =>
      have hblank : b.toList = before ++ [0, 0, 0, 0] ++ rest.flatMap blank := by
        simpa [blank] using h
      have hpatch : (a.patch b ⟨before.length, label, base⟩).toList =
          (before ++ filled a (.hole label base)) ++ rest.flatMap blank :=
        toList_overwrite hblank (length_littleBytes _ 4).symm
      have := ih hpatch
      rw [List.length_append, filled, length_littleBytes] at this
      rw [patchesFrom, List.foldl_cons, this, ← filled]
      simp

/-- **In the end all holes are filled.** -/
theorem Written.toList_infoBytes {a : Assembly} {cs : List Chunk} (h : Written a cs) :
    a.infoBytes.toList = cs.flatMap (filled a) := by
  have hwritten : a.written.toList = [] ++ cs.flatMap blank := h.bytes
  have := a.toList_foldl_patch hwritten
  rw [Assembly.infoBytes, ← Array.foldl_toList, h.patches]
  exact this

/-! ## Writing pieces -/

namespace Written

variable {a : Assembly} {cs : List Chunk}

/-- What is written is as long as its pieces are. -/
theorem size_eq (h : Written a cs) : a.written.size = (cs.flatMap blank).length := by
  rw [← Array.length_toList, h.bytes]

/-- More pieces take as many bytes as they are long. -/
theorem size_add (h : Written a cs) {b : Assembly} {ds : List Chunk} (h' : Written b (cs ++ ds)) :
    b.written.size = a.written.size + (ds.flatMap blank).length := by
  rw [h'.size_eq, List.flatMap_append, List.length_append, ← h.size_eq]

/-- Bytes that are appended are one more piece. -/
theorem append (h : Written a cs) (bs : List UInt8) :
    Written (a.append bs) (cs ++ [.bytes bs]) where
  bytes := by
    rw [Assembly.append, List.flatMap_append, ← h.bytes]
    simp [blank]
  patches := by
    rw [patchesFrom_append, ← h.patches, patchesFrom, patchesFrom, List.append_nil]
    rfl

/-- A reference that is appended is a hole, with a patch for it. -/
theorem reference (h : Written a cs) (label : String) (base : Nat) :
    Written (a.reference label base) (cs ++ [.hole label base]) where
  bytes := by
    rw [Assembly.reference, Assembly.append, List.flatMap_append, ← h.bytes]
    simp [blank]
  patches := by
    rw [patchesFrom_append, ← h.patches, Nat.zero_add, ← h.size_eq, patchesFrom, patchesFrom]
    exact Array.toList_push ..

/-- Bytes of an earlier chunk may still be overwritten. -/
theorem overwrite {before after : List Chunk} {old new : List UInt8}
    (h : Written a (before ++ .bytes old :: after)) (hlen : old.length = new.length) :
    Written { a with written := Assembly.overwrite a.written (before.flatMap blank).length new }
      (before ++ .bytes new :: after) where
  bytes := by
    have hbytes := h.bytes
    rw [List.flatMap_append, List.flatMap_cons, ← List.append_assoc] at hbytes
    rw [Assembly.toList_overwrite hbytes hlen]
    simp [blank]
  patches := by
    rw [h.patches, patchesFrom_append, patchesFrom_append, patchesFrom, patchesFrom, hlen]

end Written

/-- The chunks of a value in the unit that starts at `start`. -/
def Datum.chunks (label : Nat → String) (start : Nat) : Datum → List Chunk
  | text s => [.bytes (s.toUTF8.data.toList ++ [0])]
  | address a => [.bytes (littleBytes a.toNat 8)]
  | present => []
  | unitReference k => [.hole (label k) start]
  | forestReference k => [.hole (label k) 0]

/-- The chunks of an entry. -/
def EntryPlan.chunks (label : Nat → String) (start : Nat) (p : EntryPlan) : List Chunk :=
  .bytes (unsignedBytes p.code) :: p.data.flatMap (Datum.chunks label start)

/-- The chunks of a family. -/
def Family.chunks (label : Nat → String) (start : Nat) : Family → List Chunk
  | nil => []
  | entry p below later =>
    p.chunks label start ++ p.enclose (below.chunks label start) [.bytes [0]] ++
      later.chunks label start

/-- The chunks of a unit that starts at `start`. -/
def UnitPlan.chunks (label : Nat → String) (start : Nat) (u : UnitPlan) : List Chunk :=
  .bytes (littleBytes (u.size - 4) 4) :: .bytes (littleBytes 4 2 ++ littleBytes 0 4 ++ [8]) ::
    u.family.chunks label start

/-- The chunks of units, the first of which starts at `start`. -/
def UnitPlan.chunksFrom (label : Nat → String) : (start : Nat) → List UnitPlan → List Chunk
  | _, [] => []
  | start, u :: rest => u.chunks label start ++ chunksFrom label (start + u.size) rest

/-- A datum is as long in pieces as it is planned to be. -/
theorem Datum.length_blank_chunks (label : Nat → String) (start : Nat) (d : Datum) :
    ((d.chunks label start).flatMap blank).length = d.size := by
  cases d <;> simp [chunks, blank, size]

/-- So is an entry. -/
theorem EntryPlan.length_blank_chunks (label : Nat → String) (start : Nat) (p : EntryPlan) :
    ((p.chunks label start).flatMap blank).length = p.size := by
  have hdata : ∀ data : List Datum,
      ((data.flatMap (Datum.chunks label start)).flatMap blank).length =
        (data.map Datum.size).sum := by
    intro data
    induction data with
    | nil => rfl
    | cons d rest ih =>
      rw [List.flatMap_cons, List.flatMap_append, List.length_append, ih,
        Datum.length_blank_chunks, List.map_cons, List.sum_cons]
  rw [chunks, List.flatMap_cons, List.length_append, hdata, size]
  rfl

/-- What is done piece by piece is done to the children and to their end. -/
theorem EntryPlan.flatMap_enclose {α β : Type} (p : EntryPlan) (children stop : List α)
    (g : α → List β) :
    (p.enclose children stop).flatMap g = p.enclose (children.flatMap g) (stop.flatMap g) := by
  unfold enclose
  split
  · exact List.flatMap_append
  · rfl

/-- A family is as long in pieces as it is planned to be. -/
theorem Family.length_blank_chunks (label : Nat → String) (start : Nat) (f : Family) :
    ((f.chunks label start).flatMap blank).length = f.size := by
  induction f with
  | nil => rfl
  | entry p below later ihbelow ihlater =>
    have hstop : ([.bytes [0]] : List Chunk).flatMap blank = [0] := rfl
    rw [chunks, List.flatMap_append, List.flatMap_append, EntryPlan.flatMap_enclose,
      List.length_append, List.length_append, EntryPlan.length_blank_chunks, hstop,
      EntryPlan.length_enclose, ihbelow, ihlater, size]

/-- So is a unit. -/
theorem UnitPlan.length_blank_chunks (label : Nat → String) (start : Nat) (u : UnitPlan) :
    ((u.chunks label start).flatMap blank).length = u.size := by
  rw [chunks, List.flatMap_cons, List.flatMap_cons, List.length_append, List.length_append,
    Family.length_blank_chunks, size, headerSize]
  simp only [blank, List.length_append, length_littleBytes, List.length_singleton]
  omega

/-- What stands after pieces of a unit that starts at `start` have been written: the
chunks, and the offset of the label of each number up to now. -/
structure Progress (label : Nat → String) (start : Nat) (a : Assembly) (cs : List Chunk)
    (offsets : List Nat) : Prop where
  written : Written a cs
  labels : ∀ j, a.labels[label j]? = offsets[j]?
  start : a.currentStart = start

section Pieces

variable {label : Nat → String} {start : Nat} {a : Assembly} {cs : List Chunk} {offsets : List Nat}

/-- Writing a datum adds its pieces and marks no entry. -/
theorem Progress.datum (h : Progress label start a cs offsets) (d : Datum) :
    Progress label start ((d.pieces label).foldl Assembly.write a) (cs ++ d.chunks label start)
      offsets := by
  cases d with
  | text s => exact ⟨h.written.append _, h.labels, h.start⟩
  | address v => exact ⟨h.written.append _, h.labels, h.start⟩
  | present =>
    rw [Datum.chunks, List.append_nil]
    exact h
  | unitReference k => exact ⟨h.start ▸ h.written.reference _ _, h.labels, h.start⟩
  | forestReference k => exact ⟨h.written.reference _ _, h.labels, h.start⟩

/-- Neither does writing several. -/
theorem Progress.data (h : Progress label start a cs offsets) (data : List Datum) :
    Progress label start ((data.flatMap (Datum.pieces label)).foldl Assembly.write a)
      (cs ++ data.flatMap (Datum.chunks label start)) offsets := by
  induction data generalizing a cs with
  | nil => simpa using h
  | cons d rest ih =>
    rw [List.flatMap_cons, List.foldl_append, List.flatMap_cons, ← List.append_assoc]
    exact ih (h.datum d)

/-- An entry makes its label known. -/
theorem Progress.entry (h : Progress label start a cs offsets)
    (hlabel : Function.Injective label) (p : EntryPlan) :
    Progress label start ((p.pieces label offsets.length).foldl Assembly.write a)
      (cs ++ p.chunks label start) (offsets ++ [a.written.size]) := by
  have hcode : Progress label start (a.write (.entry p.code (label offsets.length)))
      (cs ++ [.bytes (unsignedBytes p.code)]) (offsets ++ [a.written.size]) := by
    refine ⟨⟨(h.written.append _).bytes, (h.written.append _).patches⟩, fun j => ?_, h.start⟩
    change (a.labels.insert (label offsets.length) a.written.size)[label j]? = _
    rw [Std.HashMap.getElem?_insert, h.labels, List.getElem?_append]
    by_cases hj : offsets.length = j
    · subst hj
      simp
    · rw [if_neg (by simpa using hlabel.ne hj)]
      split
      · rfl
      · rename_i hlt
        rw [List.getElem?_eq_none (by omega), List.getElem?_eq_none (by simp; omega)]
  have := hcode.data p.data
  rwa [List.append_assoc, List.singleton_append] at this

/-- The end of the children of an entry is written, if it has room for any. -/
theorem Progress.enclose {p : EntryPlan} {below : Family}
    (h : Progress label start a cs offsets) (hleaf : p.hasChildren = false → below = .nil) {k : Nat}
    (hbelow : Progress label start ((below.pieces label k).foldl Assembly.write a)
      (cs ++ below.chunks label start) (offsets ++ below.offsets a.written.size)) :
    Progress label start
      ((p.enclose (below.pieces label k) [.endChildren]).foldl Assembly.write a)
      (cs ++ p.enclose (below.chunks label start) [.bytes [0]])
      (offsets ++ below.offsets a.written.size) := by
  unfold EntryPlan.enclose
  cases hchildren : p.hasChildren with
  | false =>
    rw [hleaf hchildren]
    simpa [Family.offsets] using h
  | true =>
    simp only [if_true, List.foldl_append, ← List.append_assoc]
    exact ⟨hbelow.written.append [0], hbelow.labels, hbelow.start⟩

/-- **A family is written as its chunks**, and its labels become known. -/
theorem Progress.family (h : Progress label start a cs offsets)
    (hlabel : Function.Injective label) {f : Family} {first last total : Nat}
    (hvalid : f.Valid first last total) :
    Progress label start ((f.pieces label offsets.length).foldl Assembly.write a)
      (cs ++ f.chunks label start) (offsets ++ f.offsets a.written.size) := by
  induction f generalizing a cs offsets with
  | nil => simpa [Family.pieces, Family.chunks, Family.offsets] using h
  | entry p below later ihbelow ihlater =>
    obtain ⟨-, hleaf, hbelow, hlater⟩ := hvalid
    have hentry := h.entry hlabel p
    have hentrySize := h.written.size_add hentry.written
    rw [EntryPlan.length_blank_chunks] at hentrySize
    have hinner := ihbelow hentry hbelow
    have henclosed := hentry.enclose hleaf hinner
    have henclosedSize := hentry.written.size_add henclosed.written
    have hstop : ([.bytes [0]] : List Chunk).flatMap blank = [0] := rfl
    rw [EntryPlan.flatMap_enclose, hstop, EntryPlan.length_enclose, Family.length_blank_chunks,
      hentrySize] at henclosedSize
    have hrest := ihlater henclosed hlater
    rw [henclosedSize, hentrySize] at hrest
    simp only [List.length_append, List.length_singleton, Family.length_offsets] at hrest
    simpa only [Family.pieces, Family.chunks, Family.offsets, List.foldl_append, List.append_assoc,
      List.cons_append, List.nil_append] using hrest

/-- The start of a unit leaves room for its length. -/
theorem Progress.beginUnit (h : Progress label start a cs offsets) :
    Progress label a.written.size (a.write .beginUnit)
      (cs ++ [.bytes (littleBytes 0 4)] ++ [.bytes (littleBytes 4 2 ++ littleBytes 0 4 ++ [8])])
      offsets := by
  have hwritten := (h.written.append (littleBytes 0 4)).append
    (littleBytes 4 2 ++ littleBytes 0 4 ++ [8])
  have hsame : (a.write .beginUnit).written = ((a.append (littleBytes 0 4)).append
      (littleBytes 4 2 ++ littleBytes 0 4 ++ [8])).written := by
    rw [← Array.toList_inj]
    simp [Assembly.write, Assembly.append]
  refine ⟨⟨?_, hwritten.patches⟩, h.labels, ?_⟩
  · rw [hsame, hwritten.bytes]
  · simp [Assembly.write, Assembly.append, Assembly.currentStart]

/-- **A unit is written as its chunks**, its length in the first of them. -/
theorem Progress.unit (h : Progress label start a cs offsets) (hlabel : Function.Injective label)
    {u : UnitPlan} {first last total : Nat} (hvalid : u.family.Valid first last total) :
    Progress label a.written.size
      ((u.pieces label offsets.length).foldl Assembly.write a)
      (cs ++ u.chunks label a.written.size)
      (offsets ++ u.family.offsets (a.written.size + UnitPlan.headerSize)) := by
  have hbegin := h.beginUnit
  have hbeginSize : (a.write .beginUnit).written.size = a.written.size + UnitPlan.headerSize := by
    rw [hbegin.written.size_eq, h.written.size_eq]
    simp [blank, UnitPlan.headerSize]
  have hfamily := hbegin.family hlabel hvalid
  have hsize := hbegin.written.size_add hfamily.written
  rw [Family.length_blank_chunks, hbeginSize] at hsize
  rw [hbeginSize] at hfamily
  rw [UnitPlan.pieces, List.cons_append, List.foldl_cons, List.foldl_append]
  -- Only the size and the start of what stands before the end of the unit matter for
  -- the length that is now put in.
  generalize (u.family.pieces label offsets.length).foldl Assembly.write (a.write .beginUnit) = b
    at hfamily hsize ⊢
  have hlength : b.written.size - b.currentStart - 4 = u.size - 4 := by
    rw [hsize, hfamily.start, UnitPlan.size]
    omega
  have hwritten : Written b (cs ++ .bytes (littleBytes 0 4) ::
      (.bytes (littleBytes 4 2 ++ littleBytes 0 4 ++ [8]) ::
        u.family.chunks label a.written.size)) := by
    simpa only [List.append_assoc, List.cons_append, List.nil_append] using hfamily.written
  have hlen : (littleBytes 0 4).length = (littleBytes (u.size - 4) 4).length :=
    (length_littleBytes 0 4).trans (length_littleBytes _ 4).symm
  have hend : b.write .endUnit = { b with
      written := Assembly.overwrite b.written b.currentStart
        (littleBytes (b.written.size - b.currentStart - 4) 4) } := rfl
  rw [List.foldl_cons, List.foldl_nil, hend, hlength]
  have hfilled := hwritten.overwrite hlen
  rw [← hfamily.start.trans h.written.size_eq] at hfilled
  exact ⟨hfilled, hfamily.labels, hfamily.start⟩

/-- **Units are written as their chunks**, one behind another. -/
theorem Progress.units (h : Progress label start a cs offsets) (hlabel : Function.Injective label)
    {units : List UnitPlan}
    (hvalid : ∀ u ∈ units, ∃ first last total, u.family.Valid first last total) :
    ∃ start', Progress label start'
      ((UnitPlan.piecesFrom label offsets.length units).foldl Assembly.write a)
      (cs ++ UnitPlan.chunksFrom label a.written.size units)
      (offsets ++ UnitPlan.offsetsFrom a.written.size units) := by
  induction units generalizing start a cs offsets with
  | nil => exact ⟨start, by simpa [UnitPlan.piecesFrom, UnitPlan.chunksFrom, UnitPlan.offsetsFrom]⟩
  | cons u rest ih =>
    rw [List.forall_mem_cons] at hvalid
    obtain ⟨first, last, total, hu⟩ := hvalid.1
    have hunit := h.unit hlabel hu
    have hsize := h.written.size_add hunit.written
    rw [UnitPlan.length_blank_chunks] at hsize
    obtain ⟨start', hrest⟩ := ih hunit hvalid.2
    rw [hsize, List.length_append, Family.length_offsets, ← UnitPlan.count] at hrest
    refine ⟨start', ?_⟩
    simpa only [UnitPlan.piecesFrom, UnitPlan.chunksFrom, UnitPlan.offsetsFrom, List.foldl_append,
      List.append_assoc] using hrest

end Pieces

/-! ## The bytes in the end -/

section Filled

variable {a : Assembly} {label : Nat → String} {offsetOf : Nat → Nat} {first last total start : Nat}

/-- A hole for a label that is known is filled with the distance to its offset. -/
theorem Chunk.filled_hole {name : String} {base o : Nat} (hname : a.labels[name]? = some o)
    (hbase : base ≤ o) (ho : o < UInt32.size) :
    filled a (.hole name base) = littleBytes (o - base) 4 := by
  have hdistance : (((o : Int) - base) % UInt32.size).toNat = o - base := by
    rw [Int.emod_eq_of_lt (by omega) (by omega)]
    omega
  rw [filled, Std.HashMap.getD_eq_getD_getElem?, hname, Option.getD_some, hdistance]

variable (hlabel : ∀ k, k < total → a.labels[label k]? = some (offsetOf k))

include hlabel

/-- With its holes filled in, a datum is the bytes planned for it. -/
theorem Datum.filled_chunks (h : Placed offsetOf first last total start) {d : Datum}
    (hd : d.Valid first last total) :
    (d.chunks label start).flatMap (filled a) = d.bytes offsetOf start := by
  cases d with
  | unitReference k =>
    have hk : k < total := Nat.lt_of_lt_of_le hd.2 h.last_le
    rw [chunks, List.flatMap_singleton, filled_hole (hlabel k hk) (h.le k hd.1 hd.2) (h.lt k hk),
      bytes]
  | forestReference k =>
    rw [chunks, List.flatMap_singleton, filled_hole (hlabel k hd) (Nat.zero_le _) (h.lt k hd),
      bytes, Nat.sub_zero]
  | _ => simp [chunks, filled, bytes]

/-- So is an entry. -/
theorem EntryPlan.filled_chunks (h : Placed offsetOf first last total start)
    {p : EntryPlan} (hp : ∀ d ∈ p.data, d.Valid first last total) :
    (p.chunks label start).flatMap (filled a) = p.bytes offsetOf start := by
  rw [chunks, List.flatMap_cons, List.flatMap_assoc, bytes]
  exact congrArg _ (List.flatMap_congr fun d hd => Datum.filled_chunks hlabel h (hp d hd))

/-- **So is a family,** whose references may lead to any entry of the plan. -/
theorem Family.filled_chunks (h : Placed offsetOf first last total start) {f : Family}
    (hf : f.Valid first last total) :
    (f.chunks label start).flatMap (filled a) = f.bytes offsetOf start := by
  induction f with
  | nil => rfl
  | entry p below later ihbelow ihlater =>
    obtain ⟨hdata, -, hbelow, hlater⟩ := hf
    have hstop : ([.bytes [0]] : List Chunk).flatMap (filled a) = [0] := rfl
    rw [chunks, List.flatMap_append, List.flatMap_append, EntryPlan.flatMap_enclose,
      EntryPlan.filled_chunks hlabel h hdata, ihbelow hbelow, ihlater hlater, hstop, bytes]

/-- With its holes filled in, a unit is the bytes planned for it. -/
theorem UnitPlan.filled_chunks (h : Placed offsetOf first last total start)
    {u : UnitPlan} (hu : u.family.Valid first last total) :
    (u.chunks label start).flatMap (filled a) = u.bytes offsetOf start := by
  rw [chunks, List.flatMap_cons, List.flatMap_cons, Family.filled_chunks hlabel h hu, bytes,
    List.append_assoc]
  rfl

/-- So are units one behind another, each with the entries that it may refer to. -/
theorem UnitPlan.filled_chunksFrom {units : List UnitPlan}
    (h : ∀ i u, units[i]? = some u → ∃ first last,
      Placed offsetOf first last total (start + startOf units i) ∧
        u.family.Valid first last total) :
    (chunksFrom label start units).flatMap (filled a) = bytesFrom offsetOf start units := by
  induction units generalizing start with
  | nil => rfl
  | cons u rest ih =>
    obtain ⟨first, last, hplaced, hvalid⟩ := h 0 u rfl
    rw [startOf_zero, Nat.add_zero] at hplaced
    rw [chunksFrom, List.flatMap_append, bytesFrom, filled_chunks hlabel hplaced hvalid]
    refine congrArg _ (ih fun i v hv => ?_)
    rw [Nat.add_assoc, ← startOf_cons_succ]
    exact h (i + 1) v hv

end Filled

section Assembled

variable {label : Nat → String} {units : List UnitPlan}

/-- **Assembling a plan writes its pieces,** and marks each entry where it is planned to be.
-/
theorem progress_ofPlan (hlabel : Function.Injective label) (hvalid : UnitPlan.Valid units) :
    ∃ start, Progress label start (Assembly.ofPlan label units)
      (UnitPlan.chunksFrom label 0 units) (UnitPlan.offsetsFrom 0 units) := by
  have hempty : Progress label 0 .empty [] [] :=
    ⟨⟨rfl, rfl⟩, fun j => Std.HashMap.getElem?_empty, rfl⟩
  exact hempty.units hlabel hvalid.exists_family

/-- **Each label is known in the end**, and leads to the place of its entry. -/
theorem getElem?_labels_ofPlan (hlabel : Function.Injective label) (hvalid : UnitPlan.Valid units)
    {k : Nat} (hk : k < UnitPlan.total units) :
    (Assembly.ofPlan label units).labels[label k]? = some (UnitPlan.offsetOf units k) := by
  obtain ⟨start, h⟩ := progress_ofPlan hlabel hvalid
  rw [← UnitPlan.length_offsetsFrom 0] at hk
  rw [h.labels, UnitPlan.offsetOf, List.getD_eq_getElem?_getD, List.getElem?_eq_getElem hk,
    Option.getD_some]

/-- **The bytes assembled are those of the layout.** -/
theorem toList_infoBytes_ofPlan (hlabel : Function.Injective label)
    (hvalid : UnitPlan.Valid units) (hsize : UnitPlan.totalSize units ≤ UInt32.size) :
    (Assembly.ofPlan label units).infoBytes.toList =
      UnitPlan.bytesFrom (UnitPlan.offsetOf units) 0 units := by
  obtain ⟨start, h⟩ := progress_ofPlan hlabel hvalid
  rw [h.written.toList_infoBytes]
  refine UnitPlan.filled_chunksFrom (fun k hk => getElem?_labels_ofPlan hlabel hvalid hk)
    fun i u hu => ⟨_, _, ?_, hvalid i u hu⟩
  rw [Nat.zero_add]
  exact hvalid.placed hsize hu

end Assembled

end Dwarf
end ParamAtlas
