/-
# Forests in memory

`FakeTree`; specification, section 10.

A forest given as a list of entries in order of creation, each naming its
parent.  The offset of an entry is its position, and a parent always stands
before its children, so

| link | leads to |
| --- | --- |
| first child of `i` | the least position after `i` whose parent is `i` |
| next sibling of `i` | the least position after `i` with the parent of `i` |

Entries without a parent have no siblings.
-/
import ParamAtlas.Forest.Basic

namespace ParamAtlas

/-- The value of an attribute of an entry in memory. -/
inductive MemoryValue where
  | text (s : String)
  | flag (b : Bool)
  | address (a : Address)
  | reference (r : EntryRef)
  deriving DecidableEq, Repr, Inhabited

/-- An entry in memory.  A tag may be absent, which stands for one that cannot
be read.  Of several attributes with one code the first counts. -/
structure MemoryEntry where
  parent : Option Nat
  tag : Option Tag
  attributes : List (AttributeCode × MemoryValue)
  deriving DecidableEq, Repr, Inhabited

/-- A unit in memory: its header information and the position of its root. -/
structure MemoryUnit where
  info : Option UnitInfo
  root : Option Nat
  deriving DecidableEq, Repr, Inhabited

/-- Entries in order of creation, and the units that start among them. -/
structure MemoryForest where
  entries : Array MemoryEntry
  units : Array MemoryUnit
  deriving Repr, Inhabited

namespace MemoryForest

/-- The forest without entries. -/
def empty : MemoryForest := ⟨#[], #[]⟩

/-- The least position from `i` on whose entry passes a test. -/
def findFrom (m : MemoryForest) (test : MemoryEntry → Bool) (i : Nat) : Option Nat :=
  if h : i < m.entries.size then
    if test m.entries[i] then some i else m.findFrom test (i + 1)
  else none
termination_by m.entries.size - i

/-- What is found is an entry, not before where the search starts. -/
theorem findFrom_bounds (m : MemoryForest) (test : MemoryEntry → Bool) (i j : Nat)
    (h : m.findFrom test i = some j) : i ≤ j ∧ j < m.entries.size := by
  fun_induction findFrom m test i with
  | case1 i hi _ => simp only [Option.some.injEq] at h; omega
  | case2 i _ _ ih => have := ih h; omega
  | case3 => simp at h

/-- The first child of the entry at `i`. -/
def firstChild (m : MemoryForest) (i : Nat) : Option Nat :=
  m.findFrom (·.parent == some i) (i + 1)

/-- The next sibling of the entry at `i`. -/
def nextSibling (m : MemoryForest) (i : Nat) : Option Nat :=
  match (m.entries[i]?).bind (·.parent) with
  | none => none
  | some p => m.findFrom (·.parent == some p) (i + 1)

/-- The value of the first attribute with a code. -/
def value? (m : MemoryForest) (i : Nat) (code : AttributeCode) : Option MemoryValue :=
  (m.entries[i]?).bind fun e => (e.attributes.find? (·.1 == code)).map (·.2)

/-- The forest that the entries make up. -/
def forest (m : MemoryForest) : Forest Nat where
  unitCount := m.units.size
  unitInfo i := (m.units[i]?).bind (·.info)
  unitRoot i := ((m.units[i]?).bind (·.root)).filter (· < m.entries.size)
  tag i := (m.entries[i]?).bind (·.tag)
  firstChild := m.firstChild
  nextSibling := m.nextSibling
  entryAt r := if r.offset.toNat < m.entries.size then some r.offset.toNat else none
  ref i := ⟨i.toUInt64⟩
  text i code := match m.value? i code with
    | some (.text s) => some s
    | _ => none
  flag i code := match m.value? i code with
    | some (.flag b) => some b
    | _ => none
  address i code := match m.value? i code with
    | some (.address a) => some a
    | _ => none
  reference i code := match m.value? i code with
    | some (.reference r) => some r
    | _ => none
  height i := m.entries.size - i
  height_firstChild i c h := by have := m.findFrom_bounds _ _ _ h; omega
  height_nextSibling i s h := by
    unfold nextSibling at h
    split at h
    · simp at h
    · have := m.findFrom_bounds _ _ _ h; omega

/-- Appends an entry; it becomes the last child of its parent. -/
def add (m : MemoryForest) (e : MemoryEntry) : MemoryForest :=
  { m with entries := m.entries.push e }

/-- Appends `n` entries alike, the first below `parent` and each next one below
the one before it. -/
def addChain (m : MemoryForest) (n : Nat) (e : MemoryEntry) : MemoryForest :=
  match n with
  | 0 => m
  | n + 1 => (m.add e).addChain n { e with parent := some m.entries.size }

/-- Appends a root entry and the unit that starts with it. -/
def addUnit (m : MemoryForest) : MemoryForest :=
  let root := m.entries.size
  { m.add ⟨none, some Tag.compileUnit, []⟩ with
    units := m.units.push ⟨some ⟨⟨root.toUInt64⟩, 5, 8⟩, some root⟩ }

/-- Appends an attribute to the entry at `i`. -/
def setAttribute (m : MemoryForest) (i : Nat) (code : AttributeCode) (v : MemoryValue) :
    MemoryForest :=
  { m with entries := m.entries.modify i fun e =>
      { e with attributes := e.attributes ++ [(code, v)] } }

/-- Makes the tag of the entry at `i` unreadable. -/
def breakTag (m : MemoryForest) (i : Nat) : MemoryForest :=
  { m with entries := m.entries.modify i fun e => { e with tag := none } }

end MemoryForest
end ParamAtlas
