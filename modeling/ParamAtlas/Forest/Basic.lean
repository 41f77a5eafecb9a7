/-
# Forests of debug entries

`DieSource`, `DieRef` and `UnitInfo`; specification, sections 3 and 6.

Debug information is a list of units, each with a tree of entries below a root
entry.  Trees are stored as first-child and next-sibling links, and entries
refer to each other by their offset in the whole forest.

A `Forest` holds the questions that can be put to such a store.  Every answer
may be absent, and an unreadable datum counts as absent.  `height` bounds what
lies ahead of an entry: it drops along each link, so no chain of links runs
forever, whatever the store holds.

| code | meaning |
| ---: | --- |
| tag `0x05` | formal parameter |
| tag `0x11` | compile unit |
| tag `0x2e` | subprogram |
| attribute `0x03` | name |
| attribute `0x11` | entry address |
| attribute `0x31` | the entry that this one repeats |
| attribute `0x34` | added by the compiler |
-/
import ParamAtlas.Hex

namespace ParamAtlas

/-- The offset of a debug entry in the whole forest. -/
structure EntryRef where
  offset : UInt64
  deriving DecidableEq, Repr, Inhabited, Hashable

/-- The text of an offset: at least eight digits between angle brackets. -/
def EntryRef.text (r : EntryRef) : String := "<0x" ++ Hex.padded 8 r.offset.toNat ++ ">"

/-- What an entry describes. -/
abbrev Tag := UInt16

namespace Tag

/-- The tag of a formal parameter. -/
def formalParameter : Tag := 0x05

/-- The tag of a compile unit. -/
def compileUnit : Tag := 0x11

/-- The tag of a subprogram. -/
def subprogram : Tag := 0x2e

end Tag

/-- Which property of an entry an attribute gives. -/
abbrev AttributeCode := UInt16

namespace AttributeCode

/-- The name of the thing described. -/
def name : AttributeCode := 0x03

/-- The entry address of a subprogram. -/
def lowPc : AttributeCode := 0x11

/-- The entry whose properties this one repeats. -/
def abstractOrigin : AttributeCode := 0x31

/-- Whether the compiler added the thing on its own. -/
def artificial : AttributeCode := 0x34

end AttributeCode

/-- What a unit's header says. -/
structure UnitInfo where
  offset : EntryRef
  version : Nat
  addressSize : Nat
  deriving DecidableEq, Repr, Inhabited

/-- The questions that a store of debug entries answers, over its own kind `ε`
of entries. -/
structure Forest (ε : Type) where
  unitCount : Nat
  unitInfo : Nat → Option UnitInfo
  unitRoot : Nat → Option ε
  tag : ε → Option Tag
  firstChild : ε → Option ε
  nextSibling : ε → Option ε
  /-- The entry at an offset. -/
  entryAt : EntryRef → Option ε
  /-- The offset of an entry. -/
  ref : ε → EntryRef
  text : ε → AttributeCode → Option String
  flag : ε → AttributeCode → Option Bool
  address : ε → AttributeCode → Option Address
  reference : ε → AttributeCode → Option EntryRef
  /-- A bound on the links that can still be followed. -/
  height : ε → Nat
  height_firstChild : ∀ e c, firstChild e = some c → height c < height e
  height_nextSibling : ∀ e s, nextSibling e = some s → height s < height e

namespace Forest

variable {ε : Type}

/-- Whether an entry has a given readable tag. -/
def hasTag (F : Forest ε) (t : Tag) (e : ε) : Bool := F.tag e == some t

/-- One turn of the loop over siblings. -/
def siblingTurn (F : Forest ε) : Array ε × Option ε → Array ε × Option ε
  | (seen, none) => (seen, none)
  | (seen, some e) => (seen.push e, F.nextSibling e)

/-- Collects an entry and the siblings after it behind `seen`. -/
def siblingsOnto (F : Forest ε) (seen : Array ε) (e? : Option ε) : Array ε :=
  match e? with
  | none => seen
  | some e => F.siblingsOnto (F.siblingTurn (seen, some e)).1 (F.siblingTurn (seen, some e)).2
termination_by (e?.map (F.height · + 1)).getD 0
decreasing_by
  rw [siblingTurn]
  cases h : F.nextSibling e with
  | none => simp
  | some s => have := F.height_nextSibling e s h; simp; omega

/-- The direct children of an entry, in order. -/
def children (F : Forest ε) (e : ε) : List ε := (F.siblingsOnto #[] (F.firstChild e)).toList

end Forest
end ParamAtlas
