/-
# Extraction

`extract`, with `SymbolCatalog::from_object` and `GimliSource::open`; specification,
sections 4.1, 4.2 and 4.6.  From the bytes of an image to the rows of its listing:

| step | takes | gives | may fail |
| --- | --- | --- | --- |
| read | bytes | image | yes |
| index | table of symbols | symbol index | if there is no table |
| harvest | debug information | parameter table | if the failure is fatal, which none is |
| join | index and table | rows | no |

The first step is a reader's, and an extraction may be made with any reader of images
(`ofBytesBy`).
-/
import ParamAtlas.Command.Settings
import ParamAtlas.Demangle.Basic
import ParamAtlas.Forest.Harvest
import ParamAtlas.Image.Read

namespace ParamAtlas

/-- What an extraction counts. -/
structure ExtractionCounts where
  symbols : Nat
  units : Nat
  entriesVisited : Nat
  subprograms : Nat
  addresses : Nat
  collisions : Nat
  matched : Nat
  hasDebugInfo : Bool
  deriving DecidableEq, Repr, Inhabited

/-- What an extraction yields: the rows, the counts, and what was told on the
way. -/
structure Extraction where
  rows : List Row
  counts : ExtractionCounts
  events : List Event

namespace Image

/-- Why an image has no debug information, if it has none. -/
def noEntries : Failure := .noDebugInfo "no .debug_info section"

/-- The store of an image's debug information and what was told while it was
loaded, or why there is none. -/
def debugStore (i : Image) : Except Failure (Dwarf.Store × List Event) :=
  match i.debugSections? with
  | none => .error noEntries
  | some s =>
    let l := s.load
    .ok (⟨s, l.units⟩, l.events.toList)

/-- The index of an image's symbols and what was told about it.  `path` names
the image in a failure. -/
def symbolIndex (i : Image) (path : String) : Except Failure (SymbolIndex × List Event) :=
  match i.symbols with
  | none => .error (.noSymbolTable path)
  | some table =>
    let x := SymbolIndex.ofTable table
    .ok (x, [.symbolTable x.size (SymbolIndex.ignored table)])

/-- Reads the image in a file, or tells what is wrong with the file. -/
def parse (b : Bytes) : Except String Image := (ofBytes b).mapError Fault.message

/-- Lets a reader of images read a file.  `path` names it in a failure. -/
def readBy (parse : Bytes → Except String Image) (path : String) (b : Bytes) :
    Except Failure Image :=
  (parse b).mapError (.badInput path)

/-- Reads the image in a file.  `path` names it in a failure. -/
def read (path : String) (b : Bytes) : Except Failure Image := readBy parse path b

end Image

/-- What debug information contributes to an extraction: the harvest, if there
is debug information, and what was told about it. -/
structure Findings where
  table : ParameterTable
  units : Nat
  stats : WalkStats
  hasDebugInfo : Bool
  events : List Event

namespace Findings

/-- The events of a harvest, and one more if tags were unreadable. -/
def harvestEvents (h : Harvest) : List Event :=
  h.events.toList ++ if 0 < h.stats.skipped then [.unreadableTags h.stats.skipped] else []

/-- The findings of a store; without one there are no parameters, which is worth
telling. -/
def ofStore (path : String) (policy : DuplicatePolicy) :
    Except Failure (Dwarf.Store × List Event) → Findings
  | .error f => ⟨.empty policy, 0, .zero, false, [.noParameters path f]⟩
  | .ok (store, events) =>
    let h := store.forest.harvest (.empty policy)
    ⟨h.table, h.units, h.stats, true, events ++ harvestEvents h⟩

end Findings

/-- The name shown for a symbol. -/
def Settings.rename (s : Settings) : String → String := if s.demangle then Demangle.name else id

namespace Extraction

/-- Joins an index with findings. -/
def join (s : Settings) (x : SymbolIndex) (f : Findings) : Extraction :=
  let rows := Listing.rows s.rename x f.table
  let counts : ExtractionCounts := {
    symbols := x.size
    units := f.units
    entriesVisited := f.stats.visited
    subprograms := f.stats.subprograms
    addresses := f.table.size
    collisions := f.table.collisions
    matched := rows.length
    hasDebugInfo := f.hasDebugInfo }
  let summary := .summary s.input counts.symbols counts.units counts.addresses counts.matched
  let contested :=
    if 0 < counts.collisions then [.contested counts.collisions f.table.policy] else []
  ⟨rows, counts, summary :: contested⟩

/-- Extracts the listing of an image in memory that is read by a reader of images. -/
def ofBytesBy (parse : Bytes → Except String Image) (s : Settings) (b : Bytes) :
    Except Failure Extraction := do
  let i ← Image.readBy parse s.input b
  let (x, indexed) ← i.symbolIndex s.input
  let debug ← Failure.absorb i.debugStore
  let f := Findings.ofStore s.input s.duplicates debug
  let e := join s x f
  return { e with events := indexed ++ f.events ++ e.events }

/-- Extracts the listing of an image in memory. -/
def ofBytes (s : Settings) (b : Bytes) : Except Failure Extraction := ofBytesBy Image.parse s b

end Extraction
end ParamAtlas
