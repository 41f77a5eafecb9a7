/-
# Symbols

`Symbol`, `is_function` and the conversions of kinds and scopes; specification, section 3.

Two views of one symbol.  A `TableSymbol` is an entry of an image's symbol
table as the image's format describes it.  A `Symbol` is what the index keeps:
a named function with its entry address.

| table kind | class | | table scope | scope |
| --- | --- | --- | --- | --- |
| `text` | `function` | | `linkage`, `dynamic` | `global` |
| `data`, `tls` | `data` | | `compilation` | `unitLocal` |
| any other | `unknown` | | `unknown` | `unknown` |
-/
import ParamAtlas.Hex

namespace ParamAtlas

/-- What a symbol table says a symbol stands for. -/
inductive TableKind where
  | unknown
  | text
  | data
  | section
  | file
  | label
  | tls
  deriving DecidableEq, Repr, Inhabited

/-- How far a symbol table lets a symbol be seen. -/
inductive TableScope where
  | unknown
  | compilation
  | linkage
  | dynamic
  deriving DecidableEq, Repr, Inhabited

/-- What a symbol table notes of a symbol beside its kind.  ELF keeps a byte whose
lower half is a type; what other formats note is not asked for. -/
inductive SymbolFlags where
  | elf (info : UInt8)
  | other
  deriving DecidableEq, Repr, Inhabited

namespace SymbolFlags

/-- The type of ordinary functions in ELF. -/
def functionType : UInt8 := 2

/-- Whether a code symbol may stand for an ordinary function.  ELF tells those from
other code, such as functions that choose another one at run time. -/
def plainFunction : SymbolFlags → Bool
  | elf info => info &&& 0xf = functionType
  | other => true

end SymbolFlags

/-- One entry of an image's symbol table.  `name` is absent when the table
gives no readable text for it. -/
structure TableSymbol where
  name : Option String
  address : Address
  size : UInt64
  kind : TableKind
  scope : TableScope
  flags : SymbolFlags
  deriving DecidableEq, Repr, Inhabited

/-- Whether the flags of a table entry allow an ordinary function. -/
def TableSymbol.plainFunction (e : TableSymbol) : Bool := e.flags.plainFunction

/-- The classes of symbols that the index tells apart. -/
inductive SymbolClass where
  | function
  | data
  | unknown
  deriving DecidableEq, Repr, Inhabited

/-- The scopes of symbols that the index tells apart. -/
inductive SymbolScope where
  | global
  | unitLocal
  | unknown
  deriving DecidableEq, Repr, Inhabited

/-- Code is a function; ordinary and thread-local data are data. -/
def TableKind.toClass : TableKind → SymbolClass
  | .text => .function
  | .data | .tls => .data
  | .unknown | .section | .file | .label => .unknown

/-- A symbol seen outside its compilation unit is global. -/
def TableScope.toScope : TableScope → SymbolScope
  | .linkage | .dynamic => .global
  | .compilation => .unitLocal
  | .unknown => .unknown

/-- A symbol of the index. -/
structure Symbol where
  name : String
  address : Address
  size : UInt64
  kind : SymbolClass
  scope : SymbolScope
  deriving DecidableEq, Repr, Inhabited

/-- The symbol that a table entry defines: ordinary code at a nonzero address
under a readable name.  Any other entry defines none. -/
def TableSymbol.function? (e : TableSymbol) : Option Symbol :=
  match e.name with
  | none => none
  | some name =>
    if e.kind = .text ∧ e.plainFunction ∧ e.address ≠ 0 then
      some ⟨name, e.address, e.size, e.kind.toClass, e.scope.toScope⟩
    else none

end ParamAtlas
