/-
# The symbol index

`SymbolCatalog` with `insert` and `from_object`; specification, section 4.1.

Function symbols by entry address.  A name is defined once: a later definition
replaces an earlier one and stands behind the names already at its address.
Several names may share an address.
-/
import Std.Data.TreeMap
import Std.Data.HashMap
import ParamAtlas.Symbol.Basic

namespace ParamAtlas

/-- Symbols by address, each address with its symbols in order of definition,
and the address of every name.  The two agree: the names at an address are
those that `homes` sends there. -/
structure SymbolIndex where
  rows : Std.TreeMap Address (List Symbol) compare
  homes : Std.HashMap String Address

namespace SymbolIndex

/-- The index without any symbol. -/
def empty : SymbolIndex := ⟨∅, ∅⟩

/-- The rows without the symbol called `name` at address `a`; an address that
loses its last symbol goes. -/
def unlink (rows : Std.TreeMap Address (List Symbol) compare) (name : String) (a : Address) :
    Std.TreeMap Address (List Symbol) compare :=
  match (rows.getD a []).filter (·.name ≠ name) with
  | [] => rows.erase a
  | left => rows.insert a left

/-- Defines a symbol, in place of the one that had its name. -/
def insert (x : SymbolIndex) (s : Symbol) : SymbolIndex :=
  let rows := match x.homes[s.name]? with
    | some a => unlink x.rows s.name a
    | none => x.rows
  ⟨rows.insert s.address (rows.getD s.address [] ++ [s]), x.homes.insert s.name s.address⟩

/-- Defines symbols in order. -/
def insertAll (x : SymbolIndex) (ss : List Symbol) : SymbolIndex := ss.foldl insert x

/-- The symbols at exactly this address, in order of definition. -/
def atAddress (x : SymbolIndex) (a : Address) : List Symbol := x.rows.getD a []

/-- All symbols in ascending order of address. -/
def toList (x : SymbolIndex) : List Symbol := x.rows.toList.flatMap (·.2)

/-- The number of names defined. -/
def size (x : SymbolIndex) : Nat := x.homes.size

/-- Whether no name is defined. -/
def isEmpty (x : SymbolIndex) : Bool := x.homes.isEmpty

/-- The index of a symbol table: every function that its entries define. -/
def ofTable (table : List TableSymbol) : SymbolIndex :=
  empty.insertAll (table.filterMap TableSymbol.function?)

/-- How many entries of a symbol table define no function. -/
def ignored (table : List TableSymbol) : Nat :=
  table.countP (·.function?.isNone)

end SymbolIndex
end ParamAtlas
