/-
# The listing

`OutputEntry`, `format_line` and `join`; specification, section 4.5.

One row for every function symbol whose address the debug information knows.
Rows are in order of address, those at one address in order of their shown
names, and rows equal in both in the order of the symbol index.  A function
known to have no parameters has a row; one that the debug information does not
mention has none.
-/
import ParamAtlas.ParameterTable
import ParamAtlas.Symbol.Index

namespace ParamAtlas

/-- One function of the listing: the name shown for it, its name in the symbol
table, its entry address, and its parameters as they are shown. -/
structure Row where
  shown : String
  symbol : String
  address : Address
  parameters : List String
  deriving DecidableEq, Repr, Inhabited

namespace Row

/-- The text of a row. -/
def line (r : Row) : String :=
  r.shown ++ ": " ++ Hex.marked r.address.toNat ++ " : [" ++ ", ".intercalate r.parameters ++ "]"

/-- The order of rows: by address, then by shown name. -/
def le (a b : Row) : Bool :=
  a.address < b.address || (a.address == b.address && decide (a.shown ≤ b.shown))

end Row

namespace Listing

/-- The rows at one address: one for each symbol there. -/
def rowsAt (rename : String → String) (x : SymbolIndex) (a : Address) (ps : List Parameter) :
    List Row :=
  (x.atAddress a).map fun s => ⟨rename s.name, s.name, a, ps.map Parameter.shown⟩

/-- All rows, with `rename` giving the name shown for a symbol. -/
def rows (rename : String → String) (x : SymbolIndex) (t : ParameterTable) : List Row :=
  (t.toList.flatMap fun (a, ps) => rowsAt rename x a ps).mergeSort Row.le

end Listing
end ParamAtlas
