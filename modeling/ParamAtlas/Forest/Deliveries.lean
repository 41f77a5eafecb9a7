/-
# Entries handed out

`issued_handles`; specification, section 10.

Every question about roots, children, siblings or offsets that finds an entry
hands that entry out.  These are the numbers of entries handed out by the
larger operations: a walk is handed every entry it visits but the root it was
given, a subprogram is handed its children and whatever origins resolve.
-/
import ParamAtlas.Forest.Harvest

namespace ParamAtlas
namespace Forest

variable {ε : Type}

/-- Entries handed out to a walk that visits these. -/
def walkDeliveries (visited : List ε) : Nat := visited.length - 1

/-- Entries handed out while a parameter is resolved. -/
def parameterDeliveries (F : Forest ε) (e : ε) : Nat :=
  (F.resolution e).lookups.countP (F.entryAt · |>.isSome)

/-- Entries handed out while a subprogram is read. -/
def subprogramDeliveries (F : Forest ε) (e : ε) : Nat :=
  (F.children e).length + ((F.parameterEntries e).map F.parameterDeliveries).foldr (· + ·) 0

/-- Entries handed out while one unit is harvested, its root among them. -/
def unitDeliveries (F : Forest ε) (u : CompileUnit ε) : Nat :=
  let visited := F.visits u.root
  1 + walkDeliveries visited
    + ((F.subprogramsOf visited).map F.subprogramDeliveries).foldr (· + ·) 0

/-- Entries handed out by a harvest. -/
def harvestDeliveries (F : Forest ε) : Nat :=
  (F.compileUnits.map F.unitDeliveries).foldr (· + ·) 0

end Forest
end ParamAtlas
