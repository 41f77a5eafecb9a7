/-
# Parameters and subprograms

`ParameterRecord` with `display_name`, and `SubprogramRecord`; specification, section 3.

What the debug information says about one function: its entry address and the
names of its parameters in order.  A parameter without a name keeps its place
with an empty name, so later positions do not shift.
-/
import ParamAtlas.Hex

namespace ParamAtlas

/-- One formal parameter.  `artificial` marks a parameter that the compiler
added on its own, such as `this`. -/
structure Parameter where
  name : String
  artificial : Bool
  deriving DecidableEq, Repr, Inhabited

/-- The text of a parameter in a listing: an artificial one stands in a comment. -/
def Parameter.shown (p : Parameter) : String :=
  if p.artificial then "/* " ++ p.name ++ " */" else p.name

/-- One subprogram: where it starts, and its parameters.  Address 0 stands for
a subprogram without an entry address. -/
structure Subprogram where
  address : Address
  parameters : List Parameter
  deriving DecidableEq, Repr, Inhabited

end ParamAtlas
