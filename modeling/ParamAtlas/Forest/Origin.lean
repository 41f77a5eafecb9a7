/-
# Names of parameters

`resolve_parameter` and `extract_subprogram`; specification, section 4.4.

A parameter that stands for one declared elsewhere often has no name of its
own.  It refers to its origin by offset, and the origin may refer further.
Name and artificial mark are each taken from the nearest entry of that chain
that has them.  At most eight origins are looked up, none of them twice and
never the parameter itself, so a chain that bites its tail ends.
-/
import ParamAtlas.Forest.Basic
import ParamAtlas.Parameter

namespace ParamAtlas

/-- How many origins are looked up for one parameter. -/
def maxOrigins : Nat := 8

/-- What is known about a parameter while its origins are followed, and the
offsets looked up so far, the latest first. -/
structure Resolution where
  name : Option String
  artificial : Option Bool
  lookups : List EntryRef
  deriving DecidableEq, Repr, Inhabited

namespace Resolution

/-- Whether nothing is left to look for. -/
def complete (r : Resolution) : Bool := r.name.isSome && r.artificial.isSome

/-- The parameter as far as it is known. -/
def parameter (r : Resolution) : Parameter := ⟨r.name.getD "", r.artificial.getD false⟩

end Resolution

namespace Forest

variable {ε : Type}

/-- Fills what is still unknown from an origin. -/
def fill (F : Forest ε) (origin : ε) (r : Resolution) : Resolution :=
  { r with name := r.name.or (F.text origin .name)
           artificial := r.artificial.or (F.flag origin .artificial) }

/-- Follows the origins of the parameter at `own`, the next of them at
`origin?`. -/
def followOrigins (F : Forest ε) (own : EntryRef) (origin? : Option EntryRef) (r : Resolution) :
    Resolution :=
  match origin? with
  | none => r
  | some o =>
    if r.complete then r
    else if _ : r.lookups.length < maxOrigins ∧ o ≠ own ∧ o ∉ r.lookups then
      let r' := { r with lookups := o :: r.lookups }
      match F.entryAt o with
      | none => r'
      | some e => F.followOrigins own (F.reference e .abstractOrigin) (F.fill e r')
    else r
termination_by maxOrigins - r.lookups.length
decreasing_by simp only [fill, List.length_cons]; omega

/-- What a parameter entry and its origins say. -/
def resolution (F : Forest ε) (e : ε) : Resolution :=
  F.followOrigins (F.ref e) (F.reference e .abstractOrigin)
    ⟨F.text e .name, F.flag e .artificial, []⟩

/-- The parameter that an entry describes. -/
def parameter (F : Forest ε) (e : ε) : Parameter := (F.resolution e).parameter

/-- The direct children of an entry that are formal parameters, in order. -/
def parameterEntries (F : Forest ε) (e : ε) : List ε :=
  (F.children e).filter (F.hasTag Tag.formalParameter)

/-- The subprogram that an entry describes.  Only direct children count as
parameters, and each of them keeps its place even without a name. -/
def subprogram (F : Forest ε) (e : ε) : Subprogram :=
  ⟨(F.address e .lowPc).getD 0, (F.parameterEntries e).map F.parameter⟩

end Forest
end ParamAtlas
