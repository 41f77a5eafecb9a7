/-
# What is known of a name

| question | answer |
| --- | --- |
| leaf | the class that a constructor or destructor in the name is named for |
| arguments | those of the template that the name is of, if it is of one |
| has no result | whether it is a constructor, a destructor or a conversion operator |

A reference leads to an entry and from there to earlier ones only, so as many
steps as there are entries lead to the end of it.
-/
import ParamAtlas.Demangle.Itanium.Basic

namespace ParamAtlas
namespace Demangle
namespace Itanium

/-- The last name of a class: its own, or that of a component. -/
inductive Leaf where
  | base (name : BaseName)
  | component (c : Component)
  deriving Inhabited

/-- The leaf of a name without its scope. -/
def BaseName.leaf? : BaseName → Option Leaf
  | source name => some (.base (.source name))
  | closure types number => some (.base (.closure types number))
  | unnamed number => some (.base (.unnamed number))
  | _ => none

/-- Whether a name is that of a function without a result. -/
def BaseName.hasNoResult : BaseName → Bool
  | constructor _ => true
  | destructor => true
  | operator (.conversion _) => true
  | _ => false

namespace Name

/-- The leaf of a name, with that of a reference. -/
def leafBy? (leafOf : Ref → Option Leaf) : Name → Option Leaf
  | nested outer last _ => last.base.leaf? <|> outer.bind leafOf
  | nestedTemplate outer _ _ => leafOf outer
  | unscoped _ last => last.base.leaf?
  | template base _ => leafOf base
  | inFunction _ name => name.leafBy? leafOf
  | inDefault _ name => name.leafBy? leafOf
  | stringIn _ => none

/-- The arguments of the template that a name is of. -/
def arguments? : Name → Option Arguments
  | nestedTemplate _ args _ => some args
  | template _ args => some args
  | inFunction _ name => name.arguments?
  | inDefault _ name => name.arguments?
  | _ => none

/-- Whether a name is that of a function without a result, with the answer for a
reference. -/
def hasNoResultBy (answer : Ref → Bool) : Name → Bool
  | nested _ last _ => last.base.hasNoResult
  | nestedTemplate outer _ _ => answer outer
  | unscoped _ last => last.base.hasNoResult
  | _ => false

end Name

namespace Scope

/-- The leaf of a scope, with that of a reference. -/
def leafBy? (leafOf : Ref → Option Leaf) : Scope → Option Leaf
  | simple name => name.base.leaf?
  | nested outer last => last.base.leaf? <|> leafOf outer
  | template outer _ => leafOf outer
  | member _ name => some (.base (.source name))
  | parameter _ => none
  | decltype _ => none

/-- Whether a scope is the name of a function without a result, with the answer
for a reference. -/
def hasNoResultBy (answer : Ref → Bool) : Scope → Bool
  | simple name => name.base.hasNoResult
  | nested _ last => last.base.hasNoResult
  | template outer _ => answer outer
  | _ => false

end Scope

namespace Table

/-- The leaf of a reference, after at most so many steps. -/
def leafWithin? (t : Table) : (steps : Nat) → Ref → Option Leaf
  | _, .component c => if c = .std then none else some (.component c)
  | n + 1, .entry i =>
    match t[i]? with
    | some (.template _ name) => name.base.leaf?
    | some (.scope s) => s.leafBy? (leafWithin? t n)
    | some (.type (.named _ name)) => name.leafBy? (leafWithin? t n)
    | _ => none
  | _, _ => none

/-- The leaf of a reference. -/
def leaf? (t : Table) : Ref → Option Leaf := t.leafWithin? t.size

/-- Whether a reference is to the name of a function without a result, after at
most so many steps. -/
def hasNoResultWithin (t : Table) : (steps : Nat) → Ref → Bool
  | n + 1, .entry i =>
    match t[i]? with
    | some (.scope s) => s.hasNoResultBy (hasNoResultWithin t n)
    | _ => false
  | _, _ => false

/-- Whether a reference is to the name of a function without a result. -/
def hasNoResult (t : Table) : Ref → Bool := t.hasNoResultWithin t.size

/-- The arguments of the template that a type is of, seen through pointers and
references, after at most so many steps. -/
def argumentsWithin? (t : Table) : (steps : Nat) → Ref → Option Arguments
  | n + 1, .entry i =>
    match t[i]? with
    | some (.type (.template _ args)) => some args
    | some (.type (.extended _ _ args)) => args
    | some (.type (.pointer target)) => argumentsWithin? t n target
    | some (.type (.reference _ target)) => argumentsWithin? t n target
    | _ => none
  | _, _ => none

/-- The arguments of the template that a type is of. -/
def arguments? (t : Table) : Ref → Option Arguments := t.argumentsWithin? t.size

/-- Whether a reference is to an array type. -/
def isArray (t : Table) : Ref → Bool
  | .entry i =>
    match t[i]? with
    | some (.type (.array _ _)) => true
    | _ => false
  | _ => false

end Table
end Itanium
end Demangle
end ParamAtlas
