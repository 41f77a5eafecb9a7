/-
# The table from entry address to parameters

`ParamMap` with `commit`; specification, section 3.

Every subprogram with a nonzero address is committed once.  Several
subprograms may claim one address; the policy says whose parameters stay:

| policy | the address keeps |
| --- | --- |
| `firstWins` | the parameters of the first claimant |
| `lastWins` | the parameters of the latest claimant |

Each claim after the first counts as one collision under either policy.
-/
import Std.Data.TreeMap
import ParamAtlas.Parameter

namespace ParamAtlas

/-- Which claimant of a contested address keeps it. -/
inductive DuplicatePolicy where
  | firstWins
  | lastWins
  deriving DecidableEq, Repr, Inhabited

/-- Parameter lists by entry address, in ascending order of address. -/
structure ParameterTable where
  policy : DuplicatePolicy
  lists : Std.TreeMap Address (List Parameter) compare
  /-- How many commits found their address taken. -/
  collisions : Nat

namespace ParameterTable

/-- The table without any address. -/
def empty (policy : DuplicatePolicy) : ParameterTable := ⟨policy, ∅, 0⟩

/-- Commits one subprogram, and says whether the table took its parameters.
Address 0 is never stored. -/
def commit (t : ParameterTable) (s : Subprogram) : ParameterTable × Bool :=
  if s.address = 0 then (t, false)
  else if s.address ∈ t.lists then
    match t.policy with
    | .firstWins => ({ t with collisions := t.collisions + 1 }, false)
    | .lastWins =>
      ({ t with lists := t.lists.insert s.address s.parameters
                collisions := t.collisions + 1 }, true)
  else ({ t with lists := t.lists.insert s.address s.parameters }, true)

/-- Commits subprograms in order. -/
def commitAll (t : ParameterTable) (ss : List Subprogram) : ParameterTable :=
  ss.foldl (fun t s => (t.commit s).1) t

/-- The parameters stored at an address. -/
def get? (t : ParameterTable) (a : Address) : Option (List Parameter) := t.lists[a]?

/-- All stored pairs, in ascending order of address. -/
def toList (t : ParameterTable) : List (Address × List Parameter) := t.lists.toList

/-- The number of stored addresses. -/
def size (t : ParameterTable) : Nat := t.lists.size

/-- Whether nothing is stored. -/
def isEmpty (t : ParameterTable) : Bool := t.lists.isEmpty

end ParameterTable
end ParamAtlas
