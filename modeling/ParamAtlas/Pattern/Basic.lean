/-
# The extent of patterns

A pattern is a regular expression.  Whether it can be used depends on how deep its
parts nest and on how much room it takes, which is estimated:

| pattern | nests | takes |
| --- | --- | --- |
| a character, an assertion | not | as a state for each byte |
| a set of characters | as its operations | as much as sets of its kind do |
| patterns in a row, or at choice | one deeper if they are several | what they take together |
| a group | one deeper | a little more |
| a repetition | one deeper | what its part takes as often as it may be there |
-/

namespace ParamAtlas
namespace Pattern

/-- How deep a pattern nests, and the room that it takes. -/
structure Extent where
  depth : Nat
  room : Nat
  deriving DecidableEq, Repr, Inhabited

/-- The deepest pattern that can be used. -/
def maxDepth : Nat := 250

/-- The room for a pattern. -/
def maxRoom : Nat := 10 * 1024 * 1024

/-- The room that a state takes. -/
def stateRoom : Nat := 32

namespace Extent

/-- The extent of a pattern with so many states and no parts. -/
def states (n : Nat) : Extent := ⟨0, n * stateRoom⟩

/-- The extent of a character. -/
def char (c : Char) : Extent := states c.utf8Size

/-- The greatest depth. -/
def deepest (es : List Extent) : Nat := es.foldl (fun d e => max d e.depth) 0

/-- The extent of some patterns together. -/
def together (es : List Extent) : Extent :=
  match es with
  | [e] => e
  | [] => ⟨0, 0⟩
  | _ => ⟨deepest es + 1, es.foldl (fun n e => n + e.room) stateRoom⟩

/-- The extent of a group. -/
def group (e : Extent) : Extent := ⟨e.depth + 1, e.room + 2 * stateRoom⟩

/-- The extent of a pattern that is there at least `low` times, and at most `high`
times if there is a limit. -/
def repeated (e : Extent) (low : Nat) (high : Option Nat) : Extent :=
  ⟨e.depth + 1, match high with
    | some high => high * e.room + (high - low) * stateRoom
    | none => max 1 low * e.room + stateRoom⟩

/-- Whether a pattern of an extent can be used. -/
def isUsable (e : Extent) : Bool := e.depth ≤ maxDepth && e.room ≤ maxRoom

end Extent
end Pattern
end ParamAtlas
