/-
# Walking a unit

`walk` and `step`; specification, section 4.3.

The walk starts at a root entry and follows links with a stack, so depth costs
memory and no recursion.  An entry is visited, then its first child is put on
the stack, then its next sibling on top: the siblings of an entry come before
its children.  Below an entry whose tag is unreadable nothing is visited, but
its siblings are.

| part of a step | here |
| --- | --- |
| counts, call of the visitor | `record` |
| what goes on the stack | `entered`, `turn` |
| the loop, whatever is done with an entry | `walkStack` |
| the loop with the step, from a root | `walk` |

A record of the entries handled, in order, is what the same loop makes that
puts each entry at the end of a list (`visits`).

The outline is the other order, the one in which entries are declared: an
entry, what lies below it, then its next sibling.
-/
import ParamAtlas.Forest.Basic

namespace ParamAtlas

/-- Counts of a walk: the entries visited, those of them that are
subprograms, and those whose tag was unreadable. -/
structure WalkStats where
  visited : Nat
  subprograms : Nat
  skipped : Nat
  deriving DecidableEq, Repr, Inhabited

namespace WalkStats

/-- The counts of a walk that visits nothing. -/
def zero : WalkStats := ⟨0, 0, 0⟩

/-- Counts of two walks together. -/
def add (a b : WalkStats) : WalkStats :=
  ⟨a.visited + b.visited, a.subprograms + b.subprograms, a.skipped + b.skipped⟩

instance : Add WalkStats := ⟨add⟩

end WalkStats

namespace Forest

variable {ε σ : Type}

/-- How many entries two links lead to, the links of those, and so on down to
height 0. -/
def fullWeight : (height : Nat) → Nat
  | 0 => 1
  | h + 1 => 2 * fullWeight h + 1

/-- Every tree takes a turn at least. -/
theorem fullWeight_pos (h : Nat) : 0 < fullWeight h := by
  cases h <;> simp [fullWeight]

/-- A tree weighs more than two lower ones and a turn. -/
theorem fullWeight_lt {h k : Nat} (hlt : h < k) : 2 * fullWeight h + 1 ≤ fullWeight k := by
  induction hlt with
  | refl => exact Nat.le_refl _
  | step _ ih =>
    simp only [fullWeight]
    omega

/-- More than the weights of the two entries that one entry leads to, so a
stack gets lighter whenever its top is replaced by what the top leads to. -/
def weight (F : Forest ε) (e : ε) : Nat := fullWeight (F.height e)

/-- The weights of an optional entry. -/
def weight? (F : Forest ε) (e? : Option ε) : Nat := (e?.map F.weight).getD 0

/-- The child and the sibling of an entry together weigh less than the entry. -/
theorem weight_links_lt (F : Forest ε) (e : ε) :
    F.weight? (F.nextSibling e) + F.weight? (F.firstChild e) < F.weight e := by
  have pos : 0 < F.weight e := fullWeight_pos _
  have sibling : 2 * F.weight? (F.nextSibling e) + 1 ≤ F.weight e := by
    cases h : F.nextSibling e with
    | none => exact pos
    | some s => exact fullWeight_lt (F.height_nextSibling e s h)
  have child : 2 * F.weight? (F.firstChild e) + 1 ≤ F.weight e := by
    cases h : F.firstChild e with
    | none => exact pos
    | some c => exact fullWeight_lt (F.height_firstChild e c h)
  omega

/-- The child that the walk enters: none below an unreadable tag. -/
def entered (F : Forest ε) (e : ε) : Option ε :=
  if (F.tag e).isSome then F.firstChild e else none

/-- The weight of a stack. -/
def stackWeight (F : Forest ε) : (stack : List ε) → Nat
  | [] => 0
  | e :: rest => F.weight e + F.stackWeight rest

/-- What is put on a stack, if anything, adds its weight. -/
theorem stackWeight_toList_append (F : Forest ε) (e? : Option ε) (stack : List ε) :
    F.stackWeight (e?.toList ++ stack) = F.weight? e? + F.stackWeight stack := by
  cases e? <;> simp [stackWeight, weight?]

/-- One turn of a walk that does something with each entry: the top of the stack is
taken, and its child and its sibling take its place, the sibling on top. -/
def turn (F : Forest ε) (take : σ → ε → σ) : σ × List ε → σ × List ε
  | (s, []) => (s, [])
  | (s, e :: rest) => (take s e, (F.nextSibling e).toList ++ ((F.entered e).toList ++ rest))

/-- Takes the entries of a stack and all that they lead to. -/
def walkStack (F : Forest ε) (take : σ → ε → σ) (s : σ) (stack : List ε) : σ :=
  match stack with
  | [] => s
  | e :: rest =>
    F.walkStack take (F.turn take (s, e :: rest)).1 (F.turn take (s, e :: rest)).2
termination_by F.stackWeight stack
decreasing_by
  have links := F.weight_links_lt e
  have enter : F.weight? (F.entered e) ≤ F.weight? (F.firstChild e) := by
    unfold entered; split <;> simp [weight?]
  have top : F.stackWeight (e :: rest) = F.weight e + F.stackWeight rest := by simp [stackWeight]
  rw [turn, stackWeight_toList_append, stackWeight_toList_append, top]
  omega

/-- Counts an entry, and gives it to the visitor if it is a subprogram. -/
def record (F : Forest ε) (visit : σ → ε → σ) (w : WalkStats × σ) (e : ε) : WalkStats × σ :=
  let (⟨visited, subprograms, skipped⟩, made) := w
  match F.tag e with
  | none => (⟨visited + 1, subprograms, skipped + 1⟩, made)
  | some t =>
    if t = Tag.subprogram then (⟨visited + 1, subprograms + 1, skipped⟩, visit made e)
    else (⟨visited + 1, subprograms, skipped⟩, made)

/-- A walk with a visitor: the counts, and what the visitor has made in the end. -/
def walk (F : Forest ε) (visit : σ → ε → σ) (made : σ) (root : ε) : WalkStats × σ :=
  F.walkStack (F.record visit) (.zero, made) [root]

/-- The entries that a walk from `root` visits, in order. -/
def visits (F : Forest ε) (root : ε) : List ε := (F.walkStack Array.push #[] [root]).toList

/-- The subprograms among visited entries, in order. -/
def subprogramsOf (F : Forest ε) (visited : List ε) : List ε :=
  visited.filter (F.hasTag Tag.subprogram)

/-- The counts of a list of visited entries. -/
def statsOf (F : Forest ε) (visited : List ε) : WalkStats :=
  ⟨visited.length, visited.countP (F.hasTag Tag.subprogram), visited.countP (F.tag · |>.isNone)⟩

/-- Lists the entries of a stack and all that belongs to them, each with its
depth, in order of declaration. -/
def outlineStack (F : Forest ε) (seen : Array (Nat × ε)) (stack : List (Nat × ε)) :
    Array (Nat × ε) :=
  match stack with
  | [] => seen
  | (d, e) :: rest =>
    F.outlineStack (seen.push (d, e))
      ((F.firstChild e).toList.map ((d + 1, ·)) ++ ((F.nextSibling e).toList.map ((d, ·)) ++ rest))
termination_by F.stackWeight (stack.map (·.2))
decreasing_by
  have links := F.weight_links_lt e
  have top : F.stackWeight (e :: rest.map (·.2)) = F.weight e + F.stackWeight (rest.map (·.2)) := by
    simp [stackWeight]
  simp only [List.map_append, List.map_map, List.map_cons]
  rw [show ((Prod.snd ∘ fun x => (d + 1, x)) : ε → ε) = id from rfl,
    show ((Prod.snd ∘ fun x => (d, x)) : ε → ε) = id from rfl, List.map_id, List.map_id,
    stackWeight_toList_append, stackWeight_toList_append, top]
  omega

/-- All entries from `root` on in order of declaration, with their depth. -/
def outline (F : Forest ε) (root : ε) : List (Nat × ε) := (F.outlineStack #[] [(0, root)]).toList

end Forest
end ParamAtlas
