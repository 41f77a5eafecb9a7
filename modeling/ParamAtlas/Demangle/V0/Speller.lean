/-
# Spellers

A speller reads the form of a thing and writes the thing out on the way.  It
goes on after a fault: what cannot be read is shown as a note the first time
and as `?` from then on, until a form read elsewhere in the symbol is done, for
such a form has faults of its own.  A speller that is told to be silent reads
alone and leaves forms elsewhere unread.

Forms nest up to 500 deep.  The spellers for the forms inside one at hand are
those of the levels below its own; a form that would be on no level is a fault.
-/
import ParamAtlas.Demangle.V0.Token
import ParamAtlas.Text.Sheet

namespace ParamAtlas
namespace Demangle
namespace V0

/-- Why a form cannot be read. -/
inductive Fault where
  | malformed
  | tooDeep
  deriving Repr, DecidableEq, Inhabited

/-- The note for a fault. -/
def Fault.note : Fault → String
  | .malformed => "\x7binvalid syntax\x7d"
  | .tooDeep => "\x7brecursion limit reached\x7d"

/-- How far the spelling of a symbol has come: what is still to be read, the
sheet unless silent, and how many lifetimes have a name here. -/
structure Progress where
  rest : Except Fault (List Char)
  sheet : Option Text.Sheet
  lifetimes : Nat := 0

/-- A speller knows the whole symbol, and stops when the sheet is full. -/
abbrev Speller := ReaderT (List Char) (StateT Progress (Except Text.Sheet))

namespace Speller

/-- Writes text. -/
def say (text : String) : Speller Unit := do
  let p ← get
  match p.sheet with
  | none => pure ()
  | some sheet => set { p with sheet := some (← sheet.write text) }

/-- Writes pieces of text. -/
def sayAll (pieces : List String) : Speller Unit := pieces.forM say

/-- Whether nothing is to be written. -/
def isSilent : Speller Bool := return (← get).sheet.isNone

/-- Whether there was a fault. -/
def isFaulty : Speller Bool := return match (← get).rest with
  | .error _ => true
  | .ok _ => false

/-- Notes a fault. -/
def fault (f : Fault) : Speller Unit := do
  say f.note
  modify fun p => { p with rest := .error f }

/-- Reads a word and goes on with it, unless it cannot be read. -/
def reading {α : Type} (word : Token α) (go : α → Speller Unit) : Speller Unit := do
  match (← get).rest with
  | .error _ => say "?"
  | .ok rest =>
    match word rest with
    | none => fault .malformed
    | some (a, rest) =>
      modify fun p => { p with rest := .ok rest }
      go a

/-- Takes a character if it is the one given, and says whether it was. -/
def eat (c : Char) : Speller Bool := do
  match (← get).rest with
  | .ok (d :: rest) =>
    if c = d then
      modify fun p => { p with rest := .ok rest }
      return true
    else return false
  | _ => return false

/-- Reads something without writing it. -/
def silently (s : Speller Unit) : Speller Unit := do
  let sheet := (← get).sheet
  modify fun p => { p with sheet := none }
  s
  modify fun p => { p with sheet }

/-- Spells up to `count` items up to an `E`, with text between each two of them:
how many there were. -/
def itemsFrom (one : Speller Unit) (between : String) (seen : Nat) : (count : Nat) → Speller Nat
  | 0 => return seen
  | n + 1 => do
    if ← isFaulty then return seen
    if ← eat 'E' then return seen
    if seen ≠ 0 then say between
    one
    itemsFrom one between (seen + 1) n

/-- Spells items up to an `E`, with text between each two of them: how many
there were.  Every item takes at least one character. -/
def items (one : Speller Unit) (between : String) : Speller Nat := do
  match (← get).rest with
  | .error _ => return 0
  | .ok rest => itemsFrom one between 0 (rest.length + 1)

/-- Spells a lifetime, counted from the one named last, from 1; 0 is one without
a name. -/
def lifetime (index : Nat) : Speller Unit := do
  if ← isSilent then return
  say "'"
  if index = 0 then say "_"
  else
    let known := (← get).lifetimes
    if index ≤ known then
      let place := known - index
      if place < 26 then say (String.singleton (Char.ofNat ('a'.toNat + place)))
      else sayAll ["_", toString place]
    else fault .malformed

/-- Names `count` more lifetimes, of which `seen` are named so far. -/
def nameLifetimes (seen : Nat) : (count : Nat) → Speller Unit
  | 0 => return
  | n + 1 => do
    if seen ≠ 0 then say ", "
    modify fun p => { p with lifetimes := p.lifetimes + 1 }
    lifetime 1
    nameLifetimes (seen + 1) n

/-- Spells something that may name lifetimes of its own. -/
def binding (s : Speller Unit) : Speller Unit :=
  reading (Token.mark 'G') fun count => do
    if ← isSilent then s
    else
      if count ≠ 0 then
        say "for<"
        nameLifetimes 0 count
        say "> "
      s
      modify fun p => { p with lifetimes := p.lifetimes - count }

end Speller

/-- The spellers of one level. -/
structure Level where
  path : (inValue : Bool) → Speller Unit
  type : Speller Unit
  constant : (inValue : Bool) → Speller Unit

namespace Speller

/-- Goes one level down. -/
def descend (below : List Level) (go : Level → List Level → Speller Unit) : Speller Unit := do
  match (← get).rest, below with
  | .error _, _ => say "?"
  | .ok _, [] => fault .tooDeep
  | .ok _, l :: deeper => go l deeper

/-- Reads a form that stands earlier in the symbol, one level down, and comes
back with its answer.  Of the symbol only the part before the reference, whose
letter has been taken, may be referred to. -/
def elsewhere (form : Option (Speller Bool)) : Speller Bool := do
  match (← get).rest with
  | .error _ => say "?"; return false
  | .ok start =>
    let whole ← read
    match Token.number start, form with
    | none, _ => fault .malformed; return false
    | some (i, rest), form =>
      if whole.length ≤ i + start.length + 1 then fault .malformed; return false
      else
        match form with
        | none => fault .tooDeep; return false
        | some form =>
          modify fun p => { p with rest := .ok rest }
          if ← isSilent then return false
          modify fun p => { p with rest := .ok (whole.drop i) }
          let answer ← form
          modify fun p => { p with rest := .ok rest }
          return answer

end Speller
end V0
end Demangle
end ParamAtlas
