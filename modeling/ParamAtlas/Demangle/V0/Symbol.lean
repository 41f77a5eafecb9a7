/-
# Symbols of the v0 scheme

The newer of the schemes that `demangle_name` tries first.

A symbol is `_R`, a path, and at will another path, that of the unit the first
was made for, which is not shown.  A symbol is one of this scheme if its paths
can be read without following references to earlier forms.
-/
import ParamAtlas.Demangle.V0.Forms

namespace ParamAtlas
namespace Demangle
namespace V0

/-- What a symbol has after the mark of the scheme. -/
def body? : List Char → Option (List Char)
  | '_' :: 'R' :: c :: cs => some (c :: cs)
  | 'R' :: c :: cs => some (c :: cs)
  | '_' :: '_' :: 'R' :: c :: cs => some (c :: cs)
  | _ => none

/-- The depth to which forms nest. -/
def depth : Nat := 500

/-- The forms on the topmost level. -/
def top : List Level := levels depth

/-- What is left after a path that can be read. -/
def afterPath? (whole rest : List Char) : Option (List Char) :=
  match path top false whole ⟨.ok rest, none, 0⟩ with
  | .ok ((), ⟨.ok rest, _, _⟩) => some rest
  | _ => none

/-- Whether characters start with a path. -/
def startsPath : List Char → Bool
  | c :: _ => c.isUpper
  | [] => false

/-- The text that shows a path. -/
def shown (whole : List Char) : Except Text.Sheet Text.Sheet :=
  match path top true whole ⟨.ok whole, some {}, 0⟩ with
  | .ok ((), p) => .ok (p.sheet.getD {})
  | .error sheet => .error sheet

/-- The sheet that shows a symbol, and what follows the paths in it. -/
def read? (cs : List Char) : Option (Except Text.Sheet Text.Sheet × List Char) := do
  let body ← body? cs
  if startsPath body && body.all fun c => c.toNat < 0x80 then
    let rest ← afterPath? body body
    let rest ← if startsPath rest then afterPath? body rest else some rest
    some (shown body, rest)
  else none

end V0
end Demangle
end ParamAtlas
