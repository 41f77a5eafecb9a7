/-
# Sheets

A sheet takes text piece by piece as long as there is room on it.  The first
piece that does not fit is not begun, and nothing is written after it.
-/

namespace ParamAtlas
namespace Text

/-- A text written so far and how many bytes may still be written. -/
structure Sheet where
  text : String := ""
  room : Nat := 1000000
  deriving Repr, DecidableEq, Inhabited

namespace Sheet

/-- Writes a piece; as an error, the sheet that it does not fit on. -/
def write (s : Sheet) (piece : String) : Except Sheet Sheet :=
  if piece.utf8ByteSize ≤ s.room then .ok ⟨s.text ++ piece, s.room - piece.utf8ByteSize⟩
  else .error s

/-- The text after all is written, with a note if something did not fit. -/
def finished : Except Sheet Sheet → String
  | .ok s => s.text
  | .error s => s.text ++ "\x7bsize limit reached\x7d"

end Sheet
end Text
end ParamAtlas
