/-
# Writing the listing

`write_report`; specification, section 4.5.

A listing is written in pieces, one after another, to a sink that may fill up.
A piece that does not fit is refused, and nothing is written after it, so a
sink holds the beginning of the listing at any time.
-/
import ParamAtlas.Listing.Document

namespace ParamAtlas

/-- The two forms of a listing. -/
inductive OutputFormat where
  | text
  | json
  deriving DecidableEq, Repr, Inhabited

/-- A place to write to: at most `capacity` bytes, where there is a limit, and
what it holds so far. -/
structure Sink where
  capacity : Option Nat
  held : String
  deriving DecidableEq, Repr, Inhabited

namespace Sink

/-- An empty sink. -/
def fresh (capacity : Option Nat) : Sink := ⟨capacity, ""⟩

/-- Whether a piece still fits. -/
def fits (s : Sink) (piece : String) : Bool :=
  match s.capacity with
  | none => true
  | some n => s.held.utf8ByteSize + piece.utf8ByteSize ≤ n

/-- Writes pieces until one does not fit, and says whether all of them did. -/
def put (s : Sink) : List String → Sink × Bool
  | [] => (s, true)
  | piece :: rest =>
    if s.fits piece then Sink.put { s with held := s.held ++ piece } rest else (s, false)

/-- A sink without a limit takes all pieces. -/
theorem put_of_capacity_eq_none (held : String) (pieces : List String) :
    put ⟨none, held⟩ pieces = (⟨none, held ++ String.join pieces⟩, true) := by
  induction pieces generalizing held with
  | nil => simp [put]
  | cons piece rest ih =>
    have hfits : fits ⟨none, held⟩ piece = true := rfl
    rw [put, if_pos hfits, ih, String.join_cons, String.append_assoc]

end Sink

namespace Listing

/-- The pieces of a listing: a line for each row, or one JSON object and the
end of its line. -/
def pieces (format : OutputFormat) (rs : List Row) : List String :=
  match format with
  | .text => rs.flatMap fun r => [r.line, "\n"]
  | .json => (document rs).pieces ++ ["\n"]

/-- The whole text of a listing. -/
def text (format : OutputFormat) (rs : List Row) : String := String.join (pieces format rs)

/-- Writes a listing, and says whether all of it found room. -/
def write (format : OutputFormat) (rs : List Row) (s : Sink) : Sink × Bool :=
  s.put (pieces format rs)

/-- A sink without a limit takes a whole listing. -/
theorem write_fresh_none (format : OutputFormat) (rs : List Row) :
    write format rs (.fresh none) = (⟨none, text format rs⟩, true) := by
  rw [write, Sink.fresh, Sink.put_of_capacity_eq_none, text, String.empty_append]

end Listing
end ParamAtlas
