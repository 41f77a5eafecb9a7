/-
# What a sink with a limit holds of a listing

A listing reaches its sink in many pieces, and any of them may be the first that finds no
room.  The sink refuses it, the refusal ends the listing, and what was taken before stays:

| the whole text | told | the sink holds |
| --- | --- | --- |
| fits | all of it found room | the whole text |
| does not fit | a piece was refused | the pieces before it, the beginning of the text |

So where the text is cut decides only how much of it is held after a refusal, and not
whether there is one: whether all pieces fit is a matter of their lengths together
(`Sink.put_of_le`, `Sink.put_of_lt`).
-/

import ParamAtlas.Listing.Output

namespace ParamAtlas
namespace Sink

variable {n : Nat} {held : String} {pieces : List String}

/-- A piece fits if it and what is held are no longer than the sink allows. -/
theorem fits_iff {piece : String} :
    fits ⟨some n, held⟩ piece = true ↔ held.utf8ByteSize + piece.utf8ByteSize ≤ n :=
  decide_eq_true_iff

/-- One piece that fits stands behind what was held, and the next pieces follow. -/
theorem put_cons_of_fits {piece : String} {rest : List String}
    (h : fits ⟨some n, held⟩ piece = true) :
    put ⟨some n, held⟩ (piece :: rest) = put ⟨some n, held ++ piece⟩ rest := by
  rw [put, if_pos h]

/-- One piece that does not fit ends it all. -/
theorem put_cons_of_not_fits {piece : String} {rest : List String}
    (h : fits ⟨some n, held⟩ piece = false) :
    put ⟨some n, held⟩ (piece :: rest) = (⟨some n, held⟩, false) := by
  rw [put, if_neg (Bool.eq_false_iff.1 h)]

/-- **Pieces that fit together** are all taken. -/
theorem put_of_le (h : held.utf8ByteSize + (String.join pieces).utf8ByteSize ≤ n) :
    put ⟨some n, held⟩ pieces = (⟨some n, held ++ String.join pieces⟩, true) := by
  induction pieces generalizing held with
  | nil => simp [put]
  | cons piece rest ih =>
    rw [String.join_cons, String.utf8ByteSize_append] at h
    have hfits : fits ⟨some n, held⟩ piece = true := fits_iff.2 (by omega)
    have hrest : (held ++ piece).utf8ByteSize + (String.join rest).utf8ByteSize ≤ n := by
      rw [String.utf8ByteSize_append]
      omega
    rw [put_cons_of_fits hfits, ih hrest, String.join_cons, String.append_assoc]

/-- **Of pieces that do not fit together** those before some piece are taken, and that
piece, which found no room behind them, is refused. -/
theorem put_of_lt (hheld : held.utf8ByteSize ≤ n)
    (h : n < held.utf8ByteSize + (String.join pieces).utf8ByteSize) :
    ∃ taken piece rest, pieces = taken ++ piece :: rest ∧
      fits ⟨some n, held ++ String.join taken⟩ piece = false ∧
      put ⟨some n, held⟩ pieces = (⟨some n, held ++ String.join taken⟩, false) := by
  induction pieces generalizing held with
  | nil =>
    rw [String.join_nil] at h
    exact absurd h (Nat.not_lt.2 hheld)
  | cons piece rest ih =>
    cases hfits : fits ⟨some n, held⟩ piece with
    | false =>
      refine ⟨[], piece, rest, rfl, ?_, ?_⟩
      · rw [String.join_nil, String.append_empty, hfits]
      · rw [put_cons_of_not_fits hfits, String.join_nil, String.append_empty]
    | true =>
      rw [String.join_cons, String.utf8ByteSize_append] at h
      have hroom := fits_iff.1 hfits
      rw [← String.utf8ByteSize_append] at hroom
      have hrest : n < (held ++ piece).utf8ByteSize + (String.join rest).utf8ByteSize := by
        rw [String.utf8ByteSize_append]
        omega
      obtain ⟨taken, refused, later, rfl, hrefused, hput⟩ := ih hroom hrest
      refine ⟨piece :: taken, refused, later, rfl, ?_, ?_⟩
      · rwa [String.join_cons, ← String.append_assoc]
      · rw [put_cons_of_fits hfits, hput, String.join_cons, String.append_assoc]

end Sink

namespace Listing

variable {format : OutputFormat} {rs : List Row} {n : Nat}

/-- **A listing that fits is held as a whole,** and all of it is told to have found room. -/
theorem write_of_le (h : (text format rs).utf8ByteSize ≤ n) :
    write format rs (.fresh (some n)) = (⟨some n, text format rs⟩, true) := by
  have hfits : "".utf8ByteSize + (String.join (pieces format rs)).utf8ByteSize ≤ n := by
    simpa [text] using h
  rw [write, Sink.fresh, Sink.put_of_le hfits, text, String.empty_append]

/-- **Of a listing that does not fit** the sink holds the pieces before the first one that
it refuses. -/
theorem write_of_lt (h : n < (text format rs).utf8ByteSize) :
    ∃ taken piece rest, pieces format rs = taken ++ piece :: rest ∧
      Sink.fits ⟨some n, String.join taken⟩ piece = false ∧
      write format rs (.fresh (some n)) = (⟨some n, String.join taken⟩, false) := by
  have hover : n < "".utf8ByteSize + (String.join (pieces format rs)).utf8ByteSize := by
    simpa [text] using h
  obtain ⟨taken, piece, rest, hpieces, hrefused, hput⟩ := Sink.put_of_lt (Nat.zero_le n) hover
  rw [String.empty_append] at hrefused hput
  exact ⟨taken, piece, rest, hpieces, hrefused, hput⟩

/-- **A listing in a sink with a limit.**  A sink without one takes the whole text, and a
sink for `n` bytes takes all of it exactly if the text has no more than `n` bytes.  Then it
holds the whole text.  Otherwise what is told is that it refused a piece: it holds the
pieces before that one, and nothing that follows.  In either case it holds the beginning of
the text. -/
theorem write_fresh_some (format : OutputFormat) (rs : List Row) (n : Nat) :
    write format rs (.fresh none) = (⟨none, text format rs⟩, true) ∧
      ((write format rs (.fresh (some n))).2 = true ↔ (text format rs).utf8ByteSize ≤ n) ∧
      ((write format rs (.fresh (some n))).2 = true ↔
        write format rs (.fresh (some n)) = (⟨some n, text format rs⟩, true)) ∧
      ((write format rs (.fresh (some n))).2 = false ↔
        ∃ taken piece rest, pieces format rs = taken ++ piece :: rest ∧
          Sink.fits ⟨some n, String.join taken⟩ piece = false ∧
          write format rs (.fresh (some n)) = (⟨some n, String.join taken⟩, false)) ∧
      ∃ unwritten, text format rs = (write format rs (.fresh (some n))).1.held ++ unwritten := by
  refine ⟨write_fresh_none format rs, ?_⟩
  by_cases hle : (text format rs).utf8ByteSize ≤ n
  · have hwrite := write_of_le hle
    rw [hwrite]
    refine ⟨by simp [hle], by simp, by simp, "", ?_⟩
    rw [String.append_empty]
  · obtain ⟨taken, piece, rest, hpieces, hrefused, hwrite⟩ := write_of_lt (Nat.lt_of_not_le hle)
    rw [hwrite]
    refine ⟨by simp [hle], by simp, ?_, String.join (piece :: rest), ?_⟩
    · simp only [true_iff]
      exact ⟨taken, piece, rest, hpieces, hrefused, rfl⟩
    · rw [text, hpieces, String.join_append]

end Listing
end ParamAtlas
