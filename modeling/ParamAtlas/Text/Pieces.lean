/-
# Pieces of text

Text with separators in it is cut into pieces, one more than there are
separators; with the separators put back between them the pieces are the text
again.
-/

namespace ParamAtlas
namespace Text

/-- The pieces of characters between separators. -/
def pieces (separator : Char) : List Char → List (List Char)
  | [] => [[]]
  | c :: cs =>
    if c = separator then [] :: pieces separator cs
    else
      match pieces separator cs with
      | [] => [[c]]
      | piece :: rest => (c :: piece) :: rest

/-- Pieces with a separator between each two of them. -/
def joined (separator : Char) (ps : List (List Char)) : List Char := [separator].intercalate ps

/-- There is always a piece. -/
theorem pieces_ne_nil (separator : Char) (cs : List Char) : pieces separator cs ≠ [] := by
  cases cs with
  | nil => simp [pieces]
  | cons c cs =>
    simp only [pieces]
    split
    · simp
    · split <;> simp

/-- Nothing is lost by cutting. -/
theorem joined_pieces (separator : Char) (cs : List Char) :
    joined separator (pieces separator cs) = cs := by
  fun_induction pieces separator cs with
  | case1 => rfl
  | case2 cs ih =>
    cases h : pieces separator cs with
    | nil => exact absurd h (pieces_ne_nil _ _)
    | cons p ps => rw [h] at ih; simpa [joined, List.intercalate] using ih
  | case3 c cs _ h => exact absurd h (pieces_ne_nil _ _)
  | case4 c cs _ p ps h ih =>
    rw [h] at ih
    cases ps <;> simp_all [joined, List.intercalate]

end Text
end ParamAtlas
