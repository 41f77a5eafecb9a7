/-
# The listing as a JSON object

`to_json` and its pretty form; specification, section 4.5.

One key per row, in ascending order of keys, with the list of the row's
parameters as its value.

| the shown name is | key |
| --- | --- |
| that of one row only | the shown name |
| shared with another row | the name in the symbol table |

Of rows with the same key the last one counts.  In a string the quote, the
backslash and the characters below U+0020 are escaped, and nothing else.
-/
import ParamAtlas.Listing.Row

namespace ParamAtlas
namespace Listing

/-- Parameter lists by key, in ascending order of keys. -/
abbrev Document := Std.TreeMap String (List String) compare

/-- How many rows show each name. -/
def nameUses (rs : List Row) : Std.HashMap String Nat :=
  rs.foldl (fun m r => m.insert r.shown (m.getD r.shown 0 + 1)) ∅

/-- The key of a row, given how often each name is shown. -/
def key (uses : Std.HashMap String Nat) (r : Row) : String :=
  if uses.getD r.shown 0 > 1 then r.symbol else r.shown

/-- The object that rows make up. -/
def document (rs : List Row) : Document :=
  let uses := nameUses rs
  rs.foldl (fun d r => d.insert (key uses r) r.parameters) ∅

/-- The escaped form of one character in a string. -/
def escape (c : Char) : String :=
  match c with
  | '"' => "\\\""
  | '\\' => "\\\\"
  | '\n' => "\\n"
  | '\r' => "\\r"
  | '\t' => "\\t"
  | c =>
    if c.toNat = 8 then "\\b"
    else if c.toNat = 12 then "\\f"
    else if c.toNat < 32 then "\\u" ++ Hex.padded 4 c.toNat
    else c.toString

/-- Whether a character stands for itself in a string. -/
def isBare (c : Char) : Bool := escape c == c.toString

/-- A string between quotes, in pieces: an escaped character is one of its own, and so are
the characters between two of them. -/
def quoted (s : String) : List String :=
  let runs := s.toList.splitBy fun a b => isBare a && isBare b
  "\"" :: runs.map (fun run => String.join (run.map escape)) ++ ["\""]

/-- The pieces of items between an opening and a closing bracket, each item on a line of
its own `depth` steps further in; without items the brackets meet. -/
def bracketed (opening closing : String) (depth : Nat) (items : List (List String)) :
    List String :=
  match items with
  | [] => [opening, closing]
  | first :: rest =>
    let steps (d : Nat) : List String := List.replicate d "  "
    let line (lead : String) (item : List String) : List String :=
      lead :: (steps (depth + 1) ++ item)
    opening :: line "\n" first ++ rest.flatMap (line ",\n") ++ "\n" :: (steps depth ++ [closing])

/-- The text of an object, in pieces. -/
def Document.pieces (d : Document) : List String :=
  bracketed "\x7b" "\x7d" 0 <| d.toList.map fun (k, ps) =>
    quoted k ++ ": " :: bracketed "[" "]" 1 (ps.map quoted)

end Listing
end ParamAtlas
