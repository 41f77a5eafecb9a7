/-
# Legacy paths

The older of the schemes that `demangle_name` tries first.

A path is written `_ZN`, its elements, `E`; an element is its length in decimal
and then its characters.  The last element is usually a hash, `h` and
hexadecimal digits, and is not shown.  Inside an element

| written | shown |
| --- | --- |
| `_$` at the start | `$` |
| `..` | `::` |
| `$SP$` `$BP$` `$RF$` `$LT$` `$GT$` `$LP$` `$RP$` `$C$` | `@` `*` `&` `<` `>` `(` `)` `,` |
| `$u7b$` | the character with that hexadecimal number, unless it is a control |

and from the first escape that is none of these on everything is shown as it is.
-/
import ParamAtlas.Text.Digit
import ParamAtlas.Text.Pieces
import ParamAtlas.Text.Sheet

namespace ParamAtlas
namespace Demangle
namespace Legacy

/-- The elements of a path up to its `E`, and the characters after that. -/
def elements : List Char → Option (List (List Char) × List Char)
  | [] => none
  | 'E' :: cs => some ([], cs)
  | c :: cs =>
    if c.isDigit then
      let l := Text.decimals (c.toNat - '0'.toNat) cs
      match _h : l.2.drop l.1 with
      | [] => none
      | d :: ds => do
        let (es, rest) ← elements (d :: ds)
        some (l.2.take l.1 :: es, rest)
    else none
termination_by cs => cs.length
decreasing_by
  have shorter := Text.length_decimals_le (c.toNat - '0'.toNat) cs
  have dropped := congrArg List.length _h
  simp only [List.length_drop, List.length_cons, l] at dropped ⊢
  omega

/-- Whether an element is a hash. -/
def isHash : List Char → Bool
  | 'h' :: cs => cs.all Text.isHexDigit
  | _ => false

/-- The named escapes. -/
def named : List (String × String) :=
  [("SP", "@"), ("BP", "*"), ("RF", "&"), ("LT", "<"), ("GT", ">"), ("LP", "("), ("RP", ")"),
    ("C", ",")]

/-- The value of lower-case hexadecimal digits. -/
def hexValue? (cs : List Char) : Option Nat :=
  cs.foldlM (fun n c =>
    if c.isDigit then some (n * 16 + (c.toNat - '0'.toNat))
    else if 'a' ≤ c ∧ c ≤ 'f' then some (n * 16 + (c.toNat - 'a'.toNat + 10))
    else none) 0

/-- The character with a number, unless it is a control. -/
def visible? (n : Nat) : Option Char :=
  if n.isValidChar ∧ ¬(n < 0x20 ∨ (0x7f ≤ n ∧ n < 0xa0)) then some (Char.ofNat n) else none

/-- What an escape stands for. -/
def escape? (cs : List Char) : Option String :=
  match named.lookup (String.ofList cs) with
  | some s => some s
  | none =>
    match cs with
    | 'u' :: c :: ds => do some (String.singleton (← visible? (← hexValue? (c :: ds))))
    | _ => none

/-- The pieces that show an element. -/
def shown (cs : List Char) : List String :=
  match cs with
  | '.' :: '.' :: rest => "::" :: shown rest
  | '.' :: rest => "." :: shown rest
  | '$' :: rest =>
    match _h : rest.dropWhile (· != '$') with
    | [] => [String.ofList cs]
    | _ :: after =>
      match escape? (rest.takeWhile (· != '$')) with
      | none => [String.ofList cs]
      | some s => s :: shown after
  | c :: rest =>
    let plain := rest.takeWhile fun c => c != '$' && c != '.'
    match _h : rest.dropWhile fun c => c != '$' && c != '.' with
    | [] => [String.ofList cs]
    | d :: after => String.ofList (c :: plain) :: shown (d :: after)
  | [] => []
termination_by cs.length
decreasing_by
  · simp only [List.length_cons]; omega
  · simp only [List.length_cons]; omega
  · have := (List.dropWhile_suffix (fun c => c != '$') (l := rest)).length_le
    rw [_h] at this
    simp only [List.length_cons] at this ⊢
    omega
  · have := (List.dropWhile_suffix (fun c => c != '$' && c != '.') (l := rest)).length_le
    rw [_h] at this
    simp only [List.length_cons] at this ⊢
    omega

/-- An element without the mark that lets it start with an escape. -/
def unmarked : List Char → List Char
  | '_' :: '$' :: cs => '$' :: cs
  | cs => cs

/-- The elements without a hash at the end. -/
def withoutHash (es : List (List Char)) : List (List Char) :=
  match es.getLast? with
  | some e => if isHash e then es.dropLast else es
  | none => es

/-- The pieces that show a path. -/
def pieces (es : List (List Char)) : List String :=
  (((withoutHash es).map fun e => shown (unmarked e)).intersperse ["::"]).flatten

/-- What a symbol has after the mark of a path. -/
def body? : List Char → Option (List Char)
  | '_' :: 'Z' :: 'N' :: cs => some cs
  | 'Z' :: 'N' :: cs => some cs
  | '_' :: '_' :: 'Z' :: 'N' :: cs => some cs
  | _ => none

/-- The pieces that show a symbol, and what follows the path in it. -/
def read? (cs : List Char) : Option (List String × List Char) := do
  let body ← body? cs
  if body.all fun c => c.toNat < 0x80 then
    let (es, rest) ← elements body
    some (pieces es, rest)
  else none

end Legacy
end Demangle
end ParamAtlas
