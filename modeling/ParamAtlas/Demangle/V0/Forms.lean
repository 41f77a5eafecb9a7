/-
# Forms of the v0 scheme

| path | shown |
| --- | --- |
| `C` mark name | name |
| `N` kind path mark name | path`::`name |
| `M` mark path type | `<`type`>` |
| `X` mark path type path | `<`type` as `path`>` |
| `Y` type path | `<`type` as `path`>` |
| `I` path arguments `E` | path`<`arguments`>`, in a value path`::<`arguments`>` |
| `B` number | the path at that place of the symbol |

| type | shown |
| --- | --- |
| a letter of `basicTypes` | its name |
| `R` `Q` [`L` number] type | `&`type, `&mut `type |
| `P` `O` type | `*const `type, `*mut `type |
| `A` type constant, `S` type | `[`type`; `constant`]`, `[`type`]` |
| `T` types `E` | `(`types`)` |
| `F` [`U`] [`K` name] types `E` type | `fn(`types`) -> `type |
| `D` traits `E` `L` number | `dyn `traits |
| `W` type pattern | type` is `pattern |
| `w` type | `#[splat] `type |

A constant is a type letter and its value; `p` stands for one left open.
-/
import ParamAtlas.Demangle.V0.Speller
import ParamAtlas.Text.Quoted
import ParamAtlas.Text.Pieces

namespace ParamAtlas
namespace Demangle
namespace V0

open Speller

/-- The types written as one letter. -/
def basicTypes : List (Char × String) :=
  [('b', "bool"), ('c', "char"), ('e', "str"), ('u', "()"), ('a', "i8"), ('s', "i16"), ('l', "i32"),
    ('x', "i64"), ('n', "i128"), ('i', "isize"), ('h', "u8"), ('t', "u16"), ('m', "u32"),
    ('y', "u64"), ('o', "u128"), ('j', "usize"), ('f', "f32"), ('d', "f64"), ('z', "!"),
    ('p', "_"), ('v', "...")]

/-- An argument of a path: a lifetime, a constant or a type. -/
def argument (l : Level) : Speller Unit := do
  if ← eat 'L' then reading Token.number lifetime
  else if ← eat 'K' then l.constant false
  else l.type

/-- What a name without a name of its own is called. -/
def kindName (kind : Char) : String :=
  match kind with
  | 'C' => "closure"
  | 'S' => "shim"
  | _ => String.singleton kind

/-- A path. -/
def path (below : List Level) (inValue : Bool) : Speller Unit :=
  descend below fun l deeper => reading Token.next fun tag =>
    match tag with
    | 'C' => reading Token.disambiguator fun _ => reading Identifier.token fun name =>
      sayAll name.pieces
    | 'N' => reading Token.namespaceKind fun kind => do
      l.path inValue
      if ← isFaulty then say "::"
      reading Token.disambiguator fun number => reading Identifier.token fun name =>
        match kind with
        | some kind => do
          sayAll ["::\x7b", kindName kind]
          if !name.isEmpty then sayAll (":" :: name.pieces)
          sayAll ["#", toString number, "\x7d"]
        | none => if name.isEmpty then pure () else sayAll ("::" :: name.pieces)
    | 'M' => reading Token.disambiguator fun _ => do
      silently (l.path false)
      say "<"
      l.type
      say ">"
    | 'X' => reading Token.disambiguator fun _ => do
      silently (l.path false)
      asTrait l
    | 'Y' => asTrait l
    | 'I' => do
      l.path inValue
      if inValue then say "::"
      say "<"
      let _ ← items (argument l) ", "
      say ">"
    | 'B' => do
      let _ ← elsewhere (deeper.head?.map fun far => do far.path inValue; return false)
    | _ => fault .malformed
where
  /-- A type seen as one that has a trait. -/
  asTrait (l : Level) : Speller Unit := do
    say "<"
    l.type
    say " as "
    l.path false
    say ">"

/-- The path of a trait, whose arguments may go on: whether they do. -/
def traitPath : List Level → Speller Bool
  | [] => do fault .tooDeep; return false
  | l :: deeper => do
    if ← eat 'B' then elsewhere (deeper.head?.map fun _ => traitPath deeper)
    else if ← eat 'I' then
      l.path false
      say "<"
      let _ ← items (argument l) ", "
      return true
    else
      l.path false
      return false

/-- Up to `count` associated types and constants of a trait, whose arguments may
be open. -/
def associated (l : Level) (isOpen : Bool) : (count : Nat) → Speller Unit
  | 0 => if isOpen then say ">" else return
  | n + 1 => do
    if ← eat 'p' then
      say (if isOpen then ", " else "<")
      reading Identifier.token fun name => do
        sayAll (name.pieces ++ [" = "])
        if ← eat 'K' then l.constant false else l.type
        associated l true n
    else if isOpen then say ">"

/-- A trait with its associated types and constants, each of which takes
characters. -/
def trait (l : Level) (deeper : List Level) : Speller Unit := do
  let isOpen ← traitPath (l :: deeper)
  match (← get).rest with
  | .error _ => associated l isOpen 0
  | .ok rest => associated l isOpen rest.length

/-- Up to `count` more patterns up to an `E`, which none can stand for after a
fault. -/
def alternatives (one : Speller Unit) : (count : Nat) → Speller Unit
  | 0 => return
  | n + 1 => do
    if ← eat 'E' then return
    if ← isFaulty then fault .malformed
    else
      say " | "
      one
      alternatives one n

/-- A pattern that the values of a type match. -/
def pattern : List Level → Speller Unit
  | [] => fault .tooDeep
  | l :: deeper =>
    reading Token.next fun tag =>
      match tag with
      | 'R' => do
        l.constant false
        say "..="
        l.constant false
      | 'O' =>
        if deeper.isEmpty then fault .tooDeep
        else do
          pattern deeper
          match (← get).rest with
          | .error _ => alternatives (pattern deeper) 1
          | .ok rest => alternatives (pattern deeper) (rest.length + 1)
      | 'N' => say "!null"
      | _ => fault .malformed

/-- The calling convention of a function. -/
def convention (go : List String → Speller Unit) : Speller Unit := do
  if ← eat 'K' then
    if ← eat 'C' then go ["extern \"", "C", "\" "]
    else reading Identifier.token fun name =>
      if name.ascii.isEmpty || !name.punycode.isEmpty then fault .malformed
      else
        let parts := (Text.pieces '_' name.ascii).map String.ofList
        go ("extern \"" :: parts.intersperse "-" ++ ["\" "])
  else go []

/-- A function type, after its letter and its lifetimes. -/
def function (l : Level) : Speller Unit := do
  let isUnsafe ← eat 'U'
  convention fun pieces => do
    if isUnsafe then say "unsafe "
    sayAll pieces
    say "fn("
    let _ ← items l.type ", "
    say ")"
    if ← eat 'u' then return
    say " -> "
    l.type

/-- Items in round brackets; one alone has a comma. -/
def tuple (one : Speller Unit) : Speller Unit := do
  say "("
  let count ← items one ", "
  if count = 1 then say ","
  say ")"

/-- A type. -/
def type (below : List Level) : Speller Unit := do
  let start := (← get).rest
  reading Token.next fun tag =>
    match basicTypes.lookup tag with
    | some name => say name
    | none => descend below fun l deeper =>
      match tag with
      | 'R' => do say "&"; borrowed l.type
      | 'Q' => do say "&"; borrowed do say "mut "; l.type
      | 'P' => do say "*"; say "const "; l.type
      | 'O' => do say "*"; say "mut "; l.type
      | 'A' => do say "["; l.type; say "; "; l.constant true; say "]"
      | 'S' => do say "["; l.type; say "]"
      | 'T' => tuple l.type
      | 'F' => binding (function l)
      | 'D' => do
        say "dyn "
        binding do let _ ← items (trait l deeper) " + "
        if ← eat 'L' then
          reading Token.number fun index => do
            if index ≠ 0 then
              say " + "
              lifetime index
        else fault .malformed
      | 'W' => do l.type; say " is "; pattern (l :: deeper)
      | 'w' => do say "#[splat] "; l.type
      | 'B' => do let _ ← elsewhere (deeper.head?.map fun far => do far.type; return false)
      | _ => do
        modify fun p => { p with rest := start }
        l.path false
where
  /-- What follows the sign of a reference, whose lifetime is shown if it has a
  name or a letter of its own. -/
  borrowed (go : Speller Unit) : Speller Unit := do
    if ← eat 'L' then
      reading Token.number fun index => do
        if index ≠ 0 then
          lifetime index
          say " "
        go
    else go

/-- A whole number, in hexadecimal if it has more than 64 bits. -/
def wholeNumber : Speller Unit :=
  reading Token.hex fun ds =>
    match Hexadecimal.number? ds with
    | some n => say (toString n)
    | none => sayAll ["0x", String.ofList ds]

/-- Characters between quotes. -/
def quoted (quote : Char) (cs : List Char) : Speller Unit := do
  say (String.singleton quote)
  sayAll (cs.flatMap fun c => (Text.quotedChar quote c).map String.singleton)
  say (String.singleton quote)

/-- A text between quotes. -/
def quotedText : Speller Unit :=
  reading Token.hex fun ds =>
    match Hexadecimal.text? ds with
    | some text => quoted '"' text.toList
    | none => fault .malformed

/-- A field with its value. -/
def field (l : Level) : Speller Unit :=
  reading Token.disambiguator fun _ => reading Identifier.token fun name => do
    sayAll (name.pieces ++ [": "])
    l.constant true

/-- A constant.  What is not a literal stands in braces outside a value. -/
def constant (below : List Level) (inValue : Bool) : Speller Unit :=
  reading Token.next fun tag => descend below fun l deeper =>
    match tag with
    | 'p' => say "_"
    | 'b' => reading Token.hex fun ds =>
      match Hexadecimal.number? ds with
      | some 0 => say "false"
      | some 1 => say "true"
      | _ => fault .malformed
    | 'c' => reading Token.hex fun ds =>
      match Hexadecimal.char? ds with
      | some c => quoted '\'' [c]
      | none => fault .malformed
    | 'e' => braced fun close => do say "*"; quotedText; close
    | 'R' => do
      if ← eat 'e' then quotedText
      else braced fun close => do say "&"; l.constant true; close
    | 'Q' => braced fun close => do say "&"; say "mut "; l.constant true; close
    | 'A' => braced fun close => do
      say "["
      let _ ← items (l.constant true) ", "
      say "]"
      close
    | 'T' => braced fun close => do tuple (l.constant true); close
    | 'V' => braced fun close => do
      l.path true
      reading Token.next fun shape =>
        match shape with
        | 'U' => close
        | 'T' => do
          say "("
          let _ ← items (l.constant true) ", "
          say ")"
          close
        | 'S' => do
          say " \x7b "
          let _ ← items (field l) ", "
          say " \x7d"
          close
        | _ => fault .malformed
    | 'B' => do
      let _ ← elsewhere (deeper.head?.map fun far => do far.constant inValue; return false)
    | _ =>
      if "htmyoj".toList.contains tag then wholeNumber
      else if "aslxni".toList.contains tag then do
        if ← eat 'n' then say "-"
        wholeNumber
      else fault .malformed
where
  /-- Opens braces outside a value; `go` is told how to close them. -/
  braced (go : Speller Unit → Speller Unit) : Speller Unit :=
    if inValue then go (pure ())
    else do
      say "\x7b"
      go (say "\x7d")

/-- The levels from a depth on, the topmost first. -/
def levels : (count : Nat) → List Level
  | 0 => []
  | n + 1 =>
    let below := levels n
    ⟨path below, type below, constant below⟩ :: below

end V0
end Demangle
end ParamAtlas
