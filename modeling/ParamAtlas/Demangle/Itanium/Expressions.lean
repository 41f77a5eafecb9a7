/-
# Expressions and special names of the Itanium scheme

An expression is read into the pieces that it is written out with.  As a part of
another one it stands in brackets, here `(a)`, except for parameters of functions
and things with a symbol of their own.

| expression | written out |
| --- | --- |
| operator with one operand | sign`(a)`, with the signs for steps behind it |
| `pp_`, `mm_` | `++`a, `--`a |
| operator with two operands | `(a)`sign`(b)`, with `>` in brackets of its own |
| `qu` | `(a)?(b) : (c)` |
| call | `(a)(`arguments`)` |
| conversion | `(`type`)(`argument`)`, type`(`arguments`)` |
| access to a member | `(a).`name, a`->`name |
| fold | `(...`sign`(a))`, `((a)`sign`...)`, `((a)`sign`...`sign`(b))` |
| cast | `dynamic_cast<`type`>(`a`)` and so on |
| literal | its value, with the type before it unless that is `int` or `bool` |
| parameter of a function | `{parm#1}`, counted from 1 |

A special name is that of something the compiler made for a type or a name.
-/
import ParamAtlas.Demangle.Itanium.Grammar

namespace ParamAtlas
namespace Demangle
namespace Itanium
namespace Grammar

open Reader

/-- Pieces with commas between them. -/
def listed (pieces : List Piece) : List Piece := pieces.intersperse (.text ", ")

/-- Pieces between two texts. -/
def between (opening : String) (pieces : List Piece) (closing : String) : List Piece :=
  .text opening :: pieces ++ [.text closing]

/-- Expressions up to an `E`, with commas between them. -/
def list (g : Grammar) : Reader (List Piece) := do
  let es ← many g.expression
  expect "E"
  return listed (es.map Expression.piece)

/-! ### Literals and parameters -/

/-- The pieces of a literal of a type. -/
def literalPieces (t : Ref) (value : String) : List Piece :=
  let (sign, digits) := match value.toList with
    | 'n' :: digits => ("-", digits)
    | _ => ("", value.toList)
  let typed : List Piece := [.text "(", .ref t, .text ")"]
  let plain : List Piece := [.text sign, .text (String.ofList digits)]
  match t with
  | .builtin "bool" =>
    if value = "0" then [.text "false"]
    else if value = "1" then [.text "true"]
    else typed ++ plain
  | .builtin "std::nullptr_t" => [.text "nullptr"]
  | .builtin "int" => plain
  | .builtin name =>
    if name = "float" ∨ name = "double" then
      typed ++ [.text (sign ++ "["), .text (String.ofList digits), .text "]"]
    else typed ++ plain
  | _ => typed ++ plain

/-- The text that characters stand for the bytes of. -/
def textOf? (cs : List Char) : Option String :=
  String.fromUTF8? ⟨(cs.map fun c => UInt8.ofNat c.toNat).toArray⟩

/-- A literal, or something with a symbol of its own, which stands alone. -/
def readLiteral (g : Grammar) : Reader Expression := do
  expect "L"
  if let some t ← attempt g.type then
    let value ← takeWhile (· != 'E')
    expect "E"
    match textOf? value with
    | some value => return ⟨literalPieces t value, false⟩
    | none => mismatch
  let pieces ← g.mangled
  expect "E"
  return ⟨[.group pieces], true⟩

/-- A parameter of a function. -/
def functionParameter (g : Grammar) : Reader (List Piece) := g.word 1 do
  expect "f"
  if ← eat "L" then let _ ← number
  expect "p"
  let _ ← g.word 2 qualifiers
  if ← eat "T" then return [.text "this"]
  return [.text ("\x7bparm#" ++ toString ((← index 10) + 1) ++ "\x7d")]

/-! ### Names that depend on parameters -/

/-- A name, with arguments or not. -/
def readSimpleName (g : Grammar) : Reader (List Piece) := do
  let name ← g.sourceName 0
  match ← attempt g.arguments with
  | some args => return [.source name, .arguments args]
  | none => return [.source name]

/-- A type that depends on parameters. -/
def readUnresolvedType (g : Grammar) : Reader Ref := do
  if let some n ← attempt g.parameter then
    match ← attempt g.arguments with
    | some args => return ← enter (.pieces [.parameter n, .arguments args])
    | none => return ← enter (.pieces [.parameter n])
  if let some pieces ← attempt g.decltype then return ← enter (.pieces [.group pieces])
  g.reference

/-- The name of a destructor. -/
def readDestructorName (g : Grammar) : Reader (List Piece) := do
  match ← attempt g.unresolvedType with
  | some t => return [.text "~", .ref t]
  | none => return [.text "~", .group (← g.simpleName)]

/-- The last part of a name that depends on parameters. -/
def readUnresolvedBase (g : Grammar) : Reader (List Piece) := do
  if let some pieces ← attempt g.simpleName then return [.group pieces]
  if ← eat "on" then
    let (op, _) ← g.operator true
    match ← attempt g.arguments with
    | some args => return [.operator op, .arguments args]
    | none => return [.operator op]
  expect "dn"
  return [.group (← g.destructorName)]

/-- Scopes of a name that depends on parameters. -/
def levels (g : Grammar) : Reader (List Piece) := do
  let names ← manyOne g.unresolvedLevel
  expect "E"
  return names.flatMap fun pieces => [.group pieces, .text "::"]

/-- A name that depends on parameters. -/
def readUnresolved (g : Grammar) : Reader (List Piece) := do
  if ← eat "gs" then
    if let some pieces ← attempt g.unresolvedBase then return [.text "::", .group pieces]
    expect "sr"
    let scopes ← levels g
    return .text "::" :: scopes ++ [.group (← g.unresolvedBase)]
  if let some pieces ← attempt g.unresolvedBase then return [.group pieces]
  expect "sr"
  if ← eat "N" then
    let t ← g.unresolvedType
    let scopes ← levels g
    return .ref t :: .text "::" :: scopes ++ [.group (← g.unresolvedBase)]
  if let some t ← attempt g.unresolvedType then
    return [.ref t, .text "::", .group (← g.unresolvedBase)]
  let scopes ← levels g
  return scopes ++ [.group (← g.unresolvedBase)]

/-- The name of a member, in brackets if it has arguments. -/
def readMember (g : Grammar) : Reader (List Piece) := do
  let name ← g.unqualified
  match ← attempt g.arguments with
  | some args =>
    let base ← note (.template false name)
    return between "(" [.name (.template base args)] ")"
  | none => return [.name (.unscoped false name)]

/-! ### Expressions -/

/-- An allocation or its end, of the global kind or not. -/
def allocation (g : Grammar) (global : String) : Reader (List Piece) := do
  if ← eat "nw" then new (global ++ "new (")
  else if ← eat "na" then new (global ++ "new[] (")
  else if ← eat "dl" then return [.text (global ++ "delete "), (← g.expression).piece]
  else
    expect "da"
    return [.text (global ++ "delete[] "), (← g.expression).piece]
where
  /-- An allocation after its code: where, of what type, with what values. -/
  new (opening : String) : Reader (List Piece) := do
    let placement ← many g.expression
    expect "_"
    let t ← g.type
    let head := between opening (listed (placement.map Expression.piece)) ") " ++ [.ref t]
    if ← eat "E" then return head
    return head ++ [.group (← g.initializer)]

/-- The values that an allocation starts with. -/
def readInitializer (g : Grammar) : Reader (List Piece) := do
  expect "pi"
  return between "(" (← list g) ")"

/-- A part of an object, at an offset in it. -/
def readSubobject (g : Grammar) : Reader (List Piece) := do
  let t ← g.type
  let e ← g.expression
  let offset := (← attempt integer).getD 0
  expect "E"
  return [e.piece, .text ".<", .ref t, .text (" at offset " ++ toString offset ++ ">")]

/-- The kinds of folds: from the left or not, and with a first value or not. -/
def folds : List (String × Bool × Bool) :=
  [("fl", true, false), ("fr", false, false), ("fL", true, true), ("fR", false, true)]

/-- An operator with two operands over the values of a pack. -/
def readFold (g : Grammar) : Reader (List Piece) := do
  let (fromLeft, hasFirst) ← oneOf folds
  let (op, arity) ← g.operator false
  if arity ≠ 2 then mismatch
  let a ← g.expression
  if hasFirst then
    let b ← g.expression
    return between "(" (a.operand ++ [.operator op, .text "...", .operator op] ++ b.operand) ")"
  else if fromLeft then return between "(..." (.operator op :: a.operand) ")"
  else return between "(" (a.operand ++ [.operator op]) "...)"

/-- The casts that are written with a word. -/
def casts : List (String × String) :=
  [("dc", "dynamic_cast<"), ("sc", "static_cast<"), ("cc", "const_cast<"),
    ("rc", "reinterpret_cast<")]

/-- Questions about a type. -/
def typeQueries : List (String × String) :=
  [("ti", "typeid ("), ("st", "sizeof ("), ("at", "alignof (")]

/-- Questions about an expression. -/
def valueQueries : List (String × String) :=
  [("te", "typeid ("), ("sz", "sizeof ("), ("az", "alignof ("), ("nx", "noexcept (")]

/-- An operator with its operands. -/
def operation (g : Grammar) : Reader (List Piece) := do
  let (op, arity) ← g.operator false
  match arity with
  | 1 =>
    let a ← g.expression
    match op with
    | .sign "++" _ => return a.operand ++ [.operator op]
    | .sign "--" _ => return a.operand ++ [.operator op]
    | _ => return .operator op :: a.operand
  | 2 =>
    let a ← g.expression
    let b ← g.expression
    match op with
    | .sign ">" _ => return between "(" (a.operand ++ [.text ">"] ++ b.operand) ")"
    | _ => return a.operand ++ [.operator op] ++ b.operand
  | 3 =>
    let a ← g.expression
    let b ← g.expression
    let c ← g.expression
    match op with
    | .sign "?:" _ => return a.operand ++ .text "?" :: b.operand ++ .text " : " :: c.operand
    | _ => return .operator op :: between "(" (listed [a.piece, b.piece, c.piece]) ")"
  | _ => mismatch

/-- An expression. -/
def readExpression (g : Grammar) : Reader Expression := do
  if ← eat "pp_" then return ⟨[.text "++", (← g.expression).piece], false⟩
  if ← eat "mm_" then return ⟨[.text "--", (← g.expression).piece], false⟩
  if ← eat "cl" then
    let f ← g.expression
    return ⟨f.operand ++ between "(" (← list g) ")", false⟩
  if ← eat "cv" then
    let t ← g.type
    if ← eat "_" then return ⟨.ref t :: between "(" (← list g) ")", false⟩
    return ⟨between "(" [.ref t] ")(" ++ [(← g.expression).piece, .text ")"], false⟩
  if ← eat "tl" then
    let t ← g.type
    return ⟨.ref t :: between "\x7b" (← list g) "\x7d", false⟩
  if ← eat "il" then return ⟨between "\x7b" (← list g) "\x7d", false⟩
  let start := (← get).rest
  if ← eat "gs" then
    if let some pieces ← attempt (allocation g "::") then return ⟨pieces, false⟩
    modify fun s => { s with rest := start }
  if let some opening ← attempt (oneOf casts) then
    let t ← g.type
    return ⟨between opening [.ref t] ">(" ++ [(← g.expression).piece, .text ")"], false⟩
  if let some opening ← attempt (oneOf typeQueries) then
    return ⟨between opening [.ref (← g.type)] ")", false⟩
  if let some opening ← attempt (oneOf valueQueries) then
    return ⟨between opening [(← g.expression).piece] ")", false⟩
  if ← eat "so" then return ⟨[.group (← g.subobject)], false⟩
  if ← eat "dt" then
    let e ← g.expression
    return ⟨e.operand ++ [.text ".", .group (← g.member)], false⟩
  if ← eat "pt" then
    let e ← g.expression
    return ⟨[e.piece, .text "->", .group (← g.member)], false⟩
  if ← eat "ds" then
    let e ← g.expression
    return ⟨[e.piece, .text ".*", (← g.expression).piece], false⟩
  if ← eat "sZ" then
    if let some n ← attempt g.parameter then
      return ⟨between "sizeof...(" [.parameter n] ")", false⟩
    return ⟨between "sizeof...(" [.group (← functionParameter g)] ")", false⟩
  if ← eat "sP" then
    let args ← many g.argument
    expect "E"
    return ⟨between "sizeof...(" (listed (args.map Piece.argument)) ")", false⟩
  if ← eat "sp" then return ⟨(← g.expression).operand ++ [.text "..."], false⟩
  if ← eat "tw" then return ⟨[.text "throw ", (← g.expression).piece], false⟩
  if ← eat "tr" then return ⟨[.text "throw"], false⟩
  if let some pieces ← attempt g.fold then return ⟨[.group pieces], false⟩
  if let some pieces ← attempt (allocation g "") then return ⟨pieces, false⟩
  if let some n ← attempt g.parameter then return ⟨[.parameter n], false⟩
  if let some pieces ← attempt (functionParameter g) then return ⟨[.group pieces], true⟩
  if let some pieces ← attempt g.unresolved then return ⟨[.group pieces], false⟩
  if let some e ← attempt g.literal then return ⟨[e.piece], e.standsAlone⟩
  return ⟨← operation g, false⟩

/-! ### Special names -/

/-- What is made for a type. -/
def forTypes : List (String × String × String) :=
  [("TV", "\x7bvtable(", ")\x7d"), ("TT", "\x7bvtt(", ")\x7d"), ("TI", "typeinfo for ", ""),
    ("TS", "typeinfo name for ", ""), ("TF", "typeinfo fn for ", "")]

/-- What is made for a name. -/
def forNames : List (String × String) :=
  [("TH", "TLS init function for "), ("TW", "TLS wrapper function for "),
    ("GV", "guard variable for ")]

/-- How the object of a call is found from the one at hand. -/
def callOffset : Reader String := do
  if ← eat "h" then
    let n ← integer
    expect "_"
    return "\x7boffset(" ++ toString n ++ ")\x7d"
  expect "v"
  let n ← integer
  expect "_"
  let m ← integer
  expect "_"
  return "\x7bvirtual offset(" ++ toString n ++ ", " ++ toString m ++ ")\x7d"

/-- The characters of a resource name, which is in parts of other characters than
`$`.  Each part may have `$S`, `$_` or `$$` behind it, for a slash, a period or a
dollar sign. -/
def resourceName : List Char → Option (List Char)
  | [] => some []
  | c :: cs => if c = '$' then none else (c :: ·) <$> goOn cs
where
  /-- The characters behind one of a part. -/
  goOn : List Char → Option (List Char)
    | [] => some []
    | '$' :: 'S' :: cs => ('/' :: ·) <$> resourceName cs
    | '$' :: '_' :: cs => ('.' :: ·) <$> resourceName cs
    | '$' :: '$' :: cs => ('$' :: ·) <$> resourceName cs
    | c :: cs => if c = '$' then none else (c :: ·) <$> goOn cs

/-- A resource name after its length, which counts the `_` too. -/
def resource : Reader String := do
  let size ← number
  let rest := (← get).rest
  if size = 0 ∨ rest.length < size then mismatch
  expect "_"
  match resourceName ((rest.take size).drop 1) with
  | none => mismatch
  | some cs =>
    modify fun s => { s with rest := rest.drop size }
    return String.ofList cs

/-- A special name. -/
def readSpecial (g : Grammar) : Reader (List Piece) := do
  if let some (opening, closing) ← attempt (oneOf forTypes) then
    return between opening [.ref (← g.type)] closing
  if let some text ← attempt (oneOf forNames) then return [.text text, .name (← g.name)]
  if ← eat "GT" then
    let text := if (← next) = 'n' then "non-transaction clone for " else "transaction clone for "
    return [.text text, .encoding (← g.encoding)]
  if ← eat "Tc" then
    let this ← callOffset
    let result ← callOffset
    return between ("\x7bvirtual override thunk(" ++ this ++ ", " ++ result ++ ", ")
      [.encoding (← g.encoding)] ")\x7d"
  if ← eat "TC" then
    let t ← g.type
    let _ ← number
    expect "_"
    return [.text "construction vtable for ", .ref t, .text "-in-", .ref (← g.type)]
  if ← eat "GR" then
    let name ← g.name
    let n ← if ← eat "_" then pure 0 else do
      let n ← digits 36
      expect "_"
      pure (n + 1)
    return [.text ("reference temporary #" ++ toString n ++ " for "), .name name]
  if ← eat "Gr" then return [.text "java resource ", .text (← resource)]
  expect "T"
  let offset ← callOffset
  let target : List Piece := [.encoding (← g.encoding)]
  return between ("\x7bvirtual override thunk(" ++ offset ++ ", ") target ")\x7d"

/-! ### Symbols -/

/-- A mark for a copy of a function that the compiler made. -/
def clone : Reader (List Piece) := do
  expect "."
  let kind ← takeWhile fun c => c.isAlphanum || c = '$' || c = '_'
  if kind.isEmpty then mismatch
  let numbers ← many do expect "."; number
  let parts := String.ofList kind :: numbers.map toString
  return [.text (" [clone ." ++ ".".intercalate parts ++ "]")]

/-- What runs before or after the program, with the symbol that it is named for. -/
def readKeyed (g : Grammar) : Reader (List Piece) := do
  if !"_.$".toList.contains (← next) then mismatch
  let text ← oneOf [("I_", "global constructors keyed to "), ("D_", "global destructors keyed to ")]
  return [.text text, .group (← g.mangled)]

/-- A symbol: a name with its copies, the code of a block, something that runs
before or after the program, or a type alone. -/
def readMangled (g : Grammar) : Reader (List Piece) := do
  if ← eat "_Z" <||> eat "__Z" then
    let e ← g.encoding
    return .encoding e :: (← many clone).flatten
  if ← eat "___Z" <||> eat "____Z" then
    let e ← g.encoding
    expect "_block_invoke"
    if ← eat "_" <||> eat "." then let _ ← number
    else let _ ← attempt number
    return [.text "invocation function for block in ", .encoding e]
  if ← eat "_GLOBAL_" then return [.group (← g.keyed)]
  return [.ref (← g.type)]

/-! ### Levels -/

/-- The level below which there is none. -/
def bottom : Grammar where
  height := 0
  mangled := throw .tooDeep
  keyed := throw .tooDeep
  encoding := throw .tooDeep
  special := throw .tooDeep
  types := throw .tooDeep
  name := throw .tooDeep
  nested := throw .tooDeep
  unscoped := throw .tooDeep
  templateName := throw .tooDeep
  localName := throw .tooDeep
  unqualified := throw .tooDeep
  operator _ := throw .tooDeep
  structor := throw .tooDeep
  closure := throw .tooDeep
  closureTypes := throw .tooDeep
  scope := throw .tooDeep
  scopeStep _ := throw .tooDeep
  type := throw .tooDeep
  builtin := throw .tooDeep
  sizedBuiltin := throw .tooDeep
  className := throw .tooDeep
  function := throw .tooDeep
  exceptions := throw .tooDeep
  array := throw .tooDeep
  vector := throw .tooDeep
  memberPointer := throw .tooDeep
  templateTemplate := throw .tooDeep
  decltype := throw .tooDeep
  arguments := throw .tooDeep
  argument := throw .tooDeep
  expression := throw .tooDeep
  fold := throw .tooDeep
  subobject := throw .tooDeep
  member := throw .tooDeep
  initializer := throw .tooDeep
  literal := throw .tooDeep
  unresolved := throw .tooDeep
  unresolvedBase := throw .tooDeep
  unresolvedType := throw .tooDeep
  unresolvedLevel := throw .tooDeep
  destructorName := throw .tooDeep
  simpleName := throw .tooDeep

/-- The level above another one. -/
def above (g : Grammar) : Grammar where
  height := g.height + 1
  mangled := readMangled g
  keyed := readKeyed g
  encoding := readEncoding g
  special := readSpecial g
  types := manyOne g.type
  name := readName g
  nested := readNested g
  unscoped := readUnscoped g
  templateName := readTemplateName g
  localName := readLocalName g
  unqualified := readUnqualified g
  operator := readOperator g
  structor := readStructor g
  closure := readClosure g
  closureTypes := readClosureTypes g
  scope := readScope g
  scopeStep := readScopeStep g
  type := readType g
  builtin := readBuiltin g
  sizedBuiltin := readSizedBuiltin g
  className := readClassName g
  function := readFunction g
  exceptions := readExceptions g
  array := readArray g
  vector := readVector g
  memberPointer := readMemberPointer g
  templateTemplate := readTemplateTemplate g
  decltype := readDecltype g
  arguments := readArguments g
  argument := readArgument g
  expression := readExpression g
  fold := readFold g
  subobject := readSubobject g
  member := readMember g
  initializer := readInitializer g
  literal := readLiteral g
  unresolved := readUnresolved g
  unresolvedBase := readUnresolvedBase g
  unresolvedType := readUnresolvedType g
  unresolvedLevel := g.simpleName
  destructorName := readDestructorName g
  simpleName := readSimpleName g

/-- The topmost of so many levels. -/
def top : (count : Nat) → Grammar
  | 0 => bottom
  | n + 1 => above (top n)

end Grammar

/-- How deep forms nest in a symbol. -/
def readingDepth : Nat := 95

/-- The pieces of a symbol and its table, if all of it can be read. -/
def read? (cs : List Char) : Option (List Piece × Table) :=
  match (Grammar.top readingDepth).mangled false { rest := cs } with
  | (.ok pieces, s) => if s.rest.isEmpty then some (pieces, s.table) else none
  | (.error _, _) => none

end Itanium
end Demangle
end ParamAtlas
