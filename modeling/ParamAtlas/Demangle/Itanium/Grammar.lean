/-
# Names and types of the Itanium scheme

How the scheme that `demangle_name` tries last is read.

Every form is read by a production, which reads the forms inside it by the
productions one level down.  Words are forms too: they need a level or two, of
which the grammar knows how many there are below.

| form | written |
| --- | --- |
| encoding | name types, name, or special name |
| name | `N` receiver scope `E`, unscoped name, unscoped name arguments, or local name |
| receiver | `H`, or qualifiers and the kind of a reference |
| unscoped name | [`St`] unqualified name |
| local name | `Z` encoding `E` name |
| unqualified name | operator, constructor, destructor, source name, closure, unnamed type, tags |
| arguments | `I` argument … `E` |
| argument | `X` expression `E`, literal, type, or `J` argument … `E` |
| type | builtin type, class, reference to an entry, or a letter and the types it is made of |

A scope is read name by name, and each longer scope becomes an entry but for the
last one, which is the name itself.  So does each type except builtin types.
-/
import ParamAtlas.Demangle.Itanium.Reader

namespace ParamAtlas
namespace Demangle
namespace Itanium

open Reader

/-- What has been read of a scope: nothing, a scope that can be referred to, or
the last one. -/
inductive ScopeSoFar where
  | nothing
  | known (r : Ref)
  | last (s : Scope)

/-- The productions of one level, and the number of levels from it down. -/
structure Grammar where
  height : Nat
  mangled : Reader (List Piece)
  keyed : Reader (List Piece)
  encoding : Reader Encoding
  special : Reader (List Piece)
  types : Reader (List Ref)
  name : Reader Name
  nested : Reader Name
  unscoped : Reader (Bool × Unqualified)
  templateName : Reader Ref
  localName : Reader Name
  unqualified : Reader Unqualified
  operator : (isConversion : Bool) → Reader (Operator × Nat)
  structor : Reader BaseName
  closure : Reader BaseName
  closureTypes : Reader (List Ref)
  scope : Reader ScopeSoFar
  scopeStep : ScopeSoFar → Reader (Option ScopeSoFar)
  type : Reader Ref
  builtin : Reader Ref
  sizedBuiltin : Reader Ref
  className : Reader (String × Name)
  function : Reader FunctionType
  exceptions : Reader (List Piece)
  array : Reader TypeNode
  vector : Reader TypeNode
  memberPointer : Reader TypeNode
  templateTemplate : Reader Ref
  decltype : Reader (List Piece)
  arguments : Reader Arguments
  argument : Reader Argument
  expression : Reader Expression
  fold : Reader (List Piece)
  subobject : Reader (List Piece)
  member : Reader (List Piece)
  initializer : Reader (List Piece)
  literal : Reader Expression
  unresolved : Reader (List Piece)
  unresolvedBase : Reader (List Piece)
  unresolvedType : Reader Ref
  unresolvedLevel : Reader (List Piece)
  destructorName : Reader (List Piece)
  simpleName : Reader (List Piece)

namespace Grammar

/-! ### Words -/

/-- A word whose forms need so many levels. -/
def word {α : Type} (g : Grammar) (levels : Nat) (r : Reader α) : Reader α :=
  if g.height < levels then throw .tooDeep else r

/-- A name from the source, inside so many words that are not keyed on their own. -/
def sourceName (g : Grammar) (outside : Nat) : Reader String := g.word (outside + 1) do
  let cs ← sized
  g.word (outside + 2) (nameOf cs)

/-- The tags of a name. -/
def tags (g : Grammar) : Reader (List String) := g.word 1 do
  many do
    g.word 2 (expect "B")
    g.sourceName 2

/-- A reference to an entry or a component. -/
def reference (g : Grammar) : Reader Ref := g.word 2 substitution

/-- A parameter of a template. -/
def parameter (g : Grammar) : Reader Nat := g.word 1 templateParameter

/-- Qualifiers, if there are any. -/
def quals (g : Grammar) : Reader Qualifiers := g.word 1 qualifiers

/-! ### Names -/

/-- What a symbol names.  Types behind a name are those of a function. -/
def readEncoding (g : Grammar) : Reader Encoding := do
  match ← attempt g.name with
  | some name =>
    match ← attempt g.types with
    | some types => return .function name types
    | none => return .object name
  | none => return .special (← g.special)

/-- A name. -/
def readName (g : Grammar) : Reader Name := do
  if let some name ← attempt g.nested then return name
  if let some (inStd, name) ← attempt g.unscoped then
    if (← peek) = some 'I' then
      let base ← enter (.template inStd name)
      return .template base (← g.arguments)
    return .unscoped inStd name
  if let some base ← attempt g.templateName then
    return .template base (← g.arguments)
  g.localName

/-- A name of a member. -/
def readNested (g : Grammar) : Reader Name := do
  expect "N"
  let receiver ← readReceiver
  let last ← g.scope
  expect "E"
  let table := (← get).table
  let scope := match last with
    | .nothing => none
    | .last s => some s
    | .known (.entry i) => match table[i]? with
      | some (.scope s) => some s
      | _ => none
    | .known _ => none
  match scope with
  | some (.simple name) => return .nested none name receiver
  | some (.nested outer name) => return .nested (some outer) name receiver
  | some (.template outer args) => return .nestedTemplate outer args receiver
  | _ => mismatch
where
  /-- What is said of the object of a member function. -/
  readReceiver : Reader Receiver := do
    if ← eat "H" then return { isParameter := true }
    let qualifiers ← g.quals
    let reference ← attempt (g.word 1 referenceKind)
    return { qualifiers, reference }

/-- A name in no scope, or in `std` alone. -/
def readUnscoped (g : Grammar) : Reader (Bool × Unqualified) := do
  let inStd ← eat "St"
  return (inStd, ← g.unqualified)

/-- The name of a template in no scope. -/
def readTemplateName (g : Grammar) : Reader Ref := do
  match ← attempt g.unscoped with
  | some (inStd, name) => enter (.template inStd name)
  | none => g.reference

/-- A name in a function. -/
def readLocalName (g : Grammar) : Reader Name := do
  expect "Z"
  let function ← g.encoding
  expect "E"
  if ← eat "s" then
    let _ ← attempt discriminator
    return .stringIn function
  if ← eat "d" then
    let _ ← attempt integer
    expect "_"
    return .inDefault function (← g.name)
  let name ← g.name
  let _ ← attempt discriminator
  return .inFunction function name

/-- A name without its scope. -/
def readUnqualified (g : Grammar) : Reader Unqualified := do
  let base ← readBase
  return ⟨base, ← g.tags⟩
where
  /-- The name without its tags. -/
  readBase : Reader BaseName := do
    if ← eat "on" then return .operator (← g.operator true).1
    if let some (op, _) ← attempt (g.operator true) then return .operator op
    if let some base ← attempt g.structor then return base
    if ← eat "L" then
      let name ← g.sourceName 0
      let _ ← attempt discriminator
      return .source name
    if let some name ← attempt (g.sourceName 0) then return .source name
    if let some base ← attempt g.closure then return base
    expect "Ut"
    return .unnamed (max 1 (← index 10))

/-- The operators with a sign: how they are written, the sign, and how many
operands they have. -/
def signs : List (String × String × Nat) :=
  [("nw", "new", 3), ("na", "new[]", 3), ("dl", "delete", 1), ("da", "delete[]", 1), ("ps", "+", 1),
    ("ng", "-", 1), ("ad", "&", 1), ("de", "*", 1), ("co", "~", 1), ("pl", "+", 2), ("mi", "-", 2),
    ("ml", "*", 2), ("dv", "/", 2), ("rm", "%", 2), ("an", "&", 2), ("or", "|", 2), ("eo", "^", 2),
    ("aS", "=", 2), ("pL", "+=", 2), ("mI", "-=", 2), ("mL", "*=", 2), ("dV", "/=", 2),
    ("rM", "%=", 2), ("aN", "&=", 2), ("oR", "|=", 2), ("eO", "^=", 2), ("ls", "<<", 2),
    ("rs", ">>", 2), ("lS", "<<=", 2), ("rS", ">>=", 2), ("eq", "==", 2), ("ne", "!=", 2),
    ("lt", "<", 2), ("gt", ">", 2), ("le", "<=", 2), ("ge", ">=", 2), ("nt", "!", 1),
    ("aa", "&&", 2), ("oo", "||", 2), ("pp", "++", 1), ("mm", "--", 1), ("cm", ",", 2),
    ("pm", "->*", 2), ("pt", "->", 2), ("cl", "()", 2), ("ix", "[]", 2), ("qu", "?:", 3),
    ("ss", "<=>", 2)]

/-- Whether an operator is one of the words. -/
def isWord (sign : String) : Bool := ["new", "new[]", "delete", "delete[]"].contains sign

/-- An operator with a sign, and how many operands it has. -/
def sign : Reader (Operator × Nat) := do
  let (text, arity) ← oneOf signs
  return (.sign text (isWord text), arity)

/-- An operator, with a type converted to read as part of a conversion operator
or not, and how many operands it has. -/
def readOperator (g : Grammar) (isConversion : Bool) : Reader (Operator × Nat) := do
  if let some op ← attempt (g.word 1 sign) then return op
  if ← eat "cv" then
    return (.conversion (← inConversion isConversion g.type), 1)
  if ← eat "li" then return (.literal (← g.sourceName 0), 1)
  expect "v"
  let c ← next
  if c.isDigit then
    let arity := c.toNat - '0'.toNat
    return (.vendor arity (← g.sourceName 0), arity)
  else mismatch

/-- The name of a constructor or destructor. -/
def readStructor (g : Grammar) : Reader BaseName := do
  if ← eat "C" then
    let inherits ← eat "I"
    if !"1234".toList.contains (← next) then mismatch
    if inherits then return .constructor (some (← g.type))
    return .constructor none
  expect "D"
  if "0124".toList.contains (← next) then return .destructor else mismatch

/-- The types of the parameters of a closure. -/
def readClosureTypes (g : Grammar) : Reader (List Ref) := do
  if ← eat "v" then return [] else manyOne g.type

/-- The type of a closure. -/
def readClosure (g : Grammar) : Reader BaseName := do
  expect "Ul"
  let types ← g.closureTypes
  expect "E"
  return .closure types ((← index 10) + 1)

/-! ### Scopes -/

/-- A longer scope: the last one if the name ends behind it, otherwise an
entry. -/
def save (s : Scope) : Reader ScopeSoFar := do
  if (← peek) = some 'E' then return .last s
  else return .known (← enter (.scope s))

/-- A name in the scope read so far. -/
def within (outer : ScopeSoFar) (name : Unqualified) : Scope :=
  match outer with
  | .known r => .nested r name
  | _ => .simple name

/-- Whether a character can start a name without its scope. -/
def startsUnqualified (c : Char) : Bool :=
  c.isDigit || c = 'L' || c = 'C' || c = 'U' || c = 'v' ||
    signs.any fun (text, _) => text.front = c

/-- Reads a name in the scope read so far.  In a scope, the name of a data member
has `M` behind it, and its tags are not kept. -/
def readScopeName (g : Grammar) (outer : ScopeSoFar) : Reader ScopeSoFar := do
  let name ← g.unqualified
  match outer, name.base with
  | .known r, .source member =>
    if (← peek) = some 'M' then
      let scope ← save (.member r member)
      expect "M"
      return scope
    else save (.nested r name)
  | _, _ => save (within outer name)

/-- Reads one more part of a scope, if there is one. -/
def readScopeStep (g : Grammar) (outer : ScopeSoFar) : Reader (Option ScopeSoFar) := do
  match ← peek with
  | none => return none
  | some c =>
    if c = 'E' then return none
    else if c = 'S' then return some (.known (← g.reference))
    else if c = 'T' then return some (← save (.parameter (← g.parameter)))
    else if c = 'D' then
      match ← attempt g.decltype with
      | some pieces => return some (← save (.decltype pieces))
      | none => return some (← save (within outer (← g.unqualified)))
    else
      match outer with
      | .known r =>
        if c = 'I' then return some (← save (.template r (← g.arguments)))
        else if startsUnqualified c then return some (← readScopeName g outer)
        else return none
      | _ =>
        if startsUnqualified c then return some (← readScopeName g outer)
        else return none

/-- Reads up to `count` more parts of a scope. -/
def scopeFrom (g : Grammar) (outer : ScopeSoFar) : (count : Nat) → Reader ScopeSoFar
  | 0 => return outer
  | n + 1 => do
    match ← g.scopeStep outer with
    | none => return outer
    | some longer => scopeFrom g longer n

/-- A scope, every part of which has characters. -/
def readScope (g : Grammar) : Reader ScopeSoFar := do
  match ← scopeFrom g .nothing ((← get).rest.length + 1) with
  | .nothing => mismatch
  | scope => return scope

/-! ### Builtin types -/

/-- The words for the letters of builtin types. -/
def builtinTypes : List (String × String) :=
  [("v", "void"), ("w", "wchar_t"), ("b", "bool"), ("c", "char"), ("a", "signed char"),
    ("h", "unsigned char"), ("s", "short"), ("t", "unsigned short"), ("i", "int"),
    ("j", "unsigned int"), ("l", "long"), ("m", "unsigned long"), ("x", "long long"),
    ("y", "unsigned long long"), ("n", "__int128"), ("o", "unsigned __int128"), ("f", "float"),
    ("d", "double"), ("e", "long double"), ("g", "__float128"), ("z", "..."), ("Dd", "decimal64"),
    ("De", "decimal128"), ("Df", "decimal32"), ("Dh", "half"), ("Di", "char32_t"),
    ("Ds", "char16_t"), ("Du", "char8_t"), ("Da", "auto"), ("Dc", "decltype(auto)"),
    ("Dn", "std::nullptr_t"), ("DF16b", "std::bfloat16_t")]

/-- The words for the codes of fixed point types. -/
def fixedPointTypes : List (String × String) := Id.run do
  let mut types := []
  for (mark, limit) in [("", ""), ("DS", "_Sat ")] do
    for (kind, word) in [("DA", "_Accum"), ("DR", "_Fract")] do
      for (letter, size) in [("s", "short "), ("t", "unsigned short "), ("i", ""),
          ("j", "unsigned "), ("l", "long "), ("m", "unsigned long ")] do
        types := types ++ [(mark ++ kind ++ letter, limit ++ size ++ word)]
  return types

/-- A builtin type. -/
def readBuiltin (g : Grammar) : Reader Ref := do
  if let some name ← attempt (g.word 1 (oneOf (builtinTypes ++ fixedPointTypes))) then
    return .builtin name
  if let some r ← attempt g.sizedBuiltin then return r
  expect "u"
  return .vendor (← g.sourceName 0)

/-- A builtin type of a width in bits: a float type, or an integer type, the width
of which may be an expression. -/
def readSizedBuiltin (g : Grammar) : Reader Ref := do
  if ← eat "DF" then
    let bits := toString (← number)
    if ← eat "x" then return .builtin ("_Float" ++ bits ++ "x")
    expect "_"
    return .builtin ("_Float" ++ bits)
  let opening ← oneOf [("DB", "signed _BitInt("), ("DU", "unsigned _BitInt(")]
  if let some e ← attempt g.expression then
    return ← note (.pieces [.group [.text opening, e.piece, .text ")"]])
  let bits := toString (← number)
  expect "_"
  return .builtin (opening ++ bits ++ ")")

/-! ### Types -/

/-- Reads a node of a type and enters it. -/
def node (r : Reader TypeNode) : Reader Ref := do enter (.type (← r))

/-- Whether a parameter of a template with arguments behind it is a type in a
conversion operator, to which the arguments belong: whether no more arguments
follow these. -/
def ownsNoArguments (g : Grammar) : Reader Bool := do
  let start ← get
  let answer ← attempt do
    let _ ← g.arguments
    return decide ((← peek) ≠ some 'I')
  set start
  return answer.getD false

/-- A type. -/
def readType (g : Grammar) : Reader Ref := do
  if let some r ← attempt g.builtin then return r
  if let some f ← attempt g.function then return ← enter (.type (.function f))
  let quals ← g.quals
  if quals ≠ {} then return ← node do return .qualified quals (← g.type)
  if ← eat "U" then
    let name ← g.sourceName 0
    let args ← attempt g.arguments
    return ← node do return .extended (← g.type) name args
  if let some (keyword, name) ← attempt g.className then
    return ← enter (.type (.named keyword name))
  let start ← get
  if let some r ← attempt g.reference then
    if (← peek) ≠ some 'I' then return r
    modify fun s => { s with rest := start.rest }
  if let some t ← attempt g.array then return ← enter (.type t)
  if let some t ← attempt g.vector then return ← enter (.type t)
  if let some t ← attempt g.memberPointer then return ← enter (.type t)
  if let some n ← attempt g.parameter then
    if (← peek) ≠ some 'I' then return ← enter (.type (.parameter n))
    if (← read) && (← ownsNoArguments g) then return ← enter (.type (.parameter n))
    modify fun s => { s with rest := start.rest }
  if let some base ← attempt g.templateTemplate then
    return ← node do return .template base (← g.arguments)
  if let some pieces ← attempt g.decltype then return ← enter (.type (.decltype pieces))
  if ← eat "P" then return ← node do return .pointer (← g.type)
  if ← eat "R" then return ← node do return .reference .lvalue (← g.type)
  if ← eat "O" then return ← node do return .reference .rvalue (← g.type)
  if ← eat "C" then return ← node do return .followed (← g.type) " complex"
  if ← eat "G" then return ← node do return .followed (← g.type) " imaginary"
  expect "Dp"
  node do return .expansion (← g.type)

/-- The name of a class, with the keyword for what it is. -/
def readClassName (g : Grammar) : Reader (String × Name) := do
  if let some name ← attempt g.name then return ("", name)
  let keyword ← oneOf [("Ts", "class "), ("Tu", "union "), ("Te", "enum ")]
  return (keyword, ← g.name)

/-- What a function may throw. -/
def readExceptions (g : Grammar) : Reader (List Piece) := do
  if ← eat "Do" then return [.text "noexcept"]
  expect "DO"
  let e ← g.expression
  expect "E"
  return [.text "noexcept(", e.piece, .text ")"]

/-- A function type.  That it is safe in transactions, `Dx`, is not kept. -/
def readFunction (g : Grammar) : Reader FunctionType := do
  let quals ← g.quals
  let exceptions ← attempt g.exceptions
  let _ ← eat "Dx"
  expect "F"
  let _ ← eat "Y"
  let types ← g.types
  let reference ← attempt (g.word 1 referenceKind)
  expect "E"
  return ⟨types, quals, reference, exceptions⟩

/-- An array type. -/
def readArray (g : Grammar) : Reader TypeNode := do
  expect "A"
  let size ← readSize
  expect "_"
  return .array size (← g.type)
where
  /-- The size of an array: a number, an expression, or open. -/
  readSize : Reader (List Piece) := do
    if let some n ← attempt number then return [.text (toString n)]
    if let some e ← attempt g.expression then return [e.piece]
    return []

/-- A vector type. -/
def readVector (g : Grammar) : Reader TypeNode := do
  expect "Dv"
  let size ← readSize
  expect "_"
  return .vector size (← g.type)
where
  /-- The size of a vector: a number or an expression. -/
  readSize : Reader (List Piece) := do
    if let some n ← attempt number then return [.text (toString n)]
    return [(← g.expression).piece]

/-- The type of a pointer to a member. -/
def readMemberPointer (g : Grammar) : Reader TypeNode := do
  expect "M"
  let owner ← g.type
  return .memberPointer owner (← g.type)

/-- A template that is an argument or a parameter of a template. -/
def readTemplateTemplate (g : Grammar) : Reader Ref := do
  if let some r ← attempt g.reference then return r
  enter (.parameter (← g.parameter))

/-- The type of an expression. -/
def readDecltype (g : Grammar) : Reader (List Piece) := do
  expect "D"
  if !(← eat "t") then expect "T"
  let e ← g.expression
  expect "E"
  return [.text "decltype (", e.piece, .text ")"]

/-! ### Arguments of templates -/

/-- The arguments of a template. -/
def readArguments (g : Grammar) : Reader Arguments := do
  let place := (← get).rest.length
  expect "I"
  let args ← manyOne g.argument
  expect "E"
  return .mk place args

/-- An argument of a template. -/
def readArgument (g : Grammar) : Reader Argument := do
  if ← eat "X" then
    let e ← g.expression
    expect "E"
    return .value e.pieces
  if let some e ← attempt g.literal then return .value [e.piece]
  if let some t ← attempt g.type then return .type t
  if !(← eat "J") then expect "I"
  let args ← many g.argument
  expect "E"
  return .pack args

end Grammar
end Itanium
end Demangle
end ParamAtlas
