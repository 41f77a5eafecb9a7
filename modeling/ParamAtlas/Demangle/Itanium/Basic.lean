/-
# Things that Itanium names speak of

A symbol names a function, an object or something the compiler made for one of
them.  Names and types refer to what stood earlier in the symbol by its place in
a table of entries, so they are trees over references:

| reference | to |
| --- | --- |
| `entry i` | the entry at place `i` |
| `component c` | a part of the standard library with an abbreviation of its own |
| `builtin s` | a type of the language |
| `vendor s` | a builtin type of a compiler |

What is only ever written out in order, an expression for instance, is a list of
`Piece`s.  A form in another one is a piece of its own, a `group`, so that the
pieces nest as the forms do.
-/

namespace ParamAtlas
namespace Demangle
namespace Itanium

/-- The parts of the standard library with an abbreviation of their own. -/
inductive Component where
  | std
  | allocator
  | basicString
  | string
  | istream
  | ostream
  | iostream
  deriving DecidableEq, Repr, Inhabited

namespace Component

/-- The text of a component. -/
def text : Component → String
  | std => "std"
  | allocator => "std::allocator"
  | basicString => "std::basic_string"
  | string => "std::string"
  | istream => "std::basic_istream<char, std::char_traits<char> >"
  | ostream => "std::ostream"
  | iostream => "std::basic_iostream<char, std::char_traits<char> >"

/-- The name of a component as a class; `std` is none. -/
def className? : Component → Option String
  | std => none
  | allocator => some "allocator"
  | basicString => some "basic_string"
  | string => some "string"
  | istream => some "basic_istream"
  | ostream => some "ostream"
  | iostream => some "basic_iostream"

/-- The component with an abbreviation. -/
def ofLetter? : Char → Option Component
  | 't' => some std
  | 'a' => some allocator
  | 'b' => some basicString
  | 's' => some string
  | 'i' => some istream
  | 'o' => some ostream
  | 'd' => some iostream
  | _ => none

end Component

/-- Something named before. -/
inductive Ref where
  | entry (place : Nat)
  | component (c : Component)
  | builtin (name : String)
  | vendor (name : String)
  deriving DecidableEq, Repr, Inhabited

/-- What is said of a type or of the object of a member function. -/
structure Qualifiers where
  isConst : Bool := false
  isVolatile : Bool := false
  isRestrict : Bool := false
  deriving DecidableEq, Repr, Inhabited

/-- The two kinds of reference types. -/
inductive ReferenceKind where
  | lvalue
  | rvalue
  deriving DecidableEq, Repr, Inhabited

/-- The signs of the two kinds. -/
def ReferenceKind.text : ReferenceKind → String
  | lvalue => "&"
  | rvalue => "&&"

/-- What is said of the object of a member function: its qualifiers, the kind of
reference that it is, and whether it is the first parameter. -/
structure Receiver where
  qualifiers : Qualifiers := {}
  reference : Option ReferenceKind := none
  isParameter : Bool := false
  deriving Repr, Inhabited

/-- An operator in its function of a name: a sign, which is a word or not, the
target of a conversion, the suffix of a literal, or one of a compiler. -/
inductive Operator where
  | sign (text : String) (isWord : Bool)
  | conversion (target : Ref)
  | literal (suffix : String)
  | vendor (arity : Nat) (name : String)
  deriving Repr, Inhabited

/-- A name without its scope and its tags. -/
inductive BaseName where
  | operator (op : Operator)
  | constructor (inherited : Option Ref)
  | destructor
  | source (name : String)
  | closure (parameters : List Ref) (number : Nat)
  | unnamed (number : Nat)
  deriving Repr, Inhabited

/-- A name without its scope. -/
structure Unqualified where
  base : BaseName
  tags : List String
  deriving Repr, Inhabited

mutual

/-- A part of a text. -/
inductive Piece where
  | text (s : String)
  | ref (r : Ref)
  | source (name : String)
  | operator (op : Operator)
  | parameter (index : Nat)
  | argument (arg : Argument)
  | arguments (args : Arguments)
  | name (n : Name)
  | encoding (e : Encoding)
  | group (pieces : List Piece)

/-- An argument of a template. -/
inductive Argument where
  | type (t : Ref)
  | value (pieces : List Piece)
  | pack (args : List Argument)

/-- The arguments of a template, told apart by where in the symbol they stand. -/
inductive Arguments where
  | mk (place : Nat) (items : List Argument)

/-- A name: of a member, in a scope or not, of a member with arguments, in no
scope or `std` alone, with arguments in no scope, in a function, in a default
argument of one, or that of a string in one. -/
inductive Name where
  | nested (outer : Option Ref) (last : Unqualified) (receiver : Receiver)
  | nestedTemplate (outer : Ref) (args : Arguments) (receiver : Receiver)
  | unscoped (inStd : Bool) (last : Unqualified)
  | template (base : Ref) (args : Arguments)
  | inFunction (function : Encoding) (name : Name)
  | inDefault (function : Encoding) (name : Name)
  | stringIn (function : Encoding)

/-- What a symbol names: a function with its types, an object, or something that
the compiler made. -/
inductive Encoding where
  | function (name : Name) (types : List Ref)
  | object (name : Name)
  | special (pieces : List Piece)

end

instance : Inhabited Piece := ⟨.text ""⟩
instance : Inhabited Argument := ⟨.pack []⟩
instance : Inhabited Arguments := ⟨.mk 0 []⟩
instance : Inhabited Name := ⟨.unscoped false default⟩
instance : Inhabited Encoding := ⟨.special []⟩

namespace Arguments

/-- Where in the symbol arguments stand. -/
def place : Arguments → Nat
  | mk place _ => place

/-- Arguments in order. -/
def items : Arguments → List Argument
  | mk _ items => items

end Arguments

/-- An expression, and whether it stands without brackets as a part of another
one. -/
structure Expression where
  pieces : List Piece
  standsAlone : Bool := false
  deriving Inhabited

namespace Expression

/-- An expression as a whole. -/
def piece (e : Expression) : Piece := .group e.pieces

/-- An expression as a part of another one. -/
def operand (e : Expression) : List Piece :=
  if e.standsAlone then [e.piece] else [.text "(", e.piece, .text ")"]

end Expression

/-- A scope that can be referred to: a name, a name in a scope, a scope with
arguments, a parameter of a template, the type of an expression, or a data
member. -/
inductive Scope where
  | simple (name : Unqualified)
  | nested (outer : Ref) (last : Unqualified)
  | template (outer : Ref) (args : Arguments)
  | parameter (index : Nat)
  | decltype (pieces : List Piece)
  | member (outer : Ref) (name : String)
  deriving Inhabited

/-- A function type: its result and its parameters, and what is said of it. -/
structure FunctionType where
  types : List Ref
  qualifiers : Qualifiers
  reference : Option ReferenceKind
  exceptions : Option (List Piece)
  deriving Inhabited

/-- A type that can be referred to. -/
inductive TypeNode where
  | named (keyword : String) (name : Name)
  | function (f : FunctionType)
  | array (size : List Piece) (element : Ref)
  | vector (size : List Piece) (element : Ref)
  | memberPointer (owner : Ref) (member : Ref)
  | parameter (index : Nat)
  | template (base : Ref) (args : Arguments)
  | decltype (pieces : List Piece)
  | qualified (qualifiers : Qualifiers) (of : Ref)
  | pointer (target : Ref)
  | reference (kind : ReferenceKind) (target : Ref)
  | followed (of : Ref) (text : String)
  | extended (of : Ref) (name : String) (args : Option Arguments)
  | expansion (of : Ref)
  deriving Inhabited

/-- An entry of the table. -/
inductive Entry where
  | template (inStd : Bool) (name : Unqualified)
  | parameter (index : Nat)
  | pieces (pieces : List Piece)
  | scope (s : Scope)
  | type (t : TypeNode)
  deriving Inhabited

/-- The table of a symbol: what it can refer to, in order. -/
abbrev Table := Array Entry

end Itanium
end Demangle
end ParamAtlas
