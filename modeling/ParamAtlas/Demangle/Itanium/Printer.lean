/-
# Writing Itanium names

How the scheme that `demangle_name` tries last is shown.

A type is written around the name that it is the type of: `int (*)[3]` is read
from the inside out.  While the innermost part is written, what is still to be
written around it waits in order, nearest first.

| waiting | written |
| --- | --- |
| qualifiers | ` const` ` volatile` ` restrict` |
| pointer, reference | `*`, `&` or `&&`; references next to each other become one |
| pointer to member | owner`::*` |
| array, vector | ` [`size`]`, ` __vector(`size`)`, with brackets round what waits before an array |
| parameters | `(`types`)`, with brackets round pointers and qualifiers |

A parameter of a template stands for the argument that its innermost template
has for it.  In the parameters of a closure it is written `auto:1` and so on.

Every form is written by a writer, which writes the forms inside it, and the parts
that wait, by the writers one level down.  Words are forms too, and need a level or
two.
-/
import ParamAtlas.Demangle.Itanium.Leaf

namespace ParamAtlas
namespace Demangle
namespace Itanium

/-- A part of a declaration that waits for the part inside it. -/
inductive Waiting where
  | qualifiers (q : Qualifiers) (ofArray : Bool)
  | pointer
  | reference (kind : ReferenceKind)
  | memberPointer (owner : Ref)
  | array (size : List Piece)
  | vector (size : List Piece)
  | function (q : Qualifiers) (reference : Option ReferenceKind)
  | parameters (types : List Ref)
  | call (types : List Ref) (args : Option Arguments) (hasObject : Bool)

/-- What is known inside a name: a leaf or the arguments of a template. -/
inductive Known where
  | leaf (l : Leaf)
  | arguments (args : Arguments)

/-- Something known, and the argument that is being written if it is one of a
list of arguments: its number and the place of the list. -/
structure Binding where
  known : Known
  writing : Option (Nat × Nat) := none

/-- What is known inside a name, innermost first. -/
abbrev Bindings := List Binding

namespace Bindings

/-- The innermost leaf. -/
def leaf? (bs : Bindings) : Option Leaf :=
  bs.findSome? fun b => match b.known with
    | .leaf l => some l
    | .arguments _ => none

/-- The argument for a parameter.  An argument may depend on those before it in
its list. -/
def argument? : Bindings → Nat → Option Argument
  | [], _ => none
  | b :: bs, n =>
    match b.known with
    | .leaf _ => argument? bs n
    | .arguments args =>
      match args.items[n]? with
      | none => argument? bs n
      | some arg =>
        match b.writing with
        | some (i, place) => if args.place = place ∧ i ≤ n then none else some arg
        | none => some arg

/-- Notes which argument of a list is being written. -/
def writing (bs : Bindings) (at? : Option (Nat × Nat)) : Bindings :=
  match bs with
  | [] => []
  | b :: bs => { b with writing := at? } :: bs

end Bindings

/-- What has been written, and what waits. -/
structure Page where
  text : String := ""
  last : Option Char := none
  waiting : List Waiting := []
  lastSource : Option String := none
  inClosure : Bool := false
  packSeen : Bool := false

/-- A way to write something; what is not known cannot be written. -/
abbrev Writer := ReaderT Table (StateT Page Option)

namespace Writer

/-- Writes a text. -/
def say (s : String) : Writer Unit := modify fun p =>
  if s.isEmpty then p else { p with text := p.text ++ s, last := some s.back }

/-- Writes a space unless one stands there. -/
def gap : Writer Unit := do
  if (← get).last ≠ some ' ' then say " "

/-- Takes the nearest part that waits. -/
def popWaiting : Writer (Option Waiting) := do
  match (← get).waiting with
  | [] => return none
  | w :: ws =>
    modify fun p => { p with waiting := ws }
    return some w

/-- Writes something that nothing waits for. -/
def apart (w : Writer Unit) : Writer Unit := do
  let waiting := (← get).waiting
  modify fun p => { p with waiting := [] }
  w
  modify fun p => { p with waiting }

/-- Writes things with a comma between each two of them. -/
def commas (ws : List (Writer Unit)) : Writer Unit := (ws.intersperse (say ", ")).forM id

/-- Whether a name is that of a namespace without a name. -/
def isAnonymous (name : String) : Bool :=
  match name.toList.drop 8 with
  | c :: 'N' :: _ => name.startsWith "_GLOBAL_" && (c = '.' || c = '_' || c = '$')
  | _ => false

/-- Writes a name from the source. -/
def source (name : String) : Writer Unit := do
  if isAnonymous name then say "(anonymous namespace)"
  else
    modify fun p => { p with lastSource := some name }
    say name

/-- Writes qualifiers, each after a space. -/
def qualifiers (q : Qualifiers) : Writer Unit := do
  if q.isConst then gap; say "const"
  if q.isVolatile then gap; say "volatile"
  if q.isRestrict then gap; say "restrict"

/-- Writes the sign of a reference after a space. -/
def referenceSign (reference : Option ReferenceKind) : Writer Unit := do
  if let some kind := reference then
    gap
    say kind.text

/-- Drops the references that wait next, which become one with the reference
being written: whether that one gives way to them. -/
def collapse (kind : ReferenceKind) : List Waiting → List Waiting × Bool
  | .reference next :: ws =>
    if kind = .rvalue ∧ next = .lvalue then (.reference next :: ws, true) else collapse kind ws
  | ws => (ws, false)

/-- The text of an unnamed type. -/
def unnamedText (number : Nat) : String := "\x7bunnamed type#" ++ toString number ++ "\x7d"

end Writer

/-- The writers of one level, and the number of levels from it down. -/
structure Writers where
  height : Nat
  pieces : Bindings → List Piece → Writer Unit
  encoding : Bindings → Encoding → Writer Unit
  name : Bindings → Name → Writer Unit
  nameParts : Bindings → Name → Writer Unit
  templateName : Bindings → Bool → Unqualified → Writer Unit
  scope : Bindings → Scope → Writer Unit
  unqualified : Bindings → Unqualified → Writer Unit
  baseName : Bindings → BaseName → Writer Unit
  leaf : Bindings → Leaf → Writer Unit
  closureTypes : Bindings → List Ref → Writer Unit
  operator : Bindings → Operator → Writer Unit
  type : Bindings → TypeNode → Writer Unit
  className : Bindings → String → Name → Writer Unit
  function : Bindings → FunctionType → Writer Unit
  results : Bindings → List Ref → Writer Unit
  shaped : Bindings → Waiting → Ref → Writer Unit
  parameter : Bindings → Nat → Writer Unit
  argument : Bindings → Argument → Writer Unit
  arguments : Bindings → Arguments → Writer Unit
  waiting : Bindings → Waiting → Writer Unit
  parameters : Bindings → List Ref → Writer Unit

namespace Writers

open Writer

/-- Writes a word whose forms need so many levels. -/
def word (w : Writers) (levels : Nat) (writer : Writer Unit) : Writer Unit := do
  guard (levels ≤ w.height)
  writer

/-- Writes what a reference is to. -/
def ref (w : Writers) (bs : Bindings) (r : Ref) : Writer Unit := do
  match r with
  | .builtin name => w.word 2 (say name)
  | .vendor name => w.word 3 (source name)
  | .component c => w.word 1 (say c.text)
  | .entry i =>
    match (← read)[i]? with
    | none => failure
    | some (.template inStd name) => w.templateName bs inStd name
    | some (.parameter n) => w.parameter bs n
    | some (.pieces pieces) => w.pieces bs pieces
    | some (.scope s) => w.scope bs s
    | some (.type t) => w.type bs t

/-- Writes a piece. -/
def piece (w : Writers) (bs : Bindings) (p : Piece) : Writer Unit :=
  match p with
  | .text s => say s
  | .ref r => w.ref bs r
  | .source name => w.word 2 (source name)
  | .operator op => w.operator bs op
  | .parameter n => w.parameter bs n
  | .argument a => w.argument bs a
  | .arguments args => w.arguments bs args
  | .name n => w.name bs n
  | .encoding e => w.encoding bs e
  | .group pieces => w.pieces bs pieces

/-- Writes pieces in order. -/
def writePieces (w : Writers) (bs : Bindings) (pieces : List Piece) : Writer Unit :=
  pieces.forM (w.piece bs)

/-! ### Names -/

/-- Writes a name. -/
def writeName (w : Writers) (bs : Bindings) (n : Name) : Writer Unit := do
  match n with
  | .template base args =>
    w.ref bs base
    w.arguments bs args
  | _ => w.nameParts bs n

/-- Writes the parts of a name, and what waits for it if it is that of a member. -/
def writeNameParts (w : Writers) (bs : Bindings) (n : Name) : Writer Unit := do
  match n with
  | .nested outer last receiver =>
    outer.forM fun outer => do
      w.ref bs outer
      say "::"
    w.unqualified bs last
    tail receiver
  | .nestedTemplate outer args receiver =>
    w.ref bs outer
    w.arguments bs args
    tail receiver
  | .unscoped inStd last =>
    if inStd then say "std::"
    w.unqualified bs last
  | .template base args =>
    w.ref bs base
    w.arguments bs args
  | .inFunction function name =>
    w.encoding bs function
    say "::"
    w.name bs name
  | .inDefault function _ => w.encoding bs function
  | .stringIn function =>
    w.encoding bs function
    say "::string literal"
where
  /-- What comes behind the name of a member. -/
  tail (receiver : Receiver) : Writer Unit := do
    match ← popWaiting with
    | none => pure ()
    | some (.call types args hasObject) =>
      w.waiting bs (.call types args (hasObject || receiver.isParameter))
    | some next => w.waiting bs next
    if receiver.qualifiers ≠ {} then w.word 1 (qualifiers receiver.qualifiers)
    if receiver.reference.isSome then w.word 1 (referenceSign receiver.reference)

/-- Writes the name of a template in no scope. -/
def writeTemplateName (w : Writers) (bs : Bindings) (inStd : Bool) (n : Unqualified) :
    Writer Unit :=
  w.nameParts bs (.unscoped inStd n)

/-- Writes a scope. -/
def writeScope (w : Writers) (bs : Bindings) (s : Scope) : Writer Unit := do
  match s with
  | .simple name => w.unqualified bs name
  | .nested outer last =>
    w.ref bs outer
    say "::"
    w.unqualified bs last
  | .template outer args =>
    w.ref bs outer
    w.arguments bs args
  | .parameter n => w.parameter bs n
  | .decltype pieces => w.pieces bs pieces
  | .member outer name =>
    w.ref bs outer
    say "::"
    w.word 3 (source name)

/-- Writes a name without its scope. -/
def writeUnqualified (w : Writers) (bs : Bindings) (n : Unqualified) : Writer Unit := do
  match n.base with
  | .operator op =>
    say "operator"
    w.operator bs op
  | base => w.baseName bs base
  n.tags.forM fun tag => do
    say "[abi:"
    w.word 3 (source tag)
    say "]"

/-- Writes a leaf as a class of its own. -/
def writeLeaf (w : Writers) (bs : Bindings) (l : Leaf) : Writer Unit := do
  match l with
  | .component c => say (c.className?.getD c.text)
  | .base (.unnamed number) => say ((← get).lastSource.getD (unnamedText number))
  | .base name => w.baseName bs name

/-- Writes a name without its scope and tags.  A constructor or destructor is
written as the innermost leaf. -/
def writeBaseName (w : Writers) (bs : Bindings) (n : BaseName) : Writer Unit := do
  match n with
  | .operator op => w.operator bs op
  | .constructor none => w.leaf bs (← bs.leaf?)
  | .constructor (some t) =>
    let table ← read
    let bs := match table.arguments? t with
      | some args => ⟨.arguments args, none⟩ :: bs
      | none => bs
    w.leaf bs (← table.leaf? t)
  | .destructor =>
    say "~"
    w.leaf bs (← bs.leaf?)
  | .source name => w.word 1 (source name)
  | .closure types number =>
    say "\x7blambda("
    w.closureTypes bs types
    say (")#" ++ toString number ++ "\x7d")
  | .unnamed number => say (unnamedText number)

/-- Writes the types of the parameters of a closure. -/
def writeClosureTypes (w : Writers) (bs : Bindings) (types : List Ref) : Writer Unit := do
  let outside := (← get).inClosure
  modify fun p => { p with inClosure := true }
  commas (types.map (w.ref bs))
  modify fun p => { p with inClosure := outside }

/-- Writes an operator behind the word for one.  The type of a conversion may
depend on the arguments of its template. -/
def writeOperator (w : Writers) (bs : Bindings) (op : Operator) : Writer Unit := do
  match op with
  | .sign text isWord =>
    if isWord then gap
    w.word 1 (say text)
  | .conversion target => apart do
    gap
    match (← read).arguments? target with
    | some args => w.ref (⟨.arguments args, none⟩ :: bs) target
    | none => w.ref bs target
  | .literal suffix =>
    w.word 2 (source suffix)
    say "::operator \"\""
  | .vendor arity name =>
    w.word 2 (source name)
    say ("::operator " ++ toString arity)

/-! ### Types -/

/-- Writes something that a part of a declaration waits for, and the part if it
was not written meanwhile. -/
def around (w : Writers) (bs : Bindings) (part : Waiting) (inside : Writer Unit) : Writer Unit := do
  let waiting := (← get).waiting
  modify fun p => { p with waiting := part :: waiting }
  inside
  if waiting.length < (← get).waiting.length then
    let _ ← popWaiting
    w.waiting bs part

/-- Writes a type. -/
def writeType (w : Writers) (bs : Bindings) (t : TypeNode) : Writer Unit := do
  match t with
  | .named keyword name => w.className bs keyword name
  | .function f => w.function bs f
  | .array size element => w.shaped bs (.array size) element
  | .vector size element => w.shaped bs (.vector size) element
  | .memberPointer owner member => w.shaped bs (.memberPointer owner) member
  | .parameter n => w.parameter bs n
  | .template base args =>
    w.ref bs base
    w.arguments bs args
  | .decltype pieces => w.pieces bs pieces
  | .qualified q of => w.around bs (.qualifiers q ((← read).isArray of)) (w.ref bs of)
  | .pointer target => w.around bs .pointer (w.ref bs target)
  | .reference kind target => w.around bs (.reference kind) (w.ref bs target)
  | .followed of text =>
    w.ref bs of
    say text
  | .extended of name args =>
    w.ref bs of
    say " "
    w.word 2 (source name)
    if let some args := args then w.arguments bs args
  | .expansion of =>
    w.ref bs of
    if !(← get).packSeen then say "..."

/-- Writes the name of a class behind the keyword for what it is. -/
def writeClassName (w : Writers) (bs : Bindings) (keyword : String) (name : Name) :
    Writer Unit := do
  say keyword
  w.name bs name

/-- Writes a function type. -/
def writeFunction (w : Writers) (bs : Bindings) (f : FunctionType) : Writer Unit := do
  w.around bs (.function f.qualifiers f.reference) (w.results bs f.types)
  if let some pieces := f.exceptions then
    gap
    w.pieces bs pieces

/-- Writes the result of a function, around which its parameters wait. -/
def writeResults (w : Writers) (bs : Bindings) (types : List Ref) : Writer Unit := do
  let waiting := (← get).waiting
  modify fun p => { p with waiting := .parameters (types.drop 1) :: waiting }
  types.head?.forM (w.ref bs)
  if waiting.length < (← get).waiting.length then
    let _ ← popWaiting
    gap
    w.waiting bs (.parameters (types.drop 1))

/-- Writes the type that a part of a declaration is made of, and the part around
it. -/
def writeShaped (w : Writers) (bs : Bindings) (part : Waiting) (of : Ref) : Writer Unit :=
  w.around bs part (w.ref bs of)

/-- Writes a parameter of a template. -/
def writeParameter (w : Writers) (bs : Bindings) (n : Nat) : Writer Unit := do
  if (← get).inClosure then say ("auto:" ++ toString (n + 1))
  else w.argument bs (← bs.argument? n)

/-- Writes an argument of a template. -/
def writeArgument (w : Writers) (bs : Bindings) (a : Argument) : Writer Unit := do
  match a with
  | .type t => w.ref bs t
  | .value pieces => w.pieces bs pieces
  | .pack args =>
    modify fun p => { p with packSeen := true }
    commas (args.map (w.argument bs))

/-- Writes the arguments of a template. -/
def writeArguments (w : Writers) (bs : Bindings) (args : Arguments) : Writer Unit := apart do
  if (← get).last = some '<' then say " "
  say "<"
  commas (args.items.mapIdx fun i a => w.argument (bs.writing (some (i, args.place))) a)
  if (← get).last = some '>' then say " "
  say ">"

/-! ### What waits -/

/-- Writes the parts that wait, nearest first, as long as there are any. -/
def all (w : Writers) (bs : Bindings) : (count : Nat) → Writer Unit
  | 0 => return
  | n + 1 => do
    match ← popWaiting with
    | none => return
    | some next =>
      w.waiting bs next
      all w bs n

/-- Writes the parts that wait, nearest first. -/
def rest (w : Writers) (bs : Bindings) : Writer Unit := do all w bs (← get).waiting.length

/-- Writes the parts that wait but for the qualifiers of function types, which go
on waiting. -/
def restButQualified (w : Writers) (bs : Bindings) : (count : Nat) → Writer (List Waiting)
  | 0 => return []
  | n + 1 => do
    match ← popWaiting with
    | none => return []
    | some (.function q reference) =>
      if q = {} then
        w.waiting bs (.function q reference)
        restButQualified w bs n
      else return .function q reference :: (← restButQualified w bs n)
    | some next =>
      w.waiting bs next
      restButQualified w bs n

/-- Whether parameters need brackets round what waits before them, and whether
a space has to stand before the brackets. -/
def brackets : List Waiting → Bool × Bool
  | [] => (false, false)
  | .qualifiers _ _ :: _ => (true, true)
  | .memberPointer _ :: _ => (true, true)
  | .pointer :: _ => (true, false)
  | .reference _ :: _ => (true, false)
  | _ :: ws => brackets ws

/-- Writes the types of parameters, the first of which may be the object of a
member function, and what waits before and behind them. -/
def parametersWith (w : Writers) (bs : Bindings) (types : List Ref) (hasObject : Bool) :
    Writer Unit := do
  let (bracketed, spaced) := brackets (← get).waiting
  if bracketed then
    let last := (← get).last
    if spaced || (last ≠ some '(' && last ≠ some '*') then gap
    say "("
  let kept ← restButQualified w bs (← get).waiting.length
  modify fun p => { p with waiting := kept }
  if bracketed then say ")"
  say "("
  if types ≠ [.builtin "void"] then
    if hasObject then say "this "
    commas (types.map (w.ref bs))
  say ")"
  w.rest bs

/-- Writes the types of parameters, and what waits before and behind them. -/
def writeParameters (w : Writers) (bs : Bindings) (types : List Ref) : Writer Unit :=
  w.parametersWith bs types false

/-- Writes what waits before the size of an array: whether a space stands before
the size. -/
def beforeSize (w : Writers) (bs : Bindings) (spaced : Bool) : (count : Nat) → Writer Bool
  | 0 => return spaced
  | n + 1 => do
    match ← popWaiting with
    | none => return spaced
    | some (.array size) =>
      w.waiting bs (.array size)
      beforeSize w bs false n
    | some (.qualifiers q true) =>
      w.waiting bs (.qualifiers q true)
      beforeSize w bs spaced n
    | some next =>
      gap
      match next with
      | .qualifiers _ _ =>
        w.waiting bs next
        gap
        say "("
      | _ =>
        say "("
        w.waiting bs next
      w.rest bs
      say ")"
      beforeSize w bs spaced n

/-- Writes a part that has waited. -/
def writeWaiting (w : Writers) (bs : Bindings) (part : Waiting) : Writer Unit := do
  match part with
  | .qualifiers q _ => w.word 1 (qualifiers q)
  | .pointer => say "*"
  | .reference kind =>
    let (left, givesWay) := collapse kind (← get).waiting
    modify fun p => { p with waiting := left }
    if !givesWay then say kind.text
  | .memberPointer owner =>
    if (← get).last ≠ some '(' then gap
    w.ref bs owner
    say "::*"
  | .array size =>
    if ← beforeSize w bs true (← get).waiting.length then gap
    say "["
    w.writePieces bs size
    say "]"
  | .vector size =>
    say " __vector("
    w.writePieces bs size
    say ")"
  | .function q reference =>
    if q ≠ {} then w.word 1 (qualifiers q)
    if reference.isSome then w.word 1 (referenceSign reference)
  | .parameters types => w.parameters bs types
  | .call types args hasObject =>
    match args with
    | some args => w.parametersWith (⟨.arguments args, none⟩ :: bs) types hasObject
    | none => w.parametersWith bs types hasObject

/-! ### Symbols -/

/-- Writes what a symbol names.  The name of a template is written behind the
type of its result, which other names do not have. -/
def writeEncoding (w : Writers) (bs : Bindings) (e : Encoding) : Writer Unit := apart do
  match e with
  | .object name => w.name bs name
  | .special pieces => w.pieces bs pieces
  | .function name types =>
    let table ← read
    let bs := match name.leafBy? table.leaf? with
      | some l => ⟨.leaf l, none⟩ :: bs
      | none => bs
    match name.arguments? with
    | none => w.around bs (.call types none false) (w.name bs name)
    | some args =>
      let bs := ⟨.arguments args, none⟩ :: bs
      if name.hasNoResultBy table.hasNoResult then
        w.around bs (.call types (some args) false) (w.name bs name)
      else
        types.head?.forM (w.ref bs)
        say " "
        w.around bs (.call (types.drop 1) (some args) false) (w.name bs name)

/-! ### Levels -/

/-- The level below which there is none. -/
def bottom : Writers where
  height := 0
  pieces _ _ := failure
  encoding _ _ := failure
  name _ _ := failure
  nameParts _ _ := failure
  templateName _ _ _ := failure
  scope _ _ := failure
  unqualified _ _ := failure
  baseName _ _ := failure
  leaf _ _ := failure
  closureTypes _ _ := failure
  operator _ _ := failure
  type _ _ := failure
  className _ _ _ := failure
  function _ _ := failure
  results _ _ := failure
  shaped _ _ _ := failure
  parameter _ _ := failure
  argument _ _ := failure
  arguments _ _ := failure
  waiting _ _ := failure
  parameters _ _ := failure

/-- The level above another one. -/
def above (w : Writers) : Writers where
  height := w.height + 1
  pieces := writePieces w
  encoding := writeEncoding w
  name := writeName w
  nameParts := writeNameParts w
  templateName := writeTemplateName w
  scope := writeScope w
  unqualified := writeUnqualified w
  baseName := writeBaseName w
  leaf := writeLeaf w
  closureTypes := writeClosureTypes w
  operator := writeOperator w
  type := writeType w
  className := writeClassName w
  function := writeFunction w
  results := writeResults w
  shaped := writeShaped w
  parameter := writeParameter w
  argument := writeArgument w
  arguments := writeArguments w
  waiting := writeWaiting w
  parameters := writeParameters w

/-- The topmost of so many levels. -/
def top : (count : Nat) → Writers
  | 0 => bottom
  | n + 1 => above (top n)

end Writers

/-- How deep forms nest in what is written. -/
def writingDepth : Nat := 127

/-- The text of pieces with the table of their symbol, if all of it is known. -/
def written? (pieces : List Piece) (table : Table) : Option String :=
  ((Writers.top writingDepth).pieces [] pieces table {}).map fun ((), page) => page.text

end Itanium
end Demangle
end ParamAtlas
