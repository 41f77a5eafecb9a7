/-
# Reading patterns

What the filter of a log specification may be.

| pattern | meaning |
| --- | --- |
| `\` character | the character, if it is a sign; a set, an assertion or a control character |
| `.` `^` `$` | any character, start and end |
| `[` members `]` | the set of its members, or with `^` in front of them of all others |
| `(` pattern `)` | a group, which may have a name, `?P<name>` or `?<name>` |
| `(?` flags `:` pattern `)` | a group read with flags |
| `(?` flags `)` | flags for the rest of the group |
| pattern `\|` pattern | a choice |
| pattern `?` `*` `+` | a repetition |
| pattern `{` low `,` high `}` | a counted one |
| any other character | itself |

The flags are `i` `m` `s` `U` `u` `x` `R`, on, or off behind a `-`.  Under `x`,
blanks and comments from `#` to the end of the line are skipped.  Without `u`, sets
hold ASCII characters only.  There are no references to groups and no views ahead
or back.
-/
import ParamAtlas.Pattern.Basic
import ParamAtlas.Pattern.Property
import ParamAtlas.Text.Blank
import ParamAtlas.Text.Digit

namespace ParamAtlas
namespace Pattern

/-- What is left of a pattern, whether blanks in it are skipped, whether it may
name characters outside ASCII, and the names of its groups. -/
structure Progress where
  rest : List Char
  skipsBlanks : Bool := false
  isUnicode : Bool := true
  names : List (List Char) := []

/-- A way to take a part from the front of a pattern. -/
abbrev Reader := StateT Progress Option

namespace Reader

/-! ### Characters -/

/-- Characters from the first one on that is neither a blank nor in a comment. -/
def afterBlanks : List Char → List Char
  | [] => []
  | c :: cs => if Text.isBlank c then afterBlanks cs else if c = '#' then comment cs else c :: cs
where
  /-- What follows a comment. -/
  comment : List Char → List Char
    | [] => []
    | c :: cs => if c = '\n' then afterBlanks cs else comment cs

/-- The next character. -/
def peek : Reader (Option Char) := return (← get).rest.head?

/-- The next character, which has to be there. -/
def here : Reader Char := do (← get).rest.head?

/-- Takes a character. -/
def bump : Reader Unit := modify fun p => { p with rest := p.rest.drop 1 }

/-- Skips blanks if they are to be skipped. -/
def skip : Reader Unit := modify fun p =>
  if p.skipsBlanks then { p with rest := afterBlanks p.rest } else p

/-- Takes a character and the blanks behind it. -/
def advance : Reader Unit := do
  bump
  skip

/-- Takes a character and the blanks behind it, and gives what is next. -/
def onward : Reader Char := do
  advance
  here

/-- Takes a text if it is there, and says whether it was. -/
def eat (text : String) : Reader Bool := do
  let rest := (← get).rest
  if text.toList.isPrefixOf rest then
    modify fun p => { p with rest := rest.drop text.length }
    return true
  else return false

/-- Takes characters that pass a test, up to so many. -/
def run (test : Char → Bool) : (count : Nat) → Reader (List Char)
  | 0 => return []
  | n + 1 => do
    match ← peek with
    | none => return []
    | some c =>
      if test c then
        advance
        return c :: (← run test n)
      else return []

/-- Takes characters that pass a test. -/
def takeWhile (test : Char → Bool) : Reader (List Char) := do run test (← get).rest.length

/-- Refuses what is not the case. -/
def require (condition : Bool) : Reader Unit := guard condition

/-! ### Escapes -/

/-- What an escape stands for: a character, which may be told as a byte, a set, or
an assertion. -/
inductive Atom where
  | char (c : Char) (isByte : Bool)
  | set (e : Extent)
  | assertion
  deriving DecidableEq, Repr, Inhabited

/-- The character with a number in hexadecimal digits. -/
def numbered? (digits : List Char) : Option Char :=
  let value (c : Char) : Nat :=
    if c.isDigit then c.toNat - '0'.toNat else c.toLower.toNat - 'a'.toNat + 10
  let n := digits.foldl (fun n c => n * 16 + value c) 0
  if digits ≠ [] ∧ n.isValidChar then some (Char.ofNat n) else none

/-- Takes so many hexadecimal digits. -/
def hexDigits : (count : Nat) → Reader (List Char)
  | 0 => return []
  | n + 1 => do
    let c ← here
    require (Text.isHexDigit c)
    advance
    return c :: (← hexDigits n)

/-- A character by its number: in braces, or with as many digits as its letter
asks for. -/
def number : Reader Atom := do
  let letter ← here
  if (← onward) = '\x7b' then
    advance
    let digits ← takeWhile (· ≠ '\x7d')
    require ((← here) = '\x7d')
    advance
    require (digits.all Text.isHexDigit)
    return .char (← numbered? digits) false
  else
    let digits ← hexDigits (if letter = 'x' then 2 else if letter = 'u' then 4 else 8)
    return .char (← numbered? digits) (letter = 'x')

/-- The extent of a set of characters of Unicode. -/
def largeSet : Extent := .states 600

/-- A set of characters by its name. -/
def property : Reader Atom := do
  let name ← if (← onward) = '\x7b' then do
      advance
      let name ← takeWhile (· ≠ '\x7d')
      require ((← here) = '\x7d')
      bump
      pure name
    else do
      let c ← here
      require (c ≠ '\\')
      advance
      pure [c]
  require ((← get).isUnicode && Property.isSet name)
  return .set largeSet

/-- A set with a letter: digits, blanks or parts of words, or all others. -/
def letterSet (c : Char) : Reader Atom := do
  bump
  let isUnicode := (← get).isUnicode
  require (isUnicode || c.isLower)
  if isUnicode then
    return .set (if c.toLower = 'w' then .states 1500 else if c.toLower = 'd' then .states 150
      else .states 20)
  else return .set (.states 2)

/-- The words for kinds of ends of words. -/
def wordEnds : List String := ["start", "end", "start-half", "end-half"]

/-- An end of a word, of a kind in braces if there is one. -/
def wordEnd : Reader Atom := do
  let start ← get
  if (← peek) = some '\x7b' then
    let isLetter (c : Char) : Bool := c.isAlpha || c = '-'
    if isLetter (← onward) then
      let word ← takeWhile isLetter
      require ((← here) = '\x7d' && wordEnds.contains (String.ofList word))
      bump
    else set start
  return .assertion

/-- Whether an escape of a character may stand for the character: whether it is a
sign that has no other meaning. -/
def isSign (c : Char) : Bool := c.toNat < 0x80 && !c.isAlphanum && c ≠ '<' && c ≠ '>'

/-- An escape, from its backslash on. -/
def escape : Reader Atom := do
  bump
  let c ← here
  if c.isDigit then failure
  else if "xuU".toList.contains c then number
  else if "pP".toList.contains c then property
  else if "dswDSW".toList.contains c then letterSet c
  else
    bump
    if isSign c then return .char c false
    else
      match "afnrtv".toList.zip ['\x07', '\x0c', '\n', '\r', '\t', '\x0b'] |>.lookup c with
      | some control => return .char control false
      | none =>
        if c = 'b' then wordEnd
        else if "AzB<>".toList.contains c then return .assertion
        else failure

/-- Refuses a byte outside ASCII where only ASCII can be named. -/
def checkByte (c : Char) (isByte : Bool) : Reader Unit := do
  require ((← get).isUnicode || !isByte || c.toNat < 0x80)

/-! ### Sets -/

/-- The words for sets of ASCII characters. -/
def asciiSets : List String :=
  ["alnum", "alpha", "ascii", "blank", "cntrl", "digit", "graph", "lower", "print", "punct",
    "space", "upper", "word", "xdigit"]

/-- What follows a set of ASCII characters, `[:word:]`, and whether it is one of
all others; nothing if there is none. -/
def asciiSet? : List Char → Option (Bool × List Char)
  | '[' :: ':' :: cs =>
    let isNegated := cs.head? = some '^'
    let cs := if isNegated then cs.drop 1 else cs
    let rest := cs.dropWhile (· ≠ ':')
    if asciiSets.contains (String.ofList (cs.takeWhile (· ≠ ':'))) ∧ [':', ']'].isPrefixOf rest then
      some (isNegated, rest.drop 2)
    else none
  | _ => none

/-- One end of a range in a set. -/
def rangeEnd : Reader Atom := do
  let c ← here
  if c = '\\' then escape
  else
    bump
    return .char c false

/-- The extent of a character in a set. -/
def charMember (c : Char) (isByte : Bool) : Reader Extent := do
  require ((← get).isUnicode || c.toNat < 0x80)
  checkByte c isByte
  return .states 1

/-- What follows the next character. -/
def beyond : Reader (Option Char) := do
  let p ← get
  let rest := p.rest.drop 1
  return (if p.skipsBlanks then afterBlanks rest else rest).head?

/-- A member of a set: a character, a set, or the characters from one to
another. -/
def member : Reader Extent := do
  let first ← rangeEnd
  skip
  let isAlone := (← here) ≠ '-' || [some ']', some '-'].contains (← beyond)
  match first with
  | .assertion => failure
  | .set e =>
    require isAlone
    return e
  | .char low isByte =>
    if isAlone then charMember low isByte
    else
      let _ ← onward
      match ← rangeEnd with
      | .char high isHighByte =>
        require (low ≤ high)
        let _ ← charMember low isByte
        charMember high isHighByte
      | _ => failure

/-- The signs that a set starts with: whether it is of all others, and how many
`-` and `]` are members of it. -/
def setStart : Reader (Bool × List Extent) := do
  let isNegated := (← onward) = '^'
  if isNegated then let _ ← onward
  let dashes ← takeWhile (· = '-')
  let members := dashes.map fun _ => Extent.states 1
  if dashes = [] ∧ (← here) = ']' then
    let _ ← onward
    return (isNegated, [.states 1])
  let _ ← here
  return (isNegated, members)

/-- The extent of the members so far with the sets before the last operation. -/
def joined (before : Option Extent) (members : List Extent) : Extent :=
  match before with
  | none => .together members
  | some e => .together [e, .together members]

/-- The rest of a set up to its bracket, in at most so many steps. -/
def setFrom (before : Option Extent) (members : List Extent) : (count : Nat) → Reader Extent
  | 0 => failure
  | n + 1 => do
    skip
    let c ← here
    if c = '[' then
      match asciiSet? (← get).rest with
      | some (isNegated, rest) =>
        require ((← get).isUnicode || !isNegated)
        modify fun p => { p with rest }
        setFrom before (.states 1 :: members) n
      | none =>
        let (isNegated, first) ← setStart
        require ((← get).isUnicode || !isNegated)
        let e ← setFrom none first n
        setFrom before (⟨e.depth + 1, e.room⟩ :: members) n
    else if c = ']' then
      bump
      return joined before members
    else if (← eat "&&") || (← eat "--") || (← eat "~~") then
      setFrom (some (joined before members)) [] n
    else setFrom before ((← member) :: members) n

/-- A set of characters. -/
def bracketed : Reader Extent := do
  let (isNegated, first) ← setStart
  require ((← get).isUnicode || !isNegated)
  let e ← setFrom none first ((← get).rest.length + 1)
  return ⟨e.depth + 1, e.room⟩

/-! ### Repetitions -/

/-- A decimal number of at most 32 bits, with blanks around it. -/
def count : Reader Nat := do
  modify fun p => { p with rest := p.rest.dropWhile Text.isBlank }
  let digits ← takeWhile Char.isDigit
  let _ ← takeWhile Text.isBlank
  let n := digits.foldl (fun n c => n * 10 + (c.toNat - '0'.toNat)) 0
  require (digits ≠ [] && n < UInt32.size)
  return n

/-- How often a part is there, from a brace on. -/
def counted : Reader (Nat × Option Nat) := do
  let _ ← onward
  let low ← count
  let high ← if (← here) = ',' then do
      if (← onward) = '\x7d' then pure none else pure (some (← count))
    else pure (some low)
  require ((← here) = '\x7d' && high.all (low ≤ ·))
  advance
  let _ ← eat "?"
  return (low, high)

/-- How often a part is there, if a repetition follows it. -/
def repetition? : Reader (Option (Nat × Option Nat)) := do
  let simple (low : Nat) (high : Option Nat) : Reader (Option (Nat × Option Nat)) := do
    bump
    let _ ← eat "?"
    return some (low, high)
  match ← peek with
  | some '?' => simple 0 (some 1)
  | some '*' => simple 0 none
  | some '+' => simple 1 none
  | some '\x7b' => return some (← counted)
  | _ => return none

/-! ### Groups -/

/-- Whether a character may be in the name of a group. -/
def isNameChar (isFirst : Bool) (c : Char) : Bool :=
  c = '_' || c.isAlpha || 0x80 ≤ c.toNat || (!isFirst && (c.isDigit || ['.', '[', ']'].contains c))

/-- The name of a group, which no other one has. -/
def groupName : Reader Unit := do
  let rest := (← get).rest
  let name := rest.takeWhile (· ≠ '>')
  let isName := match name with
    | [] => false
    | c :: cs => isNameChar true c && cs.all (isNameChar false)
  require (isName && name.length < rest.length && !(← get).names.contains name)
  modify fun p => { p with rest := rest.drop (name.length + 1), names := name :: p.names }

/-- Flags up to `:` or `)`, each of them there once. -/
def flags : Reader (List Char) := do
  let fs := (← get).rest.takeWhile fun c => c ≠ ':' && c ≠ ')'
  modify fun p => { p with rest := p.rest.drop fs.length }
  let _ ← here
  require (fs.all ("-imsUuRx".toList.contains ·) && fs.Nodup && fs.getLast? ≠ some '-')
  return fs

/-- What flags say of one: on, off, or nothing. -/
def flag? (fs : List Char) (f : Char) : Option Bool :=
  if fs.contains f then some (!(fs.takeWhile (· ≠ f)).contains '-') else none

/-- Reads on with flags. -/
def turn (fs : List Char) : Reader Unit := modify fun p => { p with
  skipsBlanks := (flag? fs 'x').getD p.skipsBlanks
  isUnicode := (flag? fs 'u').getD p.isUnicode }

/-- What stands behind the bracket of a group: flags for what follows, or the
start of a group with flags of its own. -/
inductive Opening where
  | flags (fs : List Char)
  | group (fs : List Char)
  deriving DecidableEq, Repr, Inhabited

/-- The opening of a group, from its bracket on. -/
def opening : Reader Opening := do
  advance
  if (← eat "?=") || (← eat "?!") || (← eat "?<=") || (← eat "?<!") then failure
  else if (← eat "?P<") || (← eat "?<") then
    groupName
    return .group []
  else if ← eat "?" then
    let fs ← flags
    if ← eat ")" then
      require (fs ≠ [])
      return .flags fs
    else
      bump
      return .group fs
  else return .group []

/-! ### Patterns -/

/-- The extent of one character of a pattern, or of an escape, a dot or an
assertion. -/
def primitive : Reader Extent := do
  let c ← here
  if c = '\\' then
    match ← escape with
    | .char c isByte =>
      checkByte c isByte
      return .char c
    | .set e => return e
    | .assertion => return .states 1
  else
    bump
    require ((← get).isUnicode || c ≠ '.')
    return if c = '.' then .states 12 else .char c

/-- Reads a pattern up to the bracket that closes it or to the end, in at most so
many steps.  `parts` are those read of the branch at hand, the last one first,
without an extent if they are flags; `branches` are the ones before. -/
def patternFrom (parts : List (Option Extent)) (branches : List Extent) :
    (count : Nat) → Reader Extent
  | 0 => failure
  | n + 1 => do
    skip
    let branch := Extent.together (parts.map (·.getD ⟨0, 0⟩))
    match ← peek with
    | none => return .together (branch :: branches)
    | some ')' => return .together (branch :: branches)
    | some '|' =>
      bump
      patternFrom [] (branch :: branches) n
    | some '(' =>
      match ← opening with
      | .flags fs =>
        turn fs
        patternFrom (none :: parts) branches n
      | .group fs =>
        let outside ← get
        turn fs
        let e ← patternFrom [] [] n
        require ((← here) = ')')
        bump
        modify fun p =>
          { p with skipsBlanks := outside.skipsBlanks, isUnicode := outside.isUnicode }
        patternFrom (some e.group :: parts) branches n
    | some '[' => patternFrom (some (← bracketed) :: parts) branches n
    | some _ =>
      match ← repetition? with
      | some (low, high) =>
        match parts with
        | some e :: parts => patternFrom (some (e.repeated low high) :: parts) branches n
        | _ => failure
      | none => patternFrom (some (← primitive) :: parts) branches n

/-- A pattern as a whole. -/
def pattern : Reader Extent := do patternFrom [] [] ((← get).rest.length + 1)

end Reader

/-- Whether a text is a pattern that can be used. -/
def isUsable (text : String) : Bool :=
  match Reader.pattern { rest := text.toList } with
  | some (e, p) => p.rest.isEmpty && e.isUsable
  | none => false

end Pattern
end ParamAtlas
