/-
# Ways to a node

How `run` and `write_to` come from a path to a file.

A word for a file is a way, step by step between slashes, from the root if it
starts with a slash and from the current directory otherwise:

| step | leads to |
| --- | --- |
| nothing | the same place |
| `.` | the same place, which must be a directory |
| `..` | the directory above |
| a name | what has the name there |
| nothing, at the end | the same place, which must be a directory |

Only a directory can be left, and only through names of up to 255 bytes.  A link
that is come upon stands for its word, which goes on from the directory the link
is in; one word may lead over forty links.  A way may also end where there is
nothing of the last name yet.
-/
import ParamAtlas.Command.FileSystem
import ParamAtlas.Text.Pieces

namespace ParamAtlas

/-- A step of a way. -/
inductive Step where
  | here
  | up
  | name (n : String)
  /-- Stays, but only in a directory. -/
  | slash
  deriving DecidableEq, Repr, Inhabited

/-- Whether a step is a name. -/
def Step.isName : Step → Bool
  | name _ => true
  | here | up | slash => false

/-- A way: whether it starts at the root, and its steps. -/
structure Way where
  fromRoot : Bool
  steps : List Step
  deriving DecidableEq, Repr, Inhabited

namespace Way

/-- The longest name, in bytes. -/
def longestName : Nat := 255

/-- The longest word for a file, in bytes. -/
def longestWord : Nat := 4095

/-- The most links that a word may lead over. -/
def mostLinks : Nat := 40

/-- The step between two slashes. -/
def stepOf (cs : List Char) : Step :=
  if cs = ['.'] then .here
  else if cs = ['.', '.'] then .up
  else .name (String.ofList cs)

/-- The way that a word for a file tells. -/
def ofWord (word : String) : Except SystemFault Way :=
  let cs := word.toList
  let parts := Text.pieces '/' cs
  if '\x00' ∈ cs then .error .zeroInName
  else if cs = [] then .error .noFile
  else if longestWord < word.utf8ByteSize then .error .nameTooLong
  else .ok {
    fromRoot := cs.head? = some '/'
    steps := (parts.filter (· ≠ [])).map stepOf ++
      if parts.getLast? = some [] then [.slash] else [] }

end Way

/-- Where a way leads: to a node, or to where there is nothing of a name in a
directory. -/
inductive Target where
  | node (i : Nat)
  | vacant (dir : Nat) (name : String)
  deriving DecidableEq, Repr, Inhabited

namespace FileSystem

variable (fs : FileSystem)

/-- Whether a number is that of a directory. -/
def isDirectory (i : Nat) : Bool :=
  match fs.nodes[i]? with
  | some ⟨.directory .., _⟩ => true
  | _ => false

/-- The directory above a directory and the names in it, if something may be
looked up there. -/
def enter (i : Nat) : Except SystemFault (Nat × List (String × Nat)) :=
  match fs.nodes[i]? with
  | some ⟨.directory above entries, rights⟩ =>
    match rights.lookup with
    | some f => .error f
    | none => .ok (above, entries)
  | _ => .error .notDirectory

/-- The word that a link stands for. -/
def link? (i : Nat) : Option String :=
  match fs.nodes[i]? with
  | some ⟨.link word, _⟩ => some word
  | _ => none

/-- Where a step leads from a node. -/
def step (i : Nat) : Step → Except SystemFault Target
  | .slash => if fs.isDirectory i then .ok (.node i) else .error .notDirectory
  | .here => do
    let _ ← fs.enter i
    .ok (.node i)
  | .up => do
    let (above, _) ← fs.enter i
    .ok (.node above)
  | .name n => do
    let (_, entries) ← fs.enter i
    if Way.longestName < n.utf8ByteSize then .error .nameTooLong
    else .ok ((entries.lookup n).elim (.vacant i n) .node)

/-- Where a way starts that is told in a directory. -/
def origin (i : Nat) (way : Way) : Nat := if way.fromRoot then fs.root else i

/-- Where steps lead from a node, over so many links at most.  A file that is to be
created cannot have a slash behind its name. -/
def locate (creates : Bool) (links i : Nat) (steps : List Step) : Except SystemFault Target :=
  match steps with
  | [] => .ok (.node i)
  | s :: rest =>
    if creates ∧ s.isName ∧ rest = [.slash] then
      match fs.enter i with
      | .error f => .error f
      | .ok _ => .error .isDirectory
    else
      match fs.step i s with
      | .error f => .error f
      | .ok (.vacant dir n) => if rest = [] then .ok (.vacant dir n) else .error .noFile
      | .ok (.node j) =>
        match fs.link? j with
        | none => locate creates links j rest
        | some word =>
          match links, Way.ofWord word with
          | 0, _ => .error .tooManyLinks
          | _ + 1, .error f => .error f
          | links + 1, .ok way => locate creates links (fs.origin i way) (way.steps ++ rest)
termination_by (links, steps.length)

/-- Where a word for a file leads. -/
def target (creates : Bool) (word : String) : Except SystemFault Target := do
  let way ← Way.ofWord word
  fs.locate creates Way.mostLinks (fs.origin fs.start way) way.steps

end FileSystem
end ParamAtlas
