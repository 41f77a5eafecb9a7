/-
# The files of a machine

What a program can read and write are nodes.  Each has a number, by which others
refer to it:

| node | what it is |
| --- | --- |
| file | bytes |
| directory | the number of the directory above it, and names with numbers |
| link | a word that stands for another node |
| device | takes bytes and keeps none |

A node may have several names, or none.  The operating system may refuse to read
it, to write to it or to look anything up in it, and says why.  A volume has room
for so many bytes of a new content, if there is a limit.
-/
import ParamAtlas.Bytes.Basic

namespace ParamAtlas

/-- Why a file cannot be used: the operating system refuses it, or it is not even
asked. -/
inductive SystemFault where
  | noFile
  | denied
  | noDevice
  | notDirectory
  | isDirectory
  | noSpace
  | nameTooLong
  | tooManyLinks
  | zeroInName
  | other (number : Nat) (text : String)
  deriving DecidableEq, Repr, Inhabited

/-- A text of the operating system with its number. -/
def SystemFault.numbered (number : Nat) (text : String) : String :=
  text ++ " (os error " ++ toString number ++ ")"

/-- The text of a refusal. -/
def SystemFault.message : SystemFault → String
  | noFile => numbered 2 "No such file or directory"
  | denied => numbered 13 "Permission denied"
  | noDevice => numbered 19 "No such device"
  | notDirectory => numbered 20 "Not a directory"
  | isDirectory => numbered 21 "Is a directory"
  | noSpace => numbered 28 "No space left on device"
  | nameTooLong => numbered 36 "File name too long"
  | tooManyLinks => numbered 40 "Too many levels of symbolic links"
  | zeroInName => "file name contained an unexpected NUL byte"
  | other number text => numbered number text

/-- What takes bytes and keeps none: whether it can be read, as if it were empty,
and how many bytes it takes, if there is a limit. -/
structure Device where
  isReadable : Bool
  room : Option Nat
  deriving DecidableEq, Repr, Inhabited

/-- What a node is. -/
inductive NodeKind where
  | file (b : Bytes)
  | directory (above : Nat) (entries : List (String × Nat))
  | link (word : String)
  | device (v : Device)
  deriving DecidableEq, Repr, Inhabited

/-- Why reading, writing and looking something up are refused, where they are. -/
structure Rights where
  reading : Option SystemFault := none
  writing : Option SystemFault := none
  lookup : Option SystemFault := none
  deriving DecidableEq, Repr, Inhabited

/-- What has a number. -/
structure Node where
  kind : NodeKind
  rights : Rights
  deriving DecidableEq, Repr, Inhabited

/-- The nodes by number, the directory in which absolute words start, the one in
which the program was started, what is refused of a new file, and the room that a
content has. -/
structure FileSystem where
  nodes : Array Node
  root : Nat
  start : Nat
  newFile : Rights
  room : Option Nat
  deriving DecidableEq, Repr, Inhabited

namespace NodeKind

/-- A directory with one more name in it; anything else as it is. -/
def withEntry (name : String) (number : Nat) : NodeKind → NodeKind
  | directory above entries => directory above (entries ++ [(name, number)])
  | other => other

end NodeKind

namespace FileSystem

/-- Puts bytes in the place of what a node was. -/
def rewrite (fs : FileSystem) (i : Nat) (b : Bytes) : FileSystem :=
  { fs with nodes := fs.nodes.modify i fun node => { node with kind := .file b } }

/-- Adds a file to a directory. -/
def create (fs : FileSystem) (dir : Nat) (name : String) (b : Bytes) : FileSystem :=
  let named := fs.nodes.modify dir fun node =>
    { node with kind := node.kind.withEntry name fs.nodes.size }
  { fs with nodes := named.push ⟨.file b, fs.newFile⟩ }

end FileSystem
end ParamAtlas
