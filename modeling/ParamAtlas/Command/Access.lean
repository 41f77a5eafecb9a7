/-
# Reading and writing files

How `run` reads its input and `write_to` writes its output; specification, section 4.6.

| what a word leads to | reading | writing |
| --- | --- | --- |
| a file | all of it | in its place |
| nothing, in a directory | refused | a new file |
| a directory | refused | refused |
| a device | as the device has it | as the device has it |

A file is opened before anything is written to it, and has lost its content by
then.  If there is no room for all of the new content, as much of it is written
as there is room for.
-/
import ParamAtlas.Command.Way
import ParamAtlas.Listing.Output

namespace ParamAtlas

/-- Where something can be written. -/
inductive Outlet where
  | file (i : Nat)
  | fresh (dir : Nat) (name : String)
  | device (v : Device)
  deriving DecidableEq, Repr, Inhabited

namespace FileSystem

variable (fs : FileSystem)

/-- The node that a word leads to. -/
def find (word : String) : Except SystemFault Nat := do
  match ← fs.target false word with
  | .node i => .ok i
  | .vacant .. => .error .noFile

/-- Reads a file as a whole. -/
def read (word : String) : Except SystemFault Bytes := do
  let i ← fs.find word
  match fs.nodes[i]? with
  | none => .error .noFile
  | some ⟨kind, rights⟩ =>
    match rights.reading, kind with
    | some f, _ => .error f
    | none, .file b => .ok b
    | none, .device v => if v.isReadable then .ok #[] else .error .noDevice
    | none, .directory .. | none, .link _ => .error .noDevice

/-- The outlet at the end of a way. -/
def outletAt : Target → Except SystemFault Outlet
  | .vacant dir name =>
    match (fs.nodes[dir]?).bind (·.rights.writing) with
    | some f => .error f
    | none => .ok (.fresh dir name)
  | .node i =>
    match fs.nodes[i]? with
    | none => .error .noFile
    | some ⟨kind, rights⟩ =>
      match kind, rights.writing with
      | .directory .., _ => .error .isDirectory
      | _, some f => .error f
      | .file _, none => .ok (.file i)
      | .device v, none => .ok (.device v)
      | .link _, none => .error .tooManyLinks

/-- The outlet that a word leads to. -/
def outlet (word : String) : Except SystemFault Outlet := do
  fs.outletAt (← fs.target true word)

/-- The room for bytes in an outlet, if there is a limit. -/
def roomIn : Outlet → Option Nat
  | .file _ | .fresh .. => fs.room
  | .device v => v.room

/-- Puts bytes into an outlet. -/
def put (b : Bytes) : Outlet → FileSystem
  | .file i => fs.rewrite i b
  | .fresh dir name => fs.create dir name b
  | .device _ => fs

/-- Writes bytes to an outlet, as many as there is room for. -/
def pour (b : Bytes) (o : Outlet) : FileSystem × Except SystemFault Unit :=
  match fs.roomIn o with
  | none => (fs.put b o, .ok ())
  | some n => (fs.put (b.extract 0 n) o, if b.size ≤ n then .ok () else .error .noSpace)

/-- Writes a listing to the outlet that a word leads to. -/
def write (word : String) (format : OutputFormat) (rs : List Row) :
    FileSystem × Except SystemFault Unit :=
  match fs.outlet word with
  | .error f => (fs, .error f)
  | .ok o => fs.pour (.ofText (Listing.text format rs)) o

end FileSystem
end ParamAtlas
