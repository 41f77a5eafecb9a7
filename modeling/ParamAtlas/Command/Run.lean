/-
# A run of the program

`run`, `write_to` and `main`; specification, section 4.6.

| what happens | exit code | output file |
| --- | ---: | --- |
| the command line asks about the program | 0 | untouched |
| the command line is faulty | 2 | untouched |
| the log cannot be started | 1 | untouched |
| the extraction fails | 1 | untouched |
| there is no room for all of the listing | 1 | holds its beginning |
| the listing cannot be written otherwise | 1 | untouched |
| all goes well | 0 | holds the listing |
-/
import ParamAtlas.Command.Access
import ParamAtlas.Command.Line
import ParamAtlas.Command.LogSpec
import ParamAtlas.Extraction

namespace ParamAtlas

namespace Extraction

/-- Extracts the listing of the image in a file. -/
def ofFile (s : Settings) (fs : FileSystem) : Except Failure Extraction :=
  match fs.read s.input with
  | .error f => .error (.badInput s.input f.message)
  | .ok b => ofBytes s b

end Extraction

/-- What a run leaves: the files, and the extraction or why there is no complete
listing of it. -/
structure RunResult where
  files : FileSystem
  extraction : Except Failure Extraction

/-- Extracts a listing from the input and writes it to the output. -/
def Settings.run (s : Settings) (fs : FileSystem) : RunResult :=
  match Extraction.ofFile s fs with
  | .error f => ⟨fs, .error f⟩
  | .ok e =>
    match fs.write s.output s.format e.rows with
    | (fs, .ok ()) => ⟨fs, .ok e⟩
    | (fs, .error f) => ⟨fs, .error (.unwritable s.output f.message)⟩

/-- What a process leaves: its exit code, its text on standard output, the
failure it tells about, and the files. -/
structure Outcome where
  exitCode : Nat
  output : String
  complaint : Option String
  files : FileSystem

namespace Outcome

/-- What is told when the log cannot be started. -/
def noLog : String := "failed to start logger"

/-- The outcome of a process that is given these words. -/
def ofWords (words : List String) (fs : FileSystem) : Outcome :=
  match CommandLine.settings words with
  | .error r => ⟨if r.isFault then 2 else 0, r.text, none, fs⟩
  | .ok s =>
    if s.logSpec.all LogSpec.isValid then
      match s.run fs with
      | ⟨fs, .ok _⟩ => ⟨0, "", none, fs⟩
      | ⟨fs, .error f⟩ => ⟨1, "", some f.message, fs⟩
    else ⟨1, "", some noLog, fs⟩

end Outcome
end ParamAtlas
