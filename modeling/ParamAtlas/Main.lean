/-
# The program

`main`; specification, section 6.

Reads the words of its command line and the input file, writes the listing to
the output file, and tells on standard error what happened.  What is read, told
and written is decided elsewhere; here it is done.
-/
import ParamAtlas.Command.Run

namespace ParamAtlas
namespace Program

/-- The text of a refusal of the operating system. -/
def refusal : IO.Error → String
  | .noFileOrDirectory .. => SystemFault.noFile.message
  | .alreadyExists _ code text | .invalidArgument _ code text
  | .permissionDenied _ code text | .resourceExhausted _ code text | .inappropriateType _ code text
  | .noSuchThing _ code text | .otherError code text | .resourceBusy code text
  | .resourceVanished code text | .unsupportedOperation code text | .hardwareFault code text
  | .unsatisfiedConstraints code text | .illegalOperation code text | .protocolError code text
  | .timeExpired code text | .interrupted _ code text => SystemFault.numbered code.toNat text
  | .unexpectedEof => "unexpected end of file"
  | .userError text => text

/-- The bytes of the input; a directory is not a device that can be read. -/
def input (s : Settings) : IO (Except Failure Bytes) := do
  try
    return .ok (← IO.FS.readBinFile s.input).data
  catch e =>
    let isDirectory := refusal e = SystemFault.isDirectory.message
    let reason := if isDirectory then SystemFault.noDevice.message else refusal e
    return .error (.badInput s.input reason)

/-- Writes the listing to the output. -/
def output (s : Settings) (rows : List Row) : IO (Except Failure Unit) := do
  try
    let file ← IO.FS.Handle.mk s.output .write
    file.putStr (Listing.text s.format rows)
    file.flush
    return .ok ()
  catch e => return .error (.unwritable s.output (refusal e))

/-- Tells why there is no complete listing. -/
def complain (why : String) : IO UInt32 := do
  IO.eprintln ("Error: " ++ why)
  return 1

/-- Tells what happened on the way. -/
def tell (s : Settings) (events : List Event) : IO Unit := do
  let spec := s.logSpec.getD (Settings.defaultLogSpec s.debug)
  for e in events do
    if LogSpec.admits spec e.severity then IO.eprintln e.line

/-- Extracts a listing. -/
def extract (s : Settings) : IO UInt32 := do
  match ← input s with
  | .error f => complain f.message
  | .ok b =>
    match Extraction.ofBytes s b with
    | .error f => complain f.message
    | .ok e =>
      tell s e.events
      match ← output s e.rows with
      | .error f => complain f.message
      | .ok () => return 0

/-- Does what the words of a command line say. -/
def run (words : List String) : IO UInt32 := do
  match CommandLine.settings words with
  | .error r =>
    IO.print r.text
    if r.isFault then IO.eprint CommandLine.helpText
    return if r.isFault then 2 else 0
  | .ok s =>
    if s.logSpec.all LogSpec.isValid then extract s else complain Outcome.noLog

end Program
end ParamAtlas

/-- The program. -/
def main (words : List String) : IO UInt32 := ParamAtlas.Program.run words
