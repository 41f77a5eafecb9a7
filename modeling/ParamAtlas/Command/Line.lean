/-
# The command line

`Cli`, and what becomes of it in a `Config`; specification, section 6.

| words | meaning |
| --- | --- |
| two words without a dash in front | input, output |
| `-f W`, `--format W` | form of the listing |
| `--duplicates W` | who keeps a contested address |
| `--demangle` | show readable names |
| `-d`, `--debug` | tell more |
| `--log-spec W` | what to tell |
| `-h`, `--help`, `-V`, `--version` | tell about the program and stop |
| `--` | all further words are files |

A value stands in the next word, after `=`, or right after a letter; letters
can share a dash.  A value in a word of its own is not looked at before the next
argument settles it, and a word that is no argument at all is refused before
anything waiting is settled.  Each option may be given once.
-/
import ParamAtlas.Command.Settings

namespace ParamAtlas
namespace CommandLine

/-- Why a command line gives no settings: a fault, or a request to tell about
the program. -/
inductive Refusal where
  | missingArgument
  | invalidValue
  | unknownArgument
  | unexpectedValue
  | repeatedArgument
  | help
  | version
  deriving DecidableEq, Repr, Inhabited

/-- Whether a refusal is a fault. -/
def Refusal.isFault : Refusal → Bool
  | missingArgument | invalidValue | unknownArgument | unexpectedValue | repeatedArgument => true
  | help | version => false

/-- What takes a value. -/
inductive Slot where
  | input
  | output
  | format
  | duplicates
  | logSpec
  deriving DecidableEq, Repr, Inhabited

/-- What is switched on. -/
inductive Switch where
  | demangle
  | debug
  deriving DecidableEq, Repr, Inhabited

/-- What a name stands for. -/
inductive Named where
  | slot (s : Slot)
  | switch (s : Switch)
  | request (r : Refusal)
  deriving DecidableEq, Repr, Inhabited

/-- The meaning of a name behind two dashes. -/
def Named.ofWord? : String → Option Named
  | "format" => some (slot .format)
  | "duplicates" => some (slot .duplicates)
  | "log-spec" => some (slot .logSpec)
  | "demangle" => some (switch .demangle)
  | "debug" => some (switch .debug)
  | "help" => some (request .help)
  | "version" => some (request .version)
  | _ => none

/-- The meaning of a letter behind one dash. -/
def Named.ofLetter? : Char → Option Named
  | 'f' => some (slot .format)
  | 'd' => some (switch .debug)
  | 'h' => some (request .help)
  | 'V' => some (request .version)
  | _ => none

/-- What is known part of the way through a command line.  `waiting` is the slot
met last, with its value if that has been met, and is settled by the next
argument.  `files` counts the words for files. -/
structure Draft where
  input : Option String
  output : Option String
  format : Option OutputFormat
  duplicates : Option DuplicatePolicy
  logSpec : Option String
  demangle : Bool
  debug : Bool
  waiting : Option (Slot × Option String)
  files : Nat
  filesOnly : Bool
  deriving DecidableEq, Repr, Inhabited

namespace Draft

/-- What is known before the first word. -/
def blank : Draft := ⟨none, none, none, none, none, false, false, none, 0, false⟩

/-- Whether a slot has its value. -/
def isSet (d : Draft) : Slot → Bool
  | .input => d.input.isSome
  | .output => d.output.isSome
  | .format => d.format.isSome
  | .duplicates => d.duplicates.isSome
  | .logSpec => d.logSpec.isSome

/-- A value that must be there and mean something. -/
def valid {α : Type} : Option α → Except Refusal α
  | some a => .ok a
  | none => .error .invalidValue

/-- A word that may name a file: any but the empty one. -/
def fileName? (word : String) : Option String := if word = "" then none else some word

/-- Gives a slot its value. -/
def store (d : Draft) (s : Slot) (word : String) : Except Refusal Draft :=
  if d.isSet s then .error .repeatedArgument
  else
    match s with
    | .input => do return { d with input := some (← valid (fileName? word)) }
    | .output => do return { d with output := some (← valid (fileName? word)) }
    | .format => do return { d with format := some (← valid (OutputFormat.ofWord? word)) }
    | .duplicates => do
      return { d with duplicates := some (← valid (DuplicatePolicy.ofArgument? word)) }
    | .logSpec => .ok { d with logSpec := some word }

/-- Settles what is waiting. -/
def settle (d : Draft) : Except Refusal Draft :=
  match d.waiting with
  | none => .ok d
  | some (_, none) => .error .invalidValue
  | some (s, some word) => Draft.store { d with waiting := none } s word

/-- Whether something is switched on. -/
def isOn (d : Draft) : Switch → Bool
  | .demangle => d.demangle
  | .debug => d.debug

/-- Switches something on. -/
def turnOn (d : Draft) (s : Switch) : Except Refusal Draft :=
  if d.isOn s then .error .repeatedArgument
  else
    match s with
    | .demangle => .ok { d with demangle := true }
    | .debug => .ok { d with debug := true }

/-- Takes in a slot with the value attached to its name, or waits for one. -/
def takeSlot (d : Draft) (s : Slot) (attached : Option String) : Except Refusal Draft := do
  let d ← d.settle
  match attached with
  | some word => d.store s word
  | none => return { d with waiting := some (s, none) }

/-- Takes in a name that has no value. -/
def takePlain (d : Draft) : Named → Except Refusal Draft
  | .slot s => d.takeSlot s none
  | .switch s => do (← d.settle).turnOn s
  | .request r => do
    let _ ← d.settle
    throw r

/-- Takes in the letters behind one dash. -/
def takeLetters (d : Draft) : List Char → Except Refusal Draft
  | [] => .ok d
  | c :: rest =>
    match Named.ofLetter? c with
    | none => .error .unknownArgument
    | some (.slot s) =>
      d.takeSlot s <| match rest with
        | [] => none
        | '=' :: value => some (String.ofList value)
        | value => some (String.ofList value)
    | some n => do (← d.takePlain n).takeLetters rest

/-- Takes in what stands behind two dashes. -/
def takeName (d : Draft) (cs : List Char) : Except Refusal Draft :=
  let name := String.ofList (cs.takeWhile (· ≠ '='))
  let attached := match cs.dropWhile (· ≠ '=') with
    | [] => none
    | _ :: value => some (String.ofList value)
  match Named.ofWord? name, attached with
  | none, _ => .error .unknownArgument
  | some (.slot s), _ => d.takeSlot s attached
  | some _, some _ => .error .unexpectedValue
  | some n, none => d.takePlain n

/-- Takes in a word for a file: the first is the input, the second the output. -/
def takeFile (d : Draft) (word : String) : Except Refusal Draft :=
  let next? : Option Slot := match d.files with
    | 0 => some .input
    | 1 => some .output
    | _ => none
  match next? with
  | none => .error .unknownArgument
  | some s => do
    return { (← d.settle) with waiting := some (s, some word), files := d.files + 1 }

/-- Takes in a word that does not start with a dash, or is a single dash: the
value that is waited for, or a file. -/
def takeWord (d : Draft) (word : String) : Except Refusal Draft :=
  match d.waiting with
  | some (s, none) => .ok { d with waiting := some (s, some word) }
  | _ => d.takeFile word

/-- Takes in the next word. -/
def take (d : Draft) (word : String) : Except Refusal Draft :=
  if d.filesOnly then d.takeFile word
  else
    match word.toList with
    | ['-', '-'] => .ok { d with filesOnly := true }
    | '-' :: '-' :: cs => d.takeName cs
    | '-' :: c :: cs => d.takeLetters (c :: cs)
    | _ => d.takeWord word

/-- The settings that a complete command line gives. -/
def finish (d : Draft) : Except Refusal Settings := do
  let d ← d.settle
  match d.input, d.output with
  | some input, some output =>
    return { Settings.ofFiles input output with
      format := d.format.getD .text
      duplicates := d.duplicates.getD .lastWins
      demangle := d.demangle
      debug := d.debug
      logSpec := d.logSpec }
  | _, _ => throw .missingArgument

end Draft

/-- The settings that the words of a command line give. -/
def settings (words : List String) : Except Refusal Settings := do
  (← words.foldlM Draft.take .blank).finish

/-- The name of the program and its version. -/
def versionText : String := "signature-helper 0.1.2\n"

/-- What the program tells about itself. -/
def helpText : String := String.join <| [
  "Recover function entry addresses and parameter names from an executable's symbol table " ++
    "and DWARF debug info",
  "",
  "Usage: signature-helper [OPTIONS] <INPUT> <OUTPUT>",
  "",
  "Arguments:",
  "  <INPUT>   ELF (or Mach-O/PE) image to read",
  "  <OUTPUT>  Where to write the signature listing",
  "",
  "Options:",
  "  -f, --format <FORMAT>          Output format: text or json [default: text]",
  "      --duplicates <DUPLICATES>  Which subprogram keeps an entry address that several claim: " ++
    "first or last [default: last]",
  "      --demangle                 Demangle symbol names in the output",
  "  -d, --debug                    Enable debug output",
  "      --log-spec <LOG_SPEC>      What to log, for instance info",
  "  -h, --help                     Print help",
  "  -V, --version                  Print version"].map (· ++ "\n")

/-- What a refusal makes the program tell on its output. -/
def Refusal.text : Refusal → String
  | help => helpText
  | version => versionText
  | _ => ""

end CommandLine
end ParamAtlas
