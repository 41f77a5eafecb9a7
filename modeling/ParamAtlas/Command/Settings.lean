/-
# Settings of a run

`Config` and `default_spec`; specification, section 9.

| setting | words | chosen on the command line as | without a choice |
| --- | --- | --- | --- |
| form of the listing | `text`, `json` | the same | `text` |
| contested addresses | `first-wins`, `last-wins` | `first`, `last` | `last` |
-/
import ParamAtlas.Listing.Output

namespace ParamAtlas

namespace OutputFormat

/-- The word for a form of listing. -/
def word : OutputFormat → String
  | .text => "text"
  | .json => "json"

/-- The form that a word names. -/
def ofWord? : String → Option OutputFormat
  | "text" => some .text
  | "json" => some .json
  | _ => none

end OutputFormat

namespace DuplicatePolicy

/-- The word for a policy. -/
def word : DuplicatePolicy → String
  | .firstWins => "first-wins"
  | .lastWins => "last-wins"

/-- The policy that a word names. -/
def ofWord? : String → Option DuplicatePolicy
  | "first-wins" => some .firstWins
  | "last-wins" => some .lastWins
  | _ => none

/-- The policy that an argument of the command line names. -/
def ofArgument? : String → Option DuplicatePolicy
  | "first" => some .firstWins
  | "last" => some .lastWins
  | _ => none

end DuplicatePolicy

/-- Everything that one run is told. -/
structure Settings where
  input : String
  output : String
  format : OutputFormat
  duplicates : DuplicatePolicy
  demangle : Bool
  debug : Bool
  logSpec : Option String
  deriving DecidableEq, Repr, Inhabited

namespace Settings

/-- The settings of a run that is told its two files only. -/
def ofFiles (input output : String) : Settings :=
  ⟨input, output, .text, .lastWins, false, false, none⟩

/-- What is logged when nothing else is asked for. -/
def defaultLogSpec (debug : Bool) : String := if debug then "debug" else "info"

end Settings
end ParamAtlas
