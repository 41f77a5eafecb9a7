/-
# What is to be logged

What `logging::init` refuses; specification, section 8.

A specification is a list of parts between commas, and may be followed by a
slash and a filter for the texts, which is a pattern.  A part is one of

| part | meaning |
| --- | --- |
| nothing | – |
| `level` | this level for everything |
| `name`, `name=` | everything under this name |
| `name=level` | this level under this name |

The levels are `off`, `error`, `warn`, `info`, `debug`, `trace`, in letters of
either case.  A specification with a faulty part or filter is not used at all.
-/
import ParamAtlas.Event
import ParamAtlas.Pattern.Reader

namespace ParamAtlas
namespace LogSpec

open Text (isBlank trimmed)

/-- The words for levels. -/
def levels : List String := ["off", "error", "warn", "info", "debug", "trace"]

/-- Whether characters are the word for a level. -/
def isLevel (cs : List Char) : Bool := levels.contains (String.ofList (cs.map Char.toLower))

/-- Whether a part means something. -/
def isPart (part : List Char) : Bool :=
  let part := trimmed part
  part.isEmpty ||
    match (Text.pieces '=' part).map trimmed with
    | [name] => !name.any isBlank
    | [name, level] => !name.any isBlank && (level.isEmpty || isLevel level)
    | _ => false

/-- Whether a specification can be used. -/
def isValid (spec : String) : Bool :=
  match Text.pieces '/' spec.toList with
  | [parts] => (Text.pieces ',' parts).all isPart
  | [parts, filter] =>
    (Text.pieces ',' parts).all isPart && Pattern.isUsable (String.ofList filter)
  | _ => false

/-- Whether events of a severity are told.  A specification of more than a level
leaves the choice to the reader of the log. -/
def admits (spec : String) (s : Severity) : Bool :=
  match spec.toLower with
  | "off" | "error" => false
  | "warn" => s = .warn
  | "info" => s ≠ .debug
  | _ => true

end LogSpec
end ParamAtlas
