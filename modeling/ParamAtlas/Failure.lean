/-
# Failures

`ExtractError` with `is_fatal`; specification, section 7.

| failure | stops the run |
| --- | --- |
| the input cannot be read, or is no object file | yes |
| the object file has no symbol table | yes |
| there is no debug information | no: no function gets a row |
| the output cannot be written | yes |

Trouble with a single debug entry or attribute is no failure: that datum
counts as absent.
-/

namespace ParamAtlas

/-- What can go wrong in a run. -/
inductive Failure where
  | badInput (path reason : String)
  | noSymbolTable (path : String)
  | noDebugInfo (why : String)
  | unwritable (path cause : String)
  deriving DecidableEq, Repr, Inhabited

namespace Failure

/-- The text of a failure. -/
def message : Failure → String
  | badInput path reason => "cannot process " ++ path ++ ": " ++ reason
  | noSymbolTable path => path ++ " has no symbol table"
  | noDebugInfo why => "no usable debug info: " ++ why
  | unwritable path cause => "failed to write " ++ path ++ ": " ++ cause

/-- Whether the run must stop: only missing debug information lets it go on. -/
def isFatal : Failure → Bool
  | noDebugInfo _ => false
  | badInput .. | noSymbolTable _ | unwritable .. => true

/-- The failure beneath this one, where one is kept. -/
def cause? : Failure → Option String
  | unwritable _ cause => some cause
  | badInput .. | noSymbolTable _ | noDebugInfo _ => none

/-- What a run goes on with: what there is, or why there is nothing, unless the run must
stop for that. -/
def absorb {α : Type} : Except Failure α → Except Failure (Except Failure α)
  | .ok a => .ok (.ok a)
  | .error f => if f.isFatal then .error f else .ok (.error f)

end Failure
end ParamAtlas
