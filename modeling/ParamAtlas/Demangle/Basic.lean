/-
# Shown names of symbols

`demangle_name`; specification, section 4.5.

A symbol is shown by the first of the schemes that can read all of it: legacy
paths, v0 paths, Itanium names.  A symbol that none of them can read is shown
as it is.  A path may be followed by a suffix of the linker's, which starts
with a period and is shown as it is; the mark that a module import leaves,
`.llvm.` and hexadecimal digits, is not.
-/
import ParamAtlas.Demangle.Legacy
import ParamAtlas.Demangle.V0.Symbol
import ParamAtlas.Demangle.Itanium.Expressions
import ParamAtlas.Demangle.Itanium.Printer

namespace ParamAtlas
namespace Demangle

/-- What an import mark starts with. -/
def importMark : List Char := ".llvm.".toList

/-- Whether characters are the rest of an import mark: digits, capital letters
up to `F` and `@`. -/
def isImportHash (cs : List Char) : Bool :=
  cs.all fun c => c.isDigit || c = '@' || ('A' ≤ c && c ≤ 'F')

/-- A symbol without its import mark, which starts where the first `.llvm.` does
and goes to the end. -/
def withoutImport : List Char → List Char
  | [] => []
  | c :: cs =>
    if importMark.isPrefixOf (c :: cs) then
      if isImportHash ((c :: cs).drop importMark.length) then [] else c :: cs
    else c :: withoutImport cs

/-- Whether a character may stand in the suffix of a path: a letter, a digit or
a sign of ASCII. -/
def isSuffixChar (c : Char) : Bool := 0x21 ≤ c.toNat && c.toNat ≤ 0x7e

/-- Whether characters are the suffix of a path. -/
def isSuffix : List Char → Bool
  | [] => true
  | c :: cs => c = '.' && cs.all isSuffixChar

/-- The sheet that shows a path, and what follows it in the symbol. -/
def readPath? (cs : List Char) : Option (Except Text.Sheet Text.Sheet × List Char) :=
  match Legacy.read? cs with
  | some (pieces, rest) => some (pieces.foldlM Text.Sheet.write {}, rest)
  | none => V0.read? cs

/-- The text that shows a path with its suffix. -/
def path? (s : String) : Option String := do
  let (sheet, rest) ← readPath? (withoutImport s.toList)
  if isSuffix rest then some (Text.Sheet.finished sheet ++ String.ofList rest) else none

/-- The text that shows an Itanium name. -/
def itanium? (s : String) : Option String := do
  let (pieces, table) ← Itanium.read? (s.toUTF8.toList.map fun b => Char.ofNat b.toNat)
  Itanium.written? pieces table

/-- The name shown for a symbol. -/
def name (s : String) : String := (path? s <|> itanium? s).getD s

end Demangle
end ParamAtlas
