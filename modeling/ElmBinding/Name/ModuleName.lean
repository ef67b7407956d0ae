import ElmBinding.Name.Casing
import ElmBinding.Name.Legal

/-!
# Module names

A module is named after its package, or after its file if it has no package.  Every
segment of the source becomes a type name, and a prefix may go before them.

Main definitions:

- Definition {lit}`packageModule`: the module of a dotted package name.
- Definition {lit}`fileStem?`: the dotted name that a file path stands for.
- Definition {lit}`modulePath`: the file of a module.
-/

namespace ElmBinding
namespace Name

open Text

/-- The module of a package: its segments as type names, behind the prefix if there is one. -/
def packageModule (modulePrefix package : String) : String :=
  let segments := (splitAtChar '.' package.toList).map fun segment =>
    casing .type "" (String.ofList segment)
  let name := ".".intercalate segments
  if modulePrefix = "" then name else modulePrefix ++ "." ++ name

/-- A path without the extension of schema files. -/
def withoutExtension (path : List Char) : List Char :=
  (".proto".toList.isSuffixOf? path).getD path

/--
The dotted name that a file path stands for: the path without its extension and without
the characters at its ends that are neither letters nor numbers, directories read as
segments.  There is none if nothing is left.
-/
def fileStem? (path : String) : Option String :=
  let stem := trimWhile (fun c => !(isAlphabetic c || isNumeric c)) (withoutExtension path.toList)
  if stem.isEmpty then
    none
  else
    some (String.ofList (stem.map fun c => if c = '/' then '.' else c))

/-- The file of a module, relative to the root of the generated modules. -/
def modulePath (name : String) : String :=
  String.ofList (name.toList.map fun c => if c = '.' then '/' else c) ++ ".elm"

end Name
end ElmBinding
