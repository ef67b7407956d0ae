import ElmBinding.Text.Pieces

/-!
# Scopes and dotted names

A full name is the name of a scope, a dot and the name of the thing declared there.  The
empty scope adds nothing.  A name is looked up in a scope and then in the scopes around it.

Main definitions:

- Definition {lit}`qualify`: the full name of something declared in a scope.
- Definition {lit}`scopesOutward`: a scope and the scopes around it, down to the empty one.
- Definition {lit}`withoutPackage`: a full name relative to its package.
- Definition {lit}`lastSegment`: the last segment of a name.
-/

namespace ElmBinding

open Text

/-- The full name of something declared in a scope. -/
def qualify (scope name : String) : String :=
  if scope = "" then name else scope ++ "." ++ name

/-- The scope made of the first {lit}`count` segments of a name. -/
def leadingSegments (name : String) (count : Nat) : String :=
  String.ofList (['.'].intercalate ((splitAtChar '.' name.toList).take count))

/-- A scope and the scopes around it, from the innermost to the empty one. -/
def scopesOutward (scope : String) : List String :=
  (List.range ((splitAtChar '.' scope.toList).length + 1)).reverse.map (leadingSegments scope)

/-- A name without a leading qualifier and its dot; the name itself if they do not lead it. -/
def dropQualifier (qualifier name : String) : String :=
  match (qualifier.toList ++ ['.']).isPrefixOf? name.toList with
  | some rest => String.ofList rest
  | none => name

/-- A full name relative to its package; without a package there is nothing to drop. -/
def withoutPackage (package fullName : String) : String :=
  if package = "" then fullName else dropQualifier package fullName

/-- The last segment of a dotted name. -/
def lastSegment (name : String) : String :=
  String.ofList ((splitAtChar '.' name.toList).getLastD [])

end ElmBinding
