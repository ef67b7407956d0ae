import ElmBinding.Schema.Basic

/-!
# Schemas of one package

The files of a package make up one schema: the first of them, with the declarations of the
others behind its own.  Files without a package stay apart.

Main definitions:

- Definition {lit}`Schema.extend`: a schema with the declarations of another.
- Definition {lit}`mergePackages`: one schema a package, in the order of first files.
-/

namespace ElmBinding

namespace Schema

/-- A schema with the declarations of another one behind its own. -/
def extend (schema other : Schema) : Schema :=
  { schema with
    messages := schema.messages ++ other.messages
    enums := schema.enums ++ other.enums
    services := schema.services ++ other.services }

/-- Whether two schemas belong to one package. -/
def samePackage (schema other : Schema) : Bool :=
  schema.packageName ≠ "" && schema.packageName = other.packageName

end Schema

/-- Add a schema to the first one of its package, or at the end if there is none. -/
def mergeInto : List Schema → Schema → List Schema
  | [], other => [other]
  | schema :: rest, other =>
      if schema.samePackage other then
        schema.extend other :: rest
      else
        schema :: mergeInto rest other

/-- One schema a package, at the place of its first file; files without a package stay apart. -/
def mergePackages (schemas : List Schema) : List Schema :=
  schemas.foldl mergeInto []

end ElmBinding
