import ElmBinding.Schema.Linking
import ElmBinding.Source.Declarations
import ElmBinding.Source.Files

/-!
# Reading schemas

Schemas are read from a text on its own, from a file, or from several files whose
references may cross from one to another.

Main definitions:

- Definition {lit}`schemaOfText`: the linked schema of a text.
- Definition {lit}`schemasOfFiles`: the schemas of several files, linked together.
- Definition {lit}`schemaOfFile`: the linked schema of a file.
-/

namespace ElmBinding
namespace Source

/-- The schema of a character sequence, with references linked inside it. -/
def schemaOfChars (source : List Char) : Except SchemaError Schema := do
  let schema ← unlinkedSchema none source
  linkAlone schema

/-- The schema of a text, with references linked inside it. -/
def schemaOfText (source : String) : Except SchemaError Schema :=
  schemaOfChars source.toList

/-- The schema of the file at a path, with references as written. -/
def unlinkedSchemaAt (tree : SourceTree) (path : String) : Except SchemaError Schema :=
  match tree.read path with
  | .ok source => unlinkedSchema (some (fileNameOf path)) source.toList
  | .error error => .error (.unreadable error)

/-- The schemas of the files at several paths, in their order, linked together. -/
def schemasOfFiles (tree : SourceTree) (paths : List String) :
    Except SchemaError (List Schema) := do
  let schemas ← paths.mapM (unlinkedSchemaAt tree)
  link schemas

/-- The schema of the file at a path, with references linked inside it. -/
def schemaOfFile (tree : SourceTree) (path : String) : Except SchemaError Schema := do
  let schema ← unlinkedSchemaAt tree path
  linkAlone schema

end Source
end ElmBinding
