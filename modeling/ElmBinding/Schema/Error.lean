import ElmBinding.Grammar.Report

/-!
# Errors in schemas

Why files do not make up a schema: one cannot be read, its text does not follow the
grammar, a number does not fit its place, a name is declared twice, or a type is missing.

Main definitions:

- Definition {lit}`FileError`: why a file cannot be read.
- Definition {lit}`SchemaError`: why there is no schema.
- Definition {lit}`SchemaError.message`: what to tell the user about it.
-/

namespace ElmBinding

/-- Why a file cannot be read. -/
inductive FileError where
  /-- There is nothing at the path. -/
  | notFound
  /-- There is a directory at the path. -/
  | isDirectory
  /-- The contents of the file are no text. -/
  | notText
deriving DecidableEq, Repr

/-- The report of a file that cannot be read. -/
def FileError.message : FileError → String
  | .notFound => "No such file or directory (os error 2)"
  | .isDirectory => "Is a directory (os error 21)"
  | .notText => "stream did not contain valid UTF-8"

/-- Why files do not make up a schema. -/
inductive SchemaError where
  /-- A file cannot be read. -/
  | unreadable (error : FileError)
  /-- A text does not follow the grammar. -/
  | unparsable (report : Grammar.Report)
  /-- A name that stands for a type is not the name of one, seen from a scope. -/
  | unresolved (name scope : String)
  /-- The number of a field or value does not fit. -/
  | outOfRange (name : String) (value : Int)
  /-- A full name is declared twice. -/
  | duplicate (name : String)
deriving DecidableEq, Repr

/-- The report of an error in a schema. -/
def SchemaError.message : SchemaError → String
  | .unreadable error => "IO error: " ++ error.message
  | .unparsable report => "Parse error: " ++ report.message
  | .unresolved name scope =>
      "unresolved type `" ++ name ++ "` referenced from `" ++ scope ++ "`"
  | .outOfRange name value =>
      "`" ++ name ++ "` has out-of-range number " ++ Int.repr value
  | .duplicate name => "`" ++ name ++ "` is declared more than once"

end ElmBinding
