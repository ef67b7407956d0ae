import ElmBinding.Schema.Error
import ElmBinding.Text.Pieces

/-!
# Files

The files that schemas are read from.  Two paths name one place if they agree up to empty
segments and segments that stay where they are.  A path that leads to no file but to a
place above one is a directory.

Main definitions:

- Definition {lit}`Content`: the contents of a file, as text or as bytes.
- Definition {lit}`SourceTree`: files with their paths.
- Definition {lit}`SourceTree.read`: the text of the file at a path.
-/

namespace ElmBinding
namespace Source

open Text

/-- The contents of a file. -/
inductive Content where
  /-- Contents that are text. -/
  | text (text : String)
  /-- Contents that may be text. -/
  | bytes (bytes : List UInt8)
deriving DecidableEq, Repr

/-- The text of the contents, if they are text. -/
def Content.text? : Content → Option String
  | .text contents => some contents
  | .bytes contents => String.fromUTF8? (ByteArray.mk contents.toArray)

/-- Files with their paths; of several with one path the last one counts. -/
abbrev SourceTree := List (String × Content)

/-- The segments of a path that lead somewhere else. -/
def pathSegments (path : String) : List (List Char) :=
  (splitAtChar '/' path.toList).filter fun segment => !(segment.isEmpty || segment = ['.'])

/-- Whether two paths name one place. -/
def samePlace (path other : String) : Bool :=
  pathSegments path = pathSegments other

/-- Whether a path leads to a place inside the directory at another path. -/
def liesBelow (path directory : String) : Bool :=
  (pathSegments directory).isPrefixOf (pathSegments path)

namespace SourceTree

/-- The contents of the file at a path. -/
def content? (tree : SourceTree) (path : String) : Option Content :=
  (tree.reverse.find? fun file => samePlace file.1 path).map Prod.snd

/-- The text of the file at a path. -/
def read (tree : SourceTree) (path : String) : Except FileError String :=
  if path = "" then
    .error .notFound
  else
    match tree.content? path with
    | some content =>
        match content.text? with
        | some text => .ok text
        | none => .error .notText
    | none =>
        if tree.any fun file => liesBelow file.1 path then
          .error .isDirectory
        else
          .error .notFound

end SourceTree

/-- The name under which a file is known: its path with slashes between the segments. -/
def fileNameOf (path : String) : String :=
  String.ofList (path.toList.map fun c => if c = '\\' then '/' else c)

end Source
end ElmBinding
