import ElmBinding.Schema.Basic
import ElmBinding.Text.Blank
import ElmBinding.Text.Pieces

/-!
# Comments beside a declaration

The comments of a declaration are found by lines.  Above its first line stands a run of
lines that are blank or hold nothing but a line comment.  The comment lines right above the
declaration are its leading comment; the blocks of comment lines before them are detached.
A line comment behind its end, on the same line, is the trailing comment.

Main definitions:

- Definition {lit}`Line`: what a line holds.
- Definition {lit}`linesAbove`: the lines above a place, the nearest first.
- Definition {lit}`commentBlocks`: the blocks of comment lines among lines.
- Definition {lit}`commentsBeside`: the comments of a declaration.
-/

namespace ElmBinding
namespace Source

open Text

/-! ## Lines -/

/-- What a line holds. -/
inductive Line where
  /-- Nothing but white space. -/
  | blank
  /-- Nothing but a line comment with this text. -/
  | comment (text : List Char)
  /-- Anything else. -/
  | code
deriving DecidableEq, Repr

/-- Tell a comment from other text, given the text without white space at its ends. -/
def Line.ofTrimmed : List Char → Line
  | [] => blank
  | '/' :: '/' :: text => comment text
  | _ => code

/-- What a line holds. -/
def Line.ofText (text : List Char) : Line :=
  ofTrimmed (trimWhile isBlank text)

/-- The text of a comment line. -/
def Line.comment? : Line → Option (List Char)
  | comment text => some text
  | _ => none

/-- Whether a line is a comment line. -/
def Line.isComment (line : Line) : Bool :=
  line.comment?.isSome

/-- Whether a line is neither blank nor a comment line. -/
def Line.isCode (line : Line) : Bool :=
  line = code

/-- The lines above the line of a place, the nearest first. -/
def linesAbove (source : List Char) (place : Nat) : List Line :=
  ((splitAtChar '\n' (source.take place)).dropLast.map Line.ofText).reverse

/-! ## Blocks -/

/-- The texts of maximal groups of comment lines; a group is empty between other lines. -/
def commentGroups : List Line → List (List (List Char))
  | [] => [[]]
  | line :: rest =>
      match line, commentGroups rest with
      | .comment text, group :: groups => (text :: group) :: groups
      | .comment text, [] => [[text]]
      | _, groups => [] :: groups

/-- A comment text without the blank that sets it off from its mark. -/
def withoutBlank : List Char → List Char
  | ' ' :: text => text
  | text => text

/-- The texts of comment lines, one below the other. -/
def joinLines (texts : List (List Char)) : String :=
  String.ofList (['\n'].intercalate (texts.map withoutBlank))

/-- The blocks of comment lines among lines, in the order of the lines. -/
def commentBlocks (lines : List Line) : List String :=
  ((commentGroups lines).filter fun group => !group.isEmpty).map joinLines

/-! ## Declarations -/

/-- The block of comment lines at the front of the lines above a place. -/
def leadingComment (above : List Line) : String :=
  joinLines ((above.takeWhile Line.isComment).filterMap Line.comment?).reverse

/-- The blocks behind the leading comment, up to the nearest line of code. -/
def detachedComments (above : List Line) : List String :=
  commentBlocks ((above.dropWhile Line.isComment).takeWhile fun line => !line.isCode).reverse

/-- The line comment at the front of a text, which may begin with white space. -/
def trailingComment (rest : List Char) : String :=
  match Line.ofText (rest.takeWhile fun c => c ≠ '\n') with
  | .comment text => String.ofList (trimWhile isBlank text)
  | _ => ""

/-- The comments of the declaration that stands between two places of a source. -/
def commentsBeside (source : List Char) (start stop : Nat) : Comments where
  detached := detachedComments (linesAbove source start)
  leading := leadingComment (linesAbove source start)
  trailing := trailingComment (source.drop stop)

end Source
end ElmBinding
