/-!
# Gaps between tokens

Between the tokens of a schema there may be blanks, line breaks and comments.  A line
comment runs to the end of its line.  A block comment runs to its closing mark; one that
is never closed is no gap.

Main definitions:

- Definition {lit}`blankLength`, {lit}`commentLength`: the blank or comment at the front of a text.
- Definition {lit}`gapLength`: all blanks and comments at the front of a text.
-/

namespace ElmBinding
namespace Source

/-- The length of a line break at the front of a text. -/
def newlineLength : List Char → Nat
  | '\n' :: _ => 1
  | '\r' :: '\n' :: _ => 2
  | '\r' :: _ => 1
  | _ => 0

/-- The length of a blank or line break at the front of a text. -/
def blankLength : List Char → Nat
  | ' ' :: _ => 1
  | '\t' :: _ => 1
  | text => newlineLength text

/-- Whether a character goes on with a line. -/
def isInLine (c : Char) : Bool :=
  c ≠ '\n' && c ≠ '\r'

/-- The length up to the closing mark of a block comment, the mark included. -/
def closingLength? : List Char → Option Nat
  | [] => none
  | '*' :: '/' :: _ => some 2
  | _ :: rest => (closingLength? rest).map (· + 1)

/-- The length of a comment at the front of a text. -/
def commentLength : List Char → Nat
  | '/' :: '/' :: rest => 2 + (rest.takeWhile isInLine).length
  | '/' :: '*' :: rest => (closingLength? rest).elim 0 (2 + ·)
  | _ => 0

/-- The length of a blank, line break or comment at the front of a text. -/
def separatorLength (text : List Char) : Nat :=
  match blankLength text with
  | 0 => commentLength text
  | more + 1 => more + 1

/-- The length of a gap of which {lit}`known` more characters belong to the current separator. -/
def gapLengthFrom : Nat → List Char → Nat
  | _, [] => 0
  | known + 1, _ :: rest => 1 + gapLengthFrom known rest
  | 0, c :: rest =>
      match separatorLength (c :: rest) with
      | 0 => 0
      | more + 1 => 1 + gapLengthFrom more rest

/-- The length of the blanks and comments at the front of a text. -/
def gapLength (text : List Char) : Nat :=
  gapLengthFrom 0 text

end Source
end ElmBinding
