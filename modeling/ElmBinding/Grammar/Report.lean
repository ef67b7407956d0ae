import ElmBinding.Grammar.Reading

/-!
# Reports of unreadable text

A report shows the line in which reading got stuck, marks the column below it and lists
the rules expected there.

Main definitions:

- Definition {lit}`lineAt` and {lit}`columnAt`: where a place is, both counted from one.
- Definition {lit}`shownLine`: the line around a place, as a report shows it.
- Definition {lit}`Report`: the parts of a report.
- Definition {lit}`Report.message`: the report as text.
-/

namespace ElmBinding
namespace Grammar

/-! ## Places in a text -/

/-- The end of a text behind its last line break. -/
def lastLine (text : List Char) : List Char :=
  (text.reverse.takeWhile fun c => c ≠ '\n').reverse

/-- The beginning of a text up to its first line break, which is included. -/
def firstLine (text : List Char) : List Char :=
  text.takeWhile (fun c => c ≠ '\n') ++ (text.dropWhile fun c => c ≠ '\n').take 1

/-- The line of a place. -/
def lineAt (text : List Char) (pos : Nat) : Nat :=
  1 + (text.take pos).count '\n'

/-- The column of a place. -/
def columnAt (text : List Char) (pos : Nat) : Nat :=
  1 + (lastLine (text.take pos)).length

/-- Whether a character breaks lines. -/
def isLineBreak (c : Char) : Bool :=
  c = '\n' || c = '\r'

/-- The visible sign for a line break. -/
def lineBreakSign (c : Char) : Char :=
  if c = '\r' then '␍' else if c = '\n' then '␊' else c

/--
The line around a place.  Its line breaks are left out, unless the place is at one of
them; then they are shown by signs.
-/
def shownLine (text : List Char) (pos : Nat) : List Char :=
  let rest := text.drop pos
  let line := lastLine (text.take pos) ++ firstLine rest
  if rest.head?.any isLineBreak then
    line.map lineBreakSign
  else
    line.filter fun c => !isLineBreak c

/-! ## Reports -/

/-- Where reading got stuck and what was expected there. -/
structure Report where
  line : Nat
  column : Nat
  /-- The line as it is shown. -/
  shown : String
  /-- The names of the expected rules. -/
  expected : List String
deriving DecidableEq, Repr

/-- Several names as an enumeration. -/
def enumerated : List String → String
  | [] => ""
  | [first] => first
  | [first, second] => first ++ " or " ++ second
  | first :: second :: rest =>
      let names := first :: second :: rest
      ", ".intercalate names.dropLast ++ ", or " ++ names.getLastD ""

/-- The blanks below the beginning of a line; tabs stay, so that the mark is below its place. -/
def indentation (shown : List Char) (count : Nat) : List Char :=
  (shown.take count).map fun c => if c = '\t' then '\t' else ' '

/-- The text of a report, one line below the other. -/
def Report.message (report : Report) : String :=
  let line := (Nat.repr report.line)
  let margin := String.ofList (line.toList.map fun _ => ' ')
  let below := String.ofList (indentation report.shown.toList (report.column - 1))
  "\n".intercalate [
    margin ++ "--> " ++ line ++ ":" ++ Nat.repr report.column,
    margin ++ " |",
    line ++ " | " ++ report.shown,
    margin ++ " | " ++ below ++ "^---",
    margin ++ " |",
    margin ++ " = expected " ++ enumerated report.expected]

/-- The names of the rules expected at a frontier, in the order of the grammar. -/
def expectedNames {ρ : Type} [BEq ρ] (grammar : Grammar ρ) (frontier : Frontier ρ) :
    List String :=
  (grammar.rules.filter fun rule => frontier.expected.contains rule).map grammar.name

/-- The report of a frontier in a text. -/
def Frontier.report {ρ : Type} [BEq ρ] (grammar : Grammar ρ) (text : List Char)
    (frontier : Frontier ρ) : Report where
  line := lineAt text frontier.pos
  column := columnAt text frontier.pos
  shown := String.ofList (shownLine text frontier.pos)
  expected := expectedNames grammar frontier

end Grammar
end ElmBinding
