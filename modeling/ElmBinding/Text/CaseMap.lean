/-!
# Tables of case mappings

Most characters with a case mapping stand in runs that all move by the same distance:
`A` to `Z` by 32, every second letter of Latin Extended-A by 1.  A few map to several
characters; they are listed apart and looked up first.

Main definitions:

- Definition {lit}`CaseRun`: characters at equal steps that move by one distance.
- Definition {lit}`shiftIn`: the distance by which a table moves a code point.
- Definition {lit}`mapCase`: the mapping given by a list of expansions and a list of runs.
-/

namespace ElmBinding
namespace Text

/-- The code points from {lit}`first` to {lit}`last` at equal steps, all moved by one distance. -/
structure CaseRun where
  /-- The lowest code point of the run. -/
  first : Nat
  /-- The highest code point of the run. -/
  last : Nat
  /-- The distance from one code point of the run to the next. -/
  step : Nat
  /-- The distance from a code point to its image. -/
  shift : Int
deriving DecidableEq

/-- The distance by which ascending runs move a code point, if they move it. -/
def shiftIn : List CaseRun → Nat → Option Int
  | [], _ => none
  | run :: rest, n =>
      if n < run.first then
        none
      else if n ≤ run.last then
        if (n - run.first) % run.step = 0 then some run.shift else none
      else
        shiftIn rest n

/-- The image of a code point under ascending expansions, if it has one. -/
def expansionIn : List (Nat × List Nat) → Nat → Option (List Nat)
  | [], _ => none
  | (source, image) :: rest, n =>
      if n < source then
        none
      else if n = source then
        some image
      else
        expansionIn rest n

/-- The image of a character: its expansion, else its shifted code point, else itself. -/
def mapCase (expansions : List (Nat × List Nat)) (runs : List CaseRun) (c : Char) : List Char :=
  match expansionIn expansions c.toNat with
  | some image => image.map Char.ofNat
  | none =>
      match shiftIn runs c.toNat with
      | some shift => [Char.ofNat (c.toNat + shift).toNat]
      | none => [c]

end Text
end ElmBinding
