/-!
# Failed attempts

Reading a text tries rules that do not apply.  Where the text cannot be read at all, the
attempts that failed farthest into it tell what was expected there.

A rule that fails where it began stands for the rules tried inside it at the same place,
unless just one of them failed there; that one is the more precise report and stays.

Main definitions:

- Definition {lit}`Attempts`: the failed attempts of a reading, in order, nested like the rules.
- Definition {lit}`Frontier`: the farthest place reached and what was expected there.
- Definition {lit}`Attempts.frontier`: the frontier of a reading.
-/

namespace ElmBinding
namespace Grammar

/-- The failed attempts of a reading in their order. -/
inductive Attempts (ρ : Type) where
  /-- No attempt failed. -/
  | none
  /-- The attempts of one reading and then of another. -/
  | both (first second : Attempts ρ)
  /-- The rule failed at a place, after the attempts made inside it. -/
  | failed (rule : ρ) (pos : Nat) (inside : Attempts ρ)

/-- The farthest place at which an attempt failed, and the rules expected there. -/
structure Frontier (ρ : Type) where
  /-- The number of characters before the place. -/
  pos : Nat := 0
  /-- The rules expected, in the order of the attempts, with repeats. -/
  expected : List ρ := []
deriving Repr

variable {ρ : Type}

/-- The number of rules expected at a place. -/
def Frontier.countAt (frontier : Frontier ρ) (pos : Nat) : Nat :=
  if pos = frontier.pos then frontier.expected.length else 0

/--
The frontier after a rule has failed at a place, where {lit}`before` rules were expected
when it began.
-/
def Frontier.note (frontier : Frontier ρ) (rule : ρ) (pos before : Nat) : Frontier ρ :=
  if frontier.countAt pos = before + 1 then
    frontier
  else if pos = frontier.pos then
    { frontier with expected := frontier.expected.take before ++ [rule] }
  else if frontier.pos < pos then
    ⟨pos, [rule]⟩
  else
    frontier

/-- The frontier after further attempts. -/
def Attempts.advance : Attempts ρ → Frontier ρ → Frontier ρ
  | none, frontier => frontier
  | both first second, frontier => second.advance (first.advance frontier)
  | failed rule pos inside, frontier =>
      (inside.advance frontier).note rule pos (frontier.countAt pos)

/-- The frontier of a whole reading. -/
def Attempts.frontier (attempts : Attempts ρ) : Frontier ρ :=
  attempts.advance {}

end Grammar
end ElmBinding
