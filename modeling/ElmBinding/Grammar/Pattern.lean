/-!
# Patterns

A grammar of the ordered-choice kind.  A pattern says what text it takes from the front of
the input; of two alternatives the second is tried only where the first one fails, and
repetition takes as much as it can.  A grammar gives every rule a pattern.

The pattern of a lexical rule takes its parts directly one after another.  Between the parts
of any other pattern there may be a gap, which the grammar describes.

Main definitions:

- Definition {lit}`Pattern`: what text is taken.
- Definitions {lit}`Pattern.chain` and {lit}`Pattern.choice`: several parts in order, or one of
  them.
- Definition {lit}`Production`: the pattern of a rule, lexical or not.
- Definition {lit}`Grammar`: rules, their names and productions, and the gap.
-/

namespace ElmBinding
namespace Grammar

/-- What text is taken from the front of the input, in terms of the rules {lit}`ρ`. -/
inductive Pattern (ρ : Type) where
  /-- A fixed text. -/
  | word (text : String)
  /-- One character of a class. -/
  | char (inClass : Char → Bool)
  /-- Nothing, at the start of the input. -/
  | start
  /-- Nothing, at the end of the input. -/
  | finish
  /-- What a rule takes. -/
  | sub (rule : ρ)
  /-- Both parts, one after the other. -/
  | seq (first second : Pattern ρ)
  /-- The first part, or else the second. -/
  | alt (first second : Pattern ρ)
  /-- The part if it is there. -/
  | opt (part : Pattern ρ)
  /-- The part as often as it is there. -/
  | many (part : Pattern ρ)
  /-- Nothing, where the part could be taken. -/
  | ahead (part : Pattern ρ)
  /-- Nothing, where the part could not be taken. -/
  | absent (part : Pattern ρ)

namespace Pattern

variable {ρ : Type}

/-- Several parts, one after the other. -/
def chain : List (Pattern ρ) → Pattern ρ
  | [] => word ""
  | [part] => part
  | part :: next :: rest => seq part (chain (next :: rest))

/-- The first of several parts that is there. -/
def choice : List (Pattern ρ) → Pattern ρ
  | [] => char fun _ => false
  | [part] => part
  | part :: next :: rest => alt part (choice (next :: rest))

/-- The part at least once. -/
def many1 (part : Pattern ρ) : Pattern ρ :=
  seq part part.many

/-- Any character. -/
def any : Pattern ρ :=
  char fun _ => true

/-- The first of several texts that is there. -/
def oneOf (texts : List String) : Pattern ρ :=
  choice (texts.map word)

/-- Any character, as often as a part is not there. -/
def upTo (part : Pattern ρ) : Pattern ρ :=
  (seq part.absent any).many

end Pattern

/-- The pattern of a rule. -/
structure Production (ρ : Type) where
  /-- Whether the parts of the pattern follow each other without gaps. -/
  lexical : Bool
  /-- What the rule takes. -/
  body : Pattern ρ

/-- A production without gaps. -/
def Production.token {ρ : Type} (body : Pattern ρ) : Production ρ :=
  ⟨true, body⟩

/-- A production of several parts with gaps between them. -/
def Production.phrase {ρ : Type} (parts : List (Pattern ρ)) : Production ρ :=
  ⟨false, .chain parts⟩

end Grammar

/-- Rules with their names and productions, and the gaps between the parts of phrases. -/
structure Grammar (ρ : Type) where
  /-- All rules, in the order in which reports list them. -/
  rules : List ρ
  /-- The name of a rule in reports. -/
  name : ρ → String
  /-- The pattern of a rule. -/
  production : ρ → Grammar.Production ρ
  /-- The number of characters at the front of a text that make up a gap. -/
  gapLength : List Char → Nat

end ElmBinding
