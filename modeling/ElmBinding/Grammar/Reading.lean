import ElmBinding.Grammar.Attempt
import ElmBinding.Grammar.Pattern

/-!
# Reading text by a grammar

Reading a rule takes text from the front of the input and yields a tree: a node for the
rule over the nodes of the rules inside it.  Reading never steps back into a part that has
been taken, and it keeps a record of the attempts that failed.

A rule calls rules inside it, which call others.  Every chain of calls that takes no text
names each rule once at most, so a budget of one call a rule and position is enough.

Main definitions:

- Definition {lit}`Node`: the tree over a text.
- Definition {lit}`Outcome`: what reading yields, and the attempts that failed.
- Definition {lit}`Pattern.run`: reading by a pattern.
- Definition {lit}`read`: reading by a rule.
- Definition {lit}`parse`: the tree over a whole text, or the frontier.
-/

namespace ElmBinding
namespace Grammar

variable {ρ : Type}

/-! ## Results -/

/-- The text that a rule has taken, with the nodes of the rules inside it. -/
inductive Node (ρ : Type) where
  | mk (rule : ρ) (start : Nat) (text : List Char) (children : List (Node ρ))
deriving Repr

namespace Node

/-- The rule of a node. -/
def rule : Node ρ → ρ
  | ⟨rule, _, _, _⟩ => rule

/-- The number of characters before the text of a node. -/
def start : Node ρ → Nat
  | ⟨_, start, _, _⟩ => start

/-- The text of a node. -/
def text : Node ρ → List Char
  | ⟨_, _, text, _⟩ => text

/-- The nodes of the rules inside a node. -/
def children : Node ρ → List (Node ρ)
  | ⟨_, _, _, children⟩ => children

/-- The number of characters up to the end of the text of a node. -/
def stop (node : Node ρ) : Nat :=
  node.start + node.text.length

/-- The children of a node that belong to a rule. -/
def childrenOf [DecidableEq ρ] (node : Node ρ) (rule : ρ) : List (Node ρ) :=
  node.children.filter fun child => child.rule = rule

/-- The first child of a node that belongs to a rule. -/
def child? [DecidableEq ρ] (node : Node ρ) (rule : ρ) : Option (Node ρ) :=
  node.children.find? fun child => child.rule = rule

/-- The text of a node as a string. -/
def string (node : Node ρ) : String :=
  String.ofList node.text

/-- The text of the first child that belongs to a rule, empty if there is none. -/
def childString [DecidableEq ρ] (node : Node ρ) (rule : ρ) : String :=
  (node.child? rule).elim "" string

end Node

/-- A place in the input and the text from there on. -/
structure Cursor where
  /-- The number of characters before the place. -/
  pos : Nat
  /-- The text from the place on. -/
  rest : List Char
deriving Repr

/-- The cursor a number of characters further on. -/
def Cursor.advance (cursor : Cursor) (count : Nat) : Cursor :=
  ⟨cursor.pos + count, cursor.rest.drop count⟩

/-- What has been taken: the place behind it and the nodes over it. -/
structure Taken (ρ : Type) where
  cursor : Cursor
  nodes : List (Node ρ)

/-- What a reading takes, if it takes anything, and the attempts that failed. -/
structure Outcome (ρ : Type) where
  taken : Option (Taken ρ)
  attempts : Attempts ρ

namespace Outcome

/-- Nothing can be taken. -/
def fail : Outcome ρ :=
  ⟨none, .none⟩

/-- No text is taken. -/
def stay (cursor : Cursor) : Outcome ρ :=
  ⟨some ⟨cursor, []⟩, .none⟩

/-- Some characters are taken. -/
def take (cursor : Cursor) (count : Nat) : Outcome ρ :=
  stay (cursor.advance count)

/-- The outcome behind attempts and nodes that came before. -/
def behind (attempts : Attempts ρ) (nodes : List (Node ρ)) (outcome : Outcome ρ) : Outcome ρ :=
  ⟨outcome.taken.map fun taken => ⟨taken.cursor, nodes ++ taken.nodes⟩,
    .both attempts outcome.attempts⟩

/-- Go on where a reading ended. -/
def andThen (outcome : Outcome ρ) (next : Cursor → Outcome ρ) : Outcome ρ :=
  match outcome.taken with
  | none => outcome
  | some taken => (next taken.cursor).behind outcome.attempts taken.nodes

/-- Read in another way if a reading takes nothing. -/
def orElse (outcome other : Outcome ρ) : Outcome ρ :=
  match outcome.taken with
  | none => other.behind outcome.attempts []
  | some _ => outcome

/-! What is taken does not depend on the attempts. -/

@[simp] theorem taken_fail : (fail : Outcome ρ).taken = none := rfl

@[simp] theorem taken_stay (cursor : Cursor) :
    (stay cursor : Outcome ρ).taken = some ⟨cursor, []⟩ := rfl

@[simp] theorem taken_take (cursor : Cursor) (count : Nat) :
    (take cursor count : Outcome ρ).taken = some ⟨cursor.advance count, []⟩ := rfl

@[simp] theorem taken_behind (attempts : Attempts ρ) (nodes : List (Node ρ))
    (outcome : Outcome ρ) :
    (outcome.behind attempts nodes).taken =
      outcome.taken.map fun taken => ⟨taken.cursor, nodes ++ taken.nodes⟩ := rfl

/-- What is taken by two readings, one after the other. -/
theorem taken_andThen (outcome : Outcome ρ) (next : Cursor → Outcome ρ) :
    (outcome.andThen next).taken =
      outcome.taken.bind fun first =>
        (next first.cursor).taken.map fun second =>
          ⟨second.cursor, first.nodes ++ second.nodes⟩ := by
  unfold andThen
  cases h : outcome.taken with
  | none => simp [h]
  | some first => simp

/-- What is taken by a reading, or else by another. -/
theorem taken_orElse (outcome other : Outcome ρ) :
    (outcome.orElse other).taken = outcome.taken.or other.taken := by
  unfold orElse
  cases h : outcome.taken with
  | none =>
      cases hother : other.taken with
      | none => simp [hother]
      | some taken => simp [hother]
  | some taken => simp [h]

end Outcome

/-! ## Patterns -/

/--
Repeat a reading until it fails.  Every repetition takes a character, so no more of them
can follow than the bound has.
-/
def repeatReading (step : Cursor → Outcome ρ) : List Char → Cursor → Outcome ρ
  | [], cursor => .stay cursor
  | _ :: bound, cursor =>
      ((step cursor).andThen (repeatReading step bound)).orElse (.stay cursor)

/-- Read by a pattern, given the length of gaps and the readings of the rules. -/
def Pattern.run (gapLength : List Char → Nat) (call : ρ → Cursor → Outcome ρ) :
    Pattern ρ → Cursor → Outcome ρ
  | .word text, cursor =>
      if text.toList.isPrefixOf cursor.rest then .take cursor text.toList.length else .fail
  | .char inClass, cursor =>
      if cursor.rest.head?.any inClass then .take cursor 1 else .fail
  | .start, cursor => if cursor.pos = 0 then .stay cursor else .fail
  | .finish, cursor => if cursor.rest.isEmpty then .stay cursor else .fail
  | .sub rule, cursor => call rule cursor
  | .seq first second, cursor =>
      (first.run gapLength call cursor).andThen fun next =>
        second.run gapLength call (next.advance (gapLength next.rest))
  | .alt first second, cursor =>
      (first.run gapLength call cursor).orElse (second.run gapLength call cursor)
  | .opt part, cursor => (part.run gapLength call cursor).orElse (.stay cursor)
  | .many part, cursor =>
      ((part.run gapLength call cursor).andThen
        (repeatReading
          (fun next => part.run gapLength call (next.advance (gapLength next.rest)))
          cursor.rest)).orElse (.stay cursor)
  | .ahead part, cursor =>
      let outcome := part.run gapLength call cursor
      ⟨outcome.taken.map fun _ => ⟨cursor, []⟩, outcome.attempts⟩
  | .absent part, cursor =>
      let outcome := part.run gapLength call cursor
      ⟨if outcome.taken.isNone then some ⟨cursor, []⟩ else none, outcome.attempts⟩

/-! ## Rules -/

/-- The outcome of a rule, given the outcome of its pattern at a place. -/
def Outcome.ofRule (rule : ρ) (cursor : Cursor) (outcome : Outcome ρ) : Outcome ρ :=
  match outcome.taken with
  | none => ⟨none, .failed rule cursor.pos outcome.attempts⟩
  | some taken =>
      let text := cursor.rest.take (taken.cursor.pos - cursor.pos)
      ⟨some ⟨taken.cursor, [⟨rule, cursor.pos, text, taken.nodes⟩]⟩, outcome.attempts⟩

/-- The gaps between the parts of a production. -/
def Production.gaps (production : Production ρ) (gapLength : List Char → Nat) :
    List Char → Nat :=
  if production.lexical then fun _ => 0 else gapLength

end Grammar

namespace Grammar

variable {ρ : Type}

/-- Read by a rule, with a budget for nested calls of rules. -/
def read (grammar : Grammar ρ) : Nat → ρ → Cursor → Outcome ρ
  | 0, _, _ => .fail
  | budget + 1, rule, cursor =>
      let production := grammar.production rule
      .ofRule rule cursor
        (production.body.run (production.gaps grammar.gapLength) (grammar.read budget) cursor)

/-- A budget for nested calls that no reading of the text uses up. -/
def callBudget (grammar : Grammar ρ) (text : List Char) : Nat :=
  grammar.rules.length * (text.length + 1)

/-- The tree that a rule puts over the front of a text, or the frontier if it fails. -/
def parse (grammar : Grammar ρ) (rule : ρ) (text : List Char) :
    Except (Frontier ρ) (Node ρ) :=
  let outcome := grammar.read (grammar.callBudget text) rule ⟨0, text⟩
  match outcome.taken.bind fun taken => taken.nodes.head? with
  | some node => .ok node
  | none => .error outcome.attempts.frontier

end Grammar
end ElmBinding
