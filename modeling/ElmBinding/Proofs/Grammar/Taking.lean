import ElmBinding.Proofs.Grammar.Texts

/-!
# What a pattern takes

A pattern takes a text in front of what follows if every reading does, whatever the place, as
long as the budget for nested calls is large enough.  It refuses an input if every reading takes
nothing.  Each way to build patterns has its own laws, so a text can be followed through a
grammar part by part.  What a reading takes is told up to the places of its nodes.

Main results:

- Definition {lit}`Node.bare`: a tree without places.
- Definitions {lit}`Takes` and {lit}`Refuses`: readings that end well, and readings that do not.
- Theorem {lit}`Takes.seq`: two parts with a gap between them.
- Theorem {lit}`Takes.many`: a part as often as it is there.
- Theorem {lit}`Takes.sub`: a rule puts a node over the text that its production takes.
- Theorem {lit}`parse_of_takes`: the tree over a text that is taken.
- Definition {lit}`Pattern.prospect`: what can be told about a reading from the first characters.
- Theorem {lit}`refuses_of_prospect`: a pattern that is told to be refused is refused.
-/

namespace ElmBinding
namespace Grammar

variable {ρ : Type}

/-! ## Trees without places -/

mutual

/-- A node without its place and those of the nodes inside it. -/
def Node.bare : Node ρ → Node ρ
  | ⟨rule, _, text, children⟩ => ⟨rule, 0, text, bareNodes children⟩

/-- Nodes without their places. -/
def bareNodes : List (Node ρ) → List (Node ρ)
  | [] => []
  | node :: rest => node.bare :: bareNodes rest

end

/-- Nodes lose their places one by one. -/
theorem bareNodes_eq_map (nodes : List (Node ρ)) : bareNodes nodes = nodes.map Node.bare := by
  induction nodes with
  | nil => rw [bareNodes, List.map_nil]
  | cons node rest ih => rw [bareNodes, ih, List.map_cons]

/-- Nodes in order lose their places in order. -/
theorem bareNodes_append (nodes others : List (Node ρ)) :
    bareNodes (nodes ++ others) = bareNodes nodes ++ bareNodes others := by
  simp only [bareNodes_eq_map, List.map_append]

/-! ## Taking and refusing -/

/-- A pattern that takes a text in front of the rest, with trees over it. -/
def Takes (grammar : Grammar ρ) (gaps : List Char → Nat) (depth : Nat) (pattern : Pattern ρ)
    (text rest : List Char) (trees : List (Node ρ)) : Prop :=
  ∀ budget, depth ≤ budget → ∀ pos, ∃ nodes,
    (pattern.run gaps (grammar.read budget) ⟨pos, text ++ rest⟩).taken =
      some ⟨⟨pos + text.length, rest⟩, nodes⟩ ∧ bareNodes nodes = trees

/-- A pattern that takes nothing from the front of an input. -/
def Refuses (grammar : Grammar ρ) (gaps : List Char → Nat) (depth : Nat) (pattern : Pattern ρ)
    (input : List Char) : Prop :=
  ∀ budget, depth ≤ budget → ∀ pos,
    (pattern.run gaps (grammar.read budget) ⟨pos, input⟩).taken = none

variable {grammar : Grammar ρ} {gaps : List Char → Nat} {depth : Nat}
  {first second part : Pattern ρ} {text text' rest input gap : List Char}
  {trees trees' : List (Node ρ)}

/-- With a larger budget a pattern takes the same. -/
theorem Takes.mono {deeper : Nat} (h : Takes grammar gaps depth part text rest trees)
    (hle : depth ≤ deeper) : Takes grammar gaps deeper part text rest trees :=
  fun budget hbudget => h budget (Nat.le_trans hle hbudget)

/-- With a larger budget a pattern refuses the same. -/
theorem Refuses.mono {deeper : Nat} (h : Refuses grammar gaps depth part input)
    (hle : depth ≤ deeper) : Refuses grammar gaps deeper part input :=
  fun budget hbudget => h budget (Nat.le_trans hle hbudget)

/-- A fixed text takes itself. -/
theorem Takes.word (word : String) (rest : List Char) :
    Takes grammar gaps depth (.word word) word.toList rest [] := by
  intro budget _ pos
  refine ⟨[], ?_, by rw [bareNodes]⟩
  have hfront : word.toList.isPrefixOf (word.toList ++ rest) = true :=
    List.isPrefixOf_iff_prefix.mpr (List.prefix_append _ _)
  simp [Pattern.run, hfront, Cursor.advance]

/-- A class takes a character of it. -/
theorem Takes.char {inClass : Char → Bool} {c : Char} (hc : inClass c = true)
    (rest : List Char) : Takes grammar gaps depth (.char inClass) [c] rest [] := by
  intro budget _ pos
  refine ⟨[], ?_, by rw [bareNodes]⟩
  simp [Pattern.run, hc, Cursor.advance]

/-- At the end of the input the end is taken. -/
theorem Takes.finish : Takes grammar gaps depth .finish [] [] [] := by
  intro budget _ pos
  exact ⟨[], by simp [Pattern.run], by rw [bareNodes]⟩

/-- Two parts take two texts with the gap between them. -/
theorem Takes.seq (hfirst : Takes grammar gaps depth first text (gap ++ (text' ++ rest)) trees)
    (hgap : gaps (gap ++ (text' ++ rest)) = gap.length)
    (hsecond : Takes grammar gaps depth second text' rest trees') :
    Takes grammar gaps depth (.seq first second) (text ++ (gap ++ text')) rest
      (trees ++ trees') := by
  intro budget hbudget pos
  rcases hfirst budget hbudget pos with ⟨nodes, htaken, rfl⟩
  rcases hsecond budget hbudget (pos + text.length + gap.length) with ⟨nodes', htaken', rfl⟩
  refine ⟨nodes ++ nodes', ?_, bareNodes_append nodes nodes'⟩
  have hnext : (⟨pos + text.length, gap ++ (text' ++ rest)⟩ : Cursor).advance gap.length =
      ⟨pos + text.length + gap.length, text' ++ rest⟩ := by
    simp [Cursor.advance]
  rw [Pattern.run, Outcome.taken_andThen, List.append_assoc, List.append_assoc, htaken,
    Option.bind_some, hgap, hnext, htaken', Option.map_some]
  simp [Nat.add_assoc]

/-- Two parts refuse an input if the first one does. -/
theorem Refuses.seq_left (h : Refuses grammar gaps depth first input) :
    Refuses grammar gaps depth (.seq first second) input := by
  intro budget hbudget pos
  rw [Pattern.run, Outcome.taken_andThen, h budget hbudget pos, Option.bind_none]

/-- Two parts refuse an input if the second one refuses what the first one leaves. -/
theorem Refuses.seq_right (hfirst : Takes grammar gaps depth first text (gap ++ rest) trees)
    (hgap : gaps (gap ++ rest) = gap.length) (hsecond : Refuses grammar gaps depth second rest) :
    Refuses grammar gaps depth (.seq first second) (text ++ (gap ++ rest)) := by
  intro budget hbudget pos
  rcases hfirst budget hbudget pos with ⟨nodes, htaken, -⟩
  have hnext : (⟨pos + text.length, gap ++ rest⟩ : Cursor).advance gap.length =
      ⟨pos + text.length + gap.length, rest⟩ := by
    simp [Cursor.advance]
  rw [Pattern.run, Outcome.taken_andThen, htaken, Option.bind_some, hgap, hnext,
    hsecond budget hbudget, Option.map_none]

/-- Two parts take what the second one takes if the first one takes nothing. -/
theorem Takes.skip (hfirst : Takes grammar gaps depth first [] (text ++ rest) [])
    (hgap : gaps (text ++ rest) = 0) (hsecond : Takes grammar gaps depth second text rest trees) :
    Takes grammar gaps depth (.seq first second) text rest trees :=
  @Takes.seq _ _ _ _ _ _ [] text rest [] [] trees hfirst hgap hsecond

/-- Two parts refuse what the second one refuses if the first one takes nothing. -/
theorem Refuses.skip (hfirst : Takes grammar gaps depth first [] input [])
    (hgap : gaps input = 0) (hsecond : Refuses grammar gaps depth second input) :
    Refuses grammar gaps depth (.seq first second) input :=
  @Refuses.seq_right _ _ _ _ _ _ [] input [] [] hfirst hgap hsecond

/-- Two parts take what the first one takes if the second one takes nothing behind it. -/
theorem Takes.before (hfirst : Takes grammar gaps depth first text rest trees)
    (hgap : gaps rest = 0) (hsecond : Takes grammar gaps depth second [] rest []) :
    Takes grammar gaps depth (.seq first second) text rest trees := by
  have h := @Takes.seq _ _ _ _ _ _ text [] rest [] trees [] hfirst hgap hsecond
  simpa using h

/-- The first of two parts takes a text for both. -/
theorem Takes.alt_left (h : Takes grammar gaps depth first text rest trees) :
    Takes grammar gaps depth (.alt first second) text rest trees := by
  intro budget hbudget pos
  rcases h budget hbudget pos with ⟨nodes, htaken, hbare⟩
  refine ⟨nodes, ?_, hbare⟩
  rw [Pattern.run, Outcome.taken_orElse, htaken, Option.some_or]

/-- The second of two parts takes a text for both that the first one refuses. -/
theorem Takes.alt_right (hfirst : Refuses grammar gaps depth first (text ++ rest))
    (h : Takes grammar gaps depth second text rest trees) :
    Takes grammar gaps depth (.alt first second) text rest trees := by
  intro budget hbudget pos
  rcases h budget hbudget pos with ⟨nodes, htaken, hbare⟩
  refine ⟨nodes, ?_, hbare⟩
  rw [Pattern.run, Outcome.taken_orElse, hfirst budget hbudget, Option.none_or, htaken]

/-- One of two parts takes nothing if both do. -/
theorem Refuses.alt (hfirst : Refuses grammar gaps depth first input)
    (hsecond : Refuses grammar gaps depth second input) :
    Refuses grammar gaps depth (.alt first second) input := by
  intro budget hbudget pos
  rw [Pattern.run, Outcome.taken_orElse, hfirst budget hbudget, hsecond budget hbudget,
    Option.none_or]

/-- A part that may be missing takes what the part takes. -/
theorem Takes.opt (h : Takes grammar gaps depth part text rest trees) :
    Takes grammar gaps depth (.opt part) text rest trees := by
  intro budget hbudget pos
  rcases h budget hbudget pos with ⟨nodes, htaken, hbare⟩
  refine ⟨nodes, ?_, hbare⟩
  rw [Pattern.run, Outcome.taken_orElse, htaken, Option.some_or]

/-- A part that may be missing takes no text if the part refuses it. -/
theorem Takes.opt_none (h : Refuses grammar gaps depth part rest) :
    Takes grammar gaps depth (.opt part) [] rest [] := by
  intro budget hbudget pos
  refine ⟨[], ?_, by rw [bareNodes]⟩
  rw [Pattern.run, Outcome.taken_orElse, List.nil_append, h budget hbudget, Option.none_or,
    Outcome.taken_stay]
  rfl

/-- Where a part is refused it is absent. -/
theorem Takes.absent (h : Refuses grammar gaps depth part rest) :
    Takes grammar gaps depth (.absent part) [] rest [] := by
  intro budget hbudget pos
  refine ⟨[], ?_, by rw [bareNodes]⟩
  simp [Pattern.run, h budget hbudget pos]

/-- Where a part is taken it is not absent. -/
theorem Refuses.absent (h : Takes grammar gaps depth part text rest trees) :
    Refuses grammar gaps depth (.absent part) (text ++ rest) := by
  intro budget hbudget pos
  rcases h budget hbudget pos with ⟨nodes, htaken, -⟩
  simp [Pattern.run, htaken]

/-- Where a part is taken it is ahead. -/
theorem Takes.ahead (h : Takes grammar gaps depth part text rest trees) :
    Takes grammar gaps depth (.ahead part) [] (text ++ rest) [] := by
  intro budget hbudget pos
  rcases h budget hbudget pos with ⟨nodes, htaken, -⟩
  refine ⟨[], ?_, by rw [bareNodes]⟩
  simp [Pattern.run, htaken]

/-- Where a part is refused it is not ahead. -/
theorem Refuses.ahead (h : Refuses grammar gaps depth part input) :
    Refuses grammar gaps depth (.ahead part) input := by
  intro budget hbudget pos
  simp [Pattern.run, h budget hbudget pos]

/-! ### Rules -/

/-- A rule puts a node over the text that its production takes. -/
theorem Takes.sub {rule : ρ}
    (h : Takes grammar ((grammar.production rule).gaps grammar.gapLength) depth
      (grammar.production rule).body text rest trees) :
    Takes grammar gaps (depth + 1) (.sub rule) text rest [⟨rule, 0, text, trees⟩] := by
  intro budget hbudget pos
  rcases Nat.exists_eq_add_of_lt hbudget with ⟨more, rfl⟩
  rcases h (depth + more) (Nat.le_add_right depth more) pos with ⟨nodes, htaken, rfl⟩
  refine ⟨[⟨rule, pos, text, nodes⟩], ?_, by rw [bareNodes, Node.bare, bareNodes]⟩
  rw [Pattern.run, read, Outcome.ofRule, htaken]
  simp

/-- A rule refuses what its production refuses. -/
theorem Refuses.sub {rule : ρ}
    (h : Refuses grammar ((grammar.production rule).gaps grammar.gapLength) depth
      (grammar.production rule).body input) :
    Refuses grammar gaps (depth + 1) (.sub rule) input := by
  intro budget hbudget pos
  rcases Nat.exists_eq_add_of_lt hbudget with ⟨more, rfl⟩
  rw [Pattern.run, read, Outcome.ofRule, h (depth + more) (Nat.le_add_right depth more) pos]

/-! ### Repetition -/

/-- A part as often as it is there takes no text that the part refuses. -/
theorem Takes.many_none (h : Refuses grammar gaps depth part rest) :
    Takes grammar gaps depth (.many part) [] rest [] := by
  intro budget hbudget pos
  refine ⟨[], ?_, by rw [bareNodes]⟩
  rw [Pattern.run, Outcome.taken_orElse, Outcome.taken_andThen, List.nil_append,
    h budget hbudget, Option.bind_none, Option.none_or, Outcome.taken_stay]
  rfl

section Repetition

variable {ι : Type} {textOf : ι → List Char} {treesOf : ι → List (Node ρ)}
  {follows : List Char → Prop}

/-- What follows items follows them with a gap before each of them. -/
theorem follows_flatMap {items : List ι}
    (hgap : ∀ item ∈ items, ∀ rest, follows rest →
      gaps (gap ++ (textOf item ++ rest)) = gap.length ∧ follows (gap ++ (textOf item ++ rest)))
    (hrest : follows rest) :
    follows (items.flatMap (fun item => gap ++ textOf item) ++ rest) := by
  induction items with
  | nil => exact hrest
  | cons item items ih =>
      rcases List.forall_mem_cons.mp hgap with ⟨hitem, hitems⟩
      rw [List.flatMap_cons, List.append_assoc, List.append_assoc]
      exact (hitem _ (ih hitems)).2

/-- Repetitions take the texts of items, with a gap before each of them. -/
theorem taken_repeatReading {budget : Nat} {items : List ι} (hbudget : depth ≤ budget)
    (htakes : ∀ item ∈ items, ∀ rest, follows rest →
      Takes grammar gaps depth part (textOf item) rest (treesOf item))
    (hgap : ∀ item ∈ items, ∀ rest, follows rest →
      gaps (gap ++ (textOf item ++ rest)) = gap.length ∧ follows (gap ++ (textOf item ++ rest)))
    (hrest : follows rest) (hstop : Refuses grammar gaps depth part (rest.drop (gaps rest)))
    {bound : List Char} (hbound : items.length ≤ bound.length) (pos : Nat) :
    ∃ nodes, (repeatReading (fun next =>
        part.run gaps (grammar.read budget) (next.advance (gaps next.rest))) bound
        ⟨pos, items.flatMap (fun item => gap ++ textOf item) ++ rest⟩).taken =
      some ⟨⟨pos + (items.flatMap fun item => gap ++ textOf item).length, rest⟩, nodes⟩ ∧
      bareNodes nodes = items.flatMap treesOf := by
  induction items generalizing bound pos with
  | nil =>
      refine ⟨[], ?_, by rw [bareNodes, List.flatMap_nil]⟩
      cases bound with
      | nil => simp [repeatReading]
      | cons c bound =>
          have hnone := hstop budget hbudget (pos + gaps rest)
          simp [repeatReading, Outcome.taken_orElse, Outcome.taken_andThen, Cursor.advance, hnone]
  | cons item items ih =>
      rcases List.forall_mem_cons.mp htakes with ⟨htakesItem, htakesItems⟩
      rcases List.forall_mem_cons.mp hgap with ⟨hgapItem, hgapItems⟩
      have hfollows := follows_flatMap hgapItems hrest
      cases bound with
      | nil => simp at hbound
      | cons c bound =>
          rcases htakesItem _ hfollows budget hbudget (pos + gap.length) with
            ⟨nodes, htaken, hbare⟩
          rcases ih htakesItems hgapItems (Nat.le_of_succ_le_succ hbound)
            (pos + gap.length + (textOf item).length) with ⟨nodes', htaken', hbare'⟩
          refine ⟨nodes ++ nodes', ?_, ?_⟩
          · have hstep : ∀ more, (⟨pos, gap ++ (textOf item ++ more)⟩ : Cursor).advance gap.length =
                ⟨pos + gap.length, textOf item ++ more⟩ := by
              intro more
              simp [Cursor.advance]
            rw [List.flatMap_cons, List.append_assoc, List.append_assoc, repeatReading,
              Outcome.taken_orElse, Outcome.taken_andThen, (hgapItem _ hfollows).1, hstep, htaken,
              Option.bind_some, htaken', Option.map_some, Option.some_or]
            simp [Nat.add_assoc]
          · rw [bareNodes_append, hbare, hbare', List.flatMap_cons]

/-- Texts that are not empty are no more than their characters. -/
theorem length_le_flatMap {items : List ι} (htexts : ∀ item ∈ items, textOf item ≠ []) :
    items.length ≤ (items.flatMap textOf).length := by
  induction items with
  | nil => exact Nat.zero_le _
  | cons item items ih =>
      rcases List.forall_mem_cons.mp htexts with ⟨hitem, hitems⟩
      have hpos := List.length_pos_iff.mpr hitem
      have hrest := ih hitems
      rw [List.flatMap_cons, List.length_append, List.length_cons]
      omega

/-- A part as often as it is there takes the texts of items, with gaps between them. -/
theorem Takes.many {head : ι} {items : List ι}
    (htakes : ∀ item ∈ head :: items, ∀ rest, follows rest →
      Takes grammar gaps depth part (textOf item) rest (treesOf item))
    (hgap : ∀ item ∈ items, ∀ rest, follows rest →
      gaps (gap ++ (textOf item ++ rest)) = gap.length ∧ follows (gap ++ (textOf item ++ rest)))
    (htexts : ∀ item ∈ items, textOf item ≠ [])
    (hrest : follows rest) (hstop : Refuses grammar gaps depth part (rest.drop (gaps rest))) :
    Takes grammar gaps depth (.many part)
      (textOf head ++ items.flatMap fun item => gap ++ textOf item) rest
      ((head :: items).flatMap treesOf) := by
  intro budget hbudget pos
  rcases List.forall_mem_cons.mp htakes with ⟨htakesHead, htakesItems⟩
  rcases htakesHead _ (follows_flatMap hgap hrest) budget hbudget pos with ⟨nodes, htaken, hbare⟩
  -- The bound on repetitions is the whole input, and each of them takes a character.
  have hbound : items.length ≤ (textOf head ++
      ((items.flatMap fun item => gap ++ textOf item) ++ rest)).length := by
    have hlength : items.length ≤ (items.flatMap fun item => gap ++ textOf item).length :=
      length_le_flatMap fun item hitem => List.append_ne_nil_of_right_ne_nil gap (htexts item hitem)
    rw [List.length_append, List.length_append]
    omega
  rcases taken_repeatReading hbudget htakesItems hgap hrest hstop hbound
    (pos + (textOf head).length) with ⟨nodes', htaken', hbare'⟩
  refine ⟨nodes ++ nodes', ?_, by rw [bareNodes_append, hbare, hbare', List.flatMap_cons]⟩
  rw [Pattern.run, Outcome.taken_orElse, Outcome.taken_andThen, List.append_assoc, htaken,
    Option.bind_some, htaken', Option.map_some, Option.some_or]
  simp [Nat.add_assoc]

end Repetition

/-! ## Whole texts -/

/-- A rule that begins at the start of the input puts its tree over a text that is taken. -/
theorem parse_of_takes {rule : ρ} {parts : List (Pattern ρ)}
    (hproduction : grammar.production rule = .phrase (.start :: part :: parts))
    (h : Takes grammar grammar.gapLength depth (.chain (part :: parts)) text [] trees)
    (hgap : grammar.gapLength text = 0) (hdepth : depth < grammar.callBudget text) :
    ∃ root, grammar.parse rule text = .ok root ∧ root.bare = ⟨rule, 0, text, trees⟩ := by
  rcases Nat.exists_eq_add_of_lt hdepth with ⟨more, hbudget⟩
  rcases h (depth + more) (Nat.le_add_right depth more) 0 with ⟨nodes, htaken, rfl⟩
  rw [List.append_nil] at htaken
  have hbody : ((grammar.production rule).body.run
      ((grammar.production rule).gaps grammar.gapLength) (grammar.read (depth + more))
      ⟨0, text⟩).taken = some ⟨⟨0 + text.length, []⟩, nodes⟩ := by
    rw [hproduction]
    change (Pattern.run grammar.gapLength (grammar.read (depth + more))
      (.seq .start (.chain (part :: parts))) ⟨0, text⟩).taken = _
    rw [Pattern.run, Outcome.taken_andThen]
    simp [Pattern.run, hgap, Cursor.advance, htaken]
  refine ⟨⟨rule, 0, text, nodes⟩, ?_, by rw [Node.bare]⟩
  have hread : (grammar.read (grammar.callBudget text) rule ⟨0, text⟩).taken =
      some ⟨⟨0 + text.length, []⟩, [⟨rule, 0, text, nodes⟩]⟩ := by
    rw [hbudget, read, Outcome.ofRule, hbody]
    simp
  simp [parse, hread]

/-! ## First characters -/

/-- What the first characters of an input tell about a reading. -/
inductive Prospect where
  /-- Nothing can be taken. -/
  | refused
  /-- No text is taken, and no node is made. -/
  | skipped
  /-- The first characters do not tell. -/
  | unclear
deriving DecidableEq

/-- Whether a text and the front of an input differ in a character that both have. -/
def differs : List Char → List Char → Bool
  | c :: text, d :: front => c ≠ d || differs text front
  | _, _ => false

/-- What a front of an input, which may be all of it, tells about a pattern. -/
def Pattern.prospect (call : ρ → Prospect) (front : List Char) (ended : Bool) :
    Pattern ρ → Prospect
  | .word text =>
      if differs text.toList front || (ended && front.length < text.toList.length) then
        .refused
      else
        .unclear
  | .char inClass =>
      match front with
      | c :: _ => if inClass c then .unclear else .refused
      | [] => if ended then .refused else .unclear
  | .start => .unclear
  | .finish => if front.isEmpty then .unclear else .refused
  | .sub rule => if call rule = .refused then .refused else .unclear
  | .seq first second =>
      match first.prospect call front ended with
      | .refused => .refused
      | .skipped => second.prospect call front ended
      | .unclear => .unclear
  | .alt first second =>
      match first.prospect call front ended with
      | .refused => second.prospect call front ended
      | .skipped => .skipped
      | .unclear => .unclear
  | .opt part | .many part | .absent part =>
      if part.prospect call front ended = .refused then .skipped else .unclear
  | .ahead part => if part.prospect call front ended = .refused then .refused else .unclear

/-- What a front of an input tells about a rule, for calls up to some depth. -/
def prospect (grammar : Grammar ρ) (front : List Char) (ended : Bool) : Nat → ρ → Prospect
  | 0, _ => .unclear
  | depth + 1, rule =>
      (grammar.production rule).body.prospect (grammar.prospect front ended depth) front ended

/-- What it means that the first characters tell something. -/
def Prospect.Holds (grammar : Grammar ρ) (gaps : List Char → Nat) (part : Pattern ρ)
    (input : List Char) : Prospect → Prop
  | .refused => Refuses grammar gaps 0 part input
  | .skipped => Takes grammar gaps 0 part [] input []
  | .unclear => True

/-- A text that differs from the front of an input is not at the front of it. -/
theorem isPrefixOf_eq_false_of_differs {text front : List Char} (h : differs text front = true)
    (rest : List Char) : text.isPrefixOf (front ++ rest) = false := by
  induction text generalizing front with
  | nil => simp [differs] at h
  | cons c text ih =>
      cases front with
      | nil => simp [differs] at h
      | cons d front =>
          simp only [differs, Bool.or_eq_true, decide_eq_true_eq] at h
          rcases h with hne | h
          · simp [List.isPrefixOf, hne]
          · simp [List.isPrefixOf, ih h]

/-- A text that differs from the front of an input, or is longer than all of it, is not there. -/
theorem isPrefixOf_eq_false_of_front {text front : List Char} {ended : Bool}
    (hended : ended = true → rest = [])
    (h : (differs text front || (ended && front.length < text.length)) = true) :
    text.isPrefixOf (front ++ rest) = false := by
  rcases Bool.or_eq_true_iff.mp h with hdiffers | hshort
  · exact isPrefixOf_eq_false_of_differs hdiffers rest
  · rcases Bool.and_eq_true_iff.mp hshort with ⟨hend, hlt⟩
    rw [hended hend, List.append_nil, ← Bool.not_eq_true, List.isPrefixOf_iff_prefix]
    intro hprefix
    exact Nat.not_le.mpr (of_decide_eq_true hlt) hprefix.length_le

/-- What is told only where a part is refused is so if it is so there. -/
theorem Prospect.holds_ite {prospect told : Prospect}
    (h : prospect = .refused → told.Holds grammar gaps part input) :
    (if prospect = .refused then told else .unclear).Holds grammar gaps part input := by
  split
  · rename_i hrefused
    exact h hrefused
  · trivial

/-- Behind a part that is skipped, the first characters tell of two parts what they tell of one. -/
theorem Prospect.Holds.seq {prospect : Prospect} (h : prospect.Holds grammar gaps second input)
    (hgap : gaps input = 0) (hfirst : Takes grammar gaps 0 first [] input []) :
    prospect.Holds grammar gaps (.seq first second) input := by
  cases prospect with
  | refused => exact Refuses.skip hfirst hgap h
  | skipped => exact Takes.skip hfirst hgap h
  | unclear => trivial

/-- Where one part is refused, the first characters tell of both what they tell of the other. -/
theorem Prospect.Holds.alt {prospect : Prospect} (h : prospect.Holds grammar gaps second input)
    (hfirst : Refuses grammar gaps 0 first input) :
    prospect.Holds grammar gaps (.alt first second) input := by
  cases prospect with
  | refused => exact Refuses.alt hfirst h
  | skipped => exact Takes.alt_right hfirst h
  | unclear => trivial

/-- What the first characters tell is so, if no gap is in front of them. -/
theorem holds_prospect {call : ρ → Prospect} {front : List Char} {ended : Bool}
    (hended : ended = true → rest = []) (hgap : gaps (front ++ rest) = 0)
    (hcall : ∀ rule, call rule = .refused → Refuses grammar gaps 0 (.sub rule) (front ++ rest))
    (part : Pattern ρ) :
    (part.prospect call front ended).Holds grammar gaps part (front ++ rest) := by
  induction part with
  | word text =>
      rw [Pattern.prospect]
      split
      · rename_i htell
        intro budget _ pos
        simp [Pattern.run, isPrefixOf_eq_false_of_front hended htell]
      · trivial
  | char inClass =>
      unfold Pattern.prospect
      split
      · split
        · trivial
        · rename_i c front hclass
          intro budget _ pos
          simp [Pattern.run, hclass]
      · split
        · rename_i hend
          intro budget _ pos
          simp [Pattern.run, hended hend]
        · trivial
  | start => trivial
  | finish =>
      rw [Pattern.prospect]
      split
      · trivial
      · rename_i hempty
        intro budget _ pos
        simp_all [Pattern.run]
  | sub rule => exact Prospect.holds_ite (hcall rule)
  | seq first second ihFirst ihSecond =>
      rw [Pattern.prospect]
      split
      · rename_i hfirst
        rw [hfirst] at ihFirst
        exact Refuses.seq_left ihFirst
      · rename_i hfirst
        rw [hfirst] at ihFirst
        exact ihSecond.seq hgap ihFirst
      · trivial
  | alt first second ihFirst ihSecond =>
      rw [Pattern.prospect]
      split
      · rename_i hfirst
        rw [hfirst] at ihFirst
        exact ihSecond.alt ihFirst
      · rename_i hfirst
        rw [hfirst] at ihFirst
        exact Takes.alt_left ihFirst
      · trivial
  | opt part ih =>
      refine Prospect.holds_ite fun hrefused => ?_
      rw [hrefused] at ih
      exact Takes.opt_none ih
  | many part ih =>
      refine Prospect.holds_ite fun hrefused => ?_
      rw [hrefused] at ih
      exact Takes.many_none ih
  | absent part ih =>
      refine Prospect.holds_ite fun hrefused => ?_
      rw [hrefused] at ih
      exact Takes.absent ih
  | ahead part ih =>
      refine Prospect.holds_ite fun hrefused => ?_
      rw [hrefused] at ih
      exact Refuses.ahead ih

/-- A rule that is told to be refused is refused. -/
theorem refuses_sub_of_prospect {front : List Char} {ended : Bool}
    (hended : ended = true → rest = []) (hgap : grammar.gapLength (front ++ rest) = 0)
    {calls : Nat} {rule : ρ} (h : grammar.prospect front ended calls rule = .refused) :
    Refuses grammar gaps 0 (.sub rule) (front ++ rest) := by
  induction calls generalizing gaps rule with
  | zero => contradiction
  | succ calls ih =>
      have hgaps : (grammar.production rule).gaps grammar.gapLength (front ++ rest) = 0 := by
        unfold Production.gaps
        split
        · rfl
        · exact hgap
      have hbody := holds_prospect hended hgaps (fun _ => ih) (grammar.production rule).body
      rw [prospect] at h
      rw [h] at hbody
      intro budget _ pos
      cases budget with
      | zero => rfl
      | succ budget =>
          rw [Pattern.run, read, Outcome.ofRule, hbody budget (Nat.zero_le _) pos]

/-- What is told to be refused is refused. -/
theorem refuses_of_prospect {front : List Char} {ended : Bool}
    (hended : ended = true → rest = []) (hgap : grammar.gapLength (front ++ rest) = 0)
    (hgaps : gaps (front ++ rest) = 0) {calls : Nat}
    (h : part.prospect (grammar.prospect front ended calls) front ended = .refused) :
    Refuses grammar gaps depth part (front ++ rest) := by
  have hpart : (part.prospect (grammar.prospect front ended calls) front ended).Holds grammar gaps
      part (front ++ rest) :=
    holds_prospect hended hgaps (fun _ => refuses_sub_of_prospect hended hgap) part
  rw [h] at hpart
  exact Refuses.mono hpart (Nat.zero_le depth)

end Grammar
end ElmBinding
