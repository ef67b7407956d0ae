import ElmBinding.Grammar.Reading

/-!
# What a reading keeps

A pattern takes text through its leaves only: its fixed texts, its classes of characters and
the rules in it.  A relation between the place where a reading begins and what it takes holds
of a whole pattern if it holds of the leaves and of two readings, one after the other.

Main results:

- Theorem {lit}`Pattern.run_keeps`: what the leaves keep, the pattern keeps.
- Theorem {lit}`Pattern.span_of_run`: a pattern of fixed texts and characters takes a piece of
  the input, made of characters that its leaves admit.
- Definition {lit}`Node.Everywhere`: what holds of all nodes of a tree.
- Theorem {lit}`everywhere_of_parse`: what holds of the node over every text that a production
  takes holds everywhere in the tree over a text.
- Theorem {lit}`derives_of_parse`: every node of the tree over a text is over a text that the
  pattern of its rule takes.
- Theorem {lit}`Derives.admits`: the characters in the text of a lexical rule.
-/

namespace ElmBinding
namespace Grammar

variable {ρ : Type} {gapLength : List Char → Nat} {call : ρ → Cursor → Outcome ρ}

/-! ## Patterns and their leaves -/

/-- The parts of a pattern that take text. -/
def Pattern.leaves : Pattern ρ → List (Pattern ρ)
  | .word text => [.word text]
  | .char inClass => [.char inClass]
  | .start | .finish => []
  | .sub rule => [.sub rule]
  | .seq first second | .alt first second => first.leaves ++ second.leaves
  | .opt part | .many part => part.leaves
  | .ahead _ | .absent _ => []

/-- A part of a pattern that takes text and has no parts itself. -/
inductive Pattern.IsLeaf : Pattern ρ → Prop
  | word {text : String} : IsLeaf (.word text)
  | char {inClass : Char → Bool} : IsLeaf (.char inClass)
  | sub {rule : ρ} : IsLeaf (.sub rule)

/-- The leaves of a pattern have no parts. -/
theorem Pattern.isLeaf_of_mem {pattern leaf : Pattern ρ} (h : leaf ∈ pattern.leaves) :
    leaf.IsLeaf := by
  induction pattern with
  | word text =>
      rw [List.mem_singleton.mp h]
      exact .word
  | char inClass =>
      rw [List.mem_singleton.mp h]
      exact .char
  | sub rule =>
      rw [List.mem_singleton.mp h]
      exact .sub
  | seq first second ihFirst ihSecond | alt first second ihFirst ihSecond =>
      rcases List.mem_append.mp h with h | h
      · exact ihFirst h
      · exact ihSecond h
  | opt part ih | many part ih => exact ih h
  | start | finish | ahead _ _ | absent _ _ => simp [leaves] at h

/-- What is taken by two readings, one after the other. -/
theorem exists_of_taken_andThen {outcome : Outcome ρ} {next : Cursor → Outcome ρ} {taken : Taken ρ}
    (h : (outcome.andThen next).taken = some taken) :
    ∃ first second, outcome.taken = some first ∧ (next first.cursor).taken = some second ∧
      taken = ⟨second.cursor, first.nodes ++ second.nodes⟩ := by
  rw [Outcome.taken_andThen] at h
  rcases Option.bind_eq_some_iff.mp h with ⟨first, hfirst, h⟩
  rcases Option.map_eq_some_iff.mp h with ⟨second, hsecond, htaken⟩
  exact ⟨first, second, hfirst, hsecond, htaken.symm⟩

/-- What is taken by one reading or else by another. -/
theorem taken_of_orElse {outcome other : Outcome ρ} {taken : Taken ρ}
    (h : (outcome.orElse other).taken = some taken) :
    outcome.taken = some taken ∨ other.taken = some taken := by
  rw [Outcome.taken_orElse] at h
  rcases Option.or_eq_some_iff.mp h with h | ⟨-, h⟩
  · exact Or.inl h
  · exact Or.inr h

/-- Staying takes nothing. -/
theorem eq_of_taken_stay {cursor : Cursor} {taken : Taken ρ}
    (h : (Outcome.stay cursor).taken = some taken) : taken = ⟨cursor, []⟩ := by
  rw [Outcome.taken_stay] at h
  exact (Option.some.inj h).symm

/-- Repetitions take nothing, or keep from behind the gap what each of them keeps. -/
theorem repeatReading_keeps (keeps : Cursor → Taken ρ → Prop) {step : Cursor → Outcome ρ}
    (hthen : ∀ cursor first second, keeps cursor first →
      keeps (first.cursor.advance (gapLength first.cursor.rest)) second →
      keeps cursor ⟨second.cursor, first.nodes ++ second.nodes⟩)
    (hstep : ∀ cursor taken, (step cursor).taken = some taken →
      keeps (cursor.advance (gapLength cursor.rest)) taken)
    {bound : List Char} {cursor : Cursor} {taken : Taken ρ}
    (h : (repeatReading step bound cursor).taken = some taken) :
    taken = ⟨cursor, []⟩ ∨ keeps (cursor.advance (gapLength cursor.rest)) taken := by
  induction bound generalizing cursor taken with
  | nil => exact Or.inl (eq_of_taken_stay h)
  | cons c bound ih =>
      rcases taken_of_orElse h with h | h
      · rcases exists_of_taken_andThen h with ⟨first, second, hfirst, hsecond, rfl⟩
        have hkept := hstep cursor first hfirst
        rcases ih hsecond with rfl | hrest
        · right
          rw [List.append_nil]
          exact hkept
        · exact Or.inr (hthen _ first second hkept hrest)
      · exact Or.inl (eq_of_taken_stay h)

/-- What staying, the leaves of a pattern and two readings in order keep, the pattern keeps. -/
theorem Pattern.run_keeps (keeps : Cursor → Taken ρ → Prop)
    (hstay : ∀ cursor, keeps cursor ⟨cursor, []⟩)
    (hthen : ∀ cursor first second, keeps cursor first →
      keeps (first.cursor.advance (gapLength first.cursor.rest)) second →
      keeps cursor ⟨second.cursor, first.nodes ++ second.nodes⟩)
    {pattern : Pattern ρ}
    (hleaf : ∀ leaf ∈ pattern.leaves, ∀ cursor taken,
      (leaf.run gapLength call cursor).taken = some taken → keeps cursor taken)
    {cursor : Cursor} {taken : Taken ρ}
    (h : (pattern.run gapLength call cursor).taken = some taken) : keeps cursor taken := by
  induction pattern generalizing cursor taken with
  | word text => exact hleaf _ List.mem_cons_self cursor taken h
  | char inClass => exact hleaf _ List.mem_cons_self cursor taken h
  | sub rule => exact hleaf _ List.mem_cons_self cursor taken h
  | start | finish =>
      rw [run] at h
      split at h
      · rw [eq_of_taken_stay h]
        exact hstay cursor
      · simp at h
  | seq first second ihFirst ihSecond =>
      rcases exists_of_taken_andThen h with ⟨one, two, hone, htwo, rfl⟩
      apply hthen
      · exact ihFirst (fun leaf hmem => hleaf leaf (List.mem_append_left _ hmem)) hone
      · exact ihSecond (fun leaf hmem => hleaf leaf (List.mem_append_right _ hmem)) htwo
  | alt first second ihFirst ihSecond =>
      rcases taken_of_orElse h with h | h
      · exact ihFirst (fun leaf hmem => hleaf leaf (List.mem_append_left _ hmem)) h
      · exact ihSecond (fun leaf hmem => hleaf leaf (List.mem_append_right _ hmem)) h
  | opt part ih =>
      rcases taken_of_orElse h with h | h
      · exact ih hleaf h
      · rw [eq_of_taken_stay h]
        exact hstay cursor
  | many part ih =>
      rcases taken_of_orElse h with h | h
      · rcases exists_of_taken_andThen h with ⟨first, second, hfirst, hsecond, rfl⟩
        have hkept := ih hleaf hfirst
        rcases repeatReading_keeps keeps hthen (fun _ _ hstep => ih hleaf hstep) hsecond with
          rfl | hrest
        · rw [List.append_nil]
          exact hkept
        · exact hthen _ first second hkept hrest
      · rw [eq_of_taken_stay h]
        exact hstay cursor
  | ahead part _ =>
      rcases Option.map_eq_some_iff.mp h with ⟨inside, -, rfl⟩
      exact hstay cursor
  | absent part _ =>
      rw [run] at h
      simp only [Option.ite_none_right_eq_some, Option.some.injEq] at h
      rw [← h.2]
      exact hstay cursor

/-! ## Pieces of the input -/

@[simp] theorem Cursor.advance_zero (cursor : Cursor) : cursor.advance 0 = cursor := rfl

theorem Cursor.advance_advance (cursor : Cursor) (first second : Nat) :
    (cursor.advance first).advance second = cursor.advance (first + second) := by
  simp [Cursor.advance, Nat.add_assoc]

/-- Whether a leaf takes only characters of a class; a rule may take any. -/
def Pattern.TakesOnly (admits : Char → Bool) : Pattern ρ → Prop
  | .word text => ∀ c ∈ text.toList, admits c = true
  | .char inClass => ∀ c, inClass c = true → admits c = true
  | _ => False

/-- A reading that takes a piece of the input with characters of a class, and no rules. -/
def Spans (admits : Char → Bool) (cursor : Cursor) (taken : Taken ρ) : Prop :=
  taken.nodes = [] ∧ ∃ count, taken.cursor = cursor.advance count ∧
    ∀ c ∈ cursor.rest.take count, admits c = true

/-- A leaf without rules takes a piece of the input. -/
theorem Pattern.TakesOnly.spans {admits : Char → Bool} {leaf : Pattern ρ}
    (honly : leaf.TakesOnly admits) {cursor : Cursor} {taken : Taken ρ}
    (h : (leaf.run gapLength call cursor).taken = some taken) : Spans admits cursor taken := by
  cases leaf with
  | word text =>
      rw [run] at h
      split at h
      · rename_i hfront
        obtain rfl := Option.some.inj h
        refine ⟨rfl, text.toList.length, rfl, ?_⟩
        rw [← List.prefix_iff_eq_take.mp (List.isPrefixOf_iff_prefix.mp hfront)]
        exact honly
      · simp at h
  | char inClass =>
      rw [run] at h
      split at h
      · rename_i hclass
        obtain rfl := Option.some.inj h
        refine ⟨rfl, 1, rfl, ?_⟩
        cases hrest : cursor.rest with
        | nil => simp
        | cons c rest =>
            have hin : inClass c = true := by simpa [hrest] using hclass
            simpa using honly c hin
      · simp at h
  | _ => exact False.elim honly

/-- A pattern whose leaves take only characters of a class takes a piece of the input. -/
theorem Pattern.span_of_run {admits : Char → Bool} {pattern : Pattern ρ}
    (honly : ∀ leaf ∈ pattern.leaves, leaf.TakesOnly admits) {cursor : Cursor} {taken : Taken ρ}
    (h : (pattern.run (fun _ => 0) call cursor).taken = some taken) :
    Spans admits cursor taken := by
  refine Pattern.run_keeps (Spans admits) (fun cursor => ⟨rfl, 0, rfl, by simp⟩) ?_
    (fun leaf hmem cursor taken hleaf => (honly leaf hmem).spans hleaf) h
  rintro cursor first second ⟨hnone, count, hcursor, hcount⟩ ⟨hnoneRest, more, hmore, hclass⟩
  rw [Cursor.advance_zero, hcursor] at hmore hclass
  refine ⟨?_, count + more, ?_, ?_⟩
  · rw [hnone, hnoneRest, List.append_nil]
  · rw [hmore, Cursor.advance_advance]
  · intro c hc
    rw [List.take_add, List.mem_append] at hc
    rcases hc with hc | hc
    · exact hcount c hc
    · exact hclass c hc

/-! ## Trees -/

/-- What holds of a node and of all nodes inside it. -/
inductive Node.Everywhere (holds : Node ρ → Prop) : Node ρ → Prop
  | mk {node : Node ρ} (here : holds node)
      (inside : ∀ child ∈ node.children, Everywhere holds child) : Everywhere holds node

namespace Node.Everywhere

variable {holds : Node ρ → Prop} {node : Node ρ}

/-- What holds everywhere in a tree holds of its root. -/
theorem root (h : node.Everywhere holds) : holds node := by
  cases h with
  | mk here inside => exact here

/-- What holds everywhere in a tree holds everywhere inside its children. -/
theorem child (h : node.Everywhere holds) : ∀ child ∈ node.children, child.Everywhere holds := by
  cases h with
  | mk here inside => exact inside

/-- What follows from something that holds everywhere holds everywhere. -/
theorem imp {other : Node ρ → Prop} (himp : ∀ node, holds node → other node)
    (h : node.Everywhere holds) : node.Everywhere other := by
  induction h with
  | mk here _ ih => exact .mk (himp _ here) ih

end Node.Everywhere

variable {holds : Node ρ → Prop}

/-- What holds everywhere in the nodes of the rules in a pattern holds in all of its nodes. -/
theorem everywhere_of_run
    (hcall : ∀ rule cursor taken, (call rule cursor).taken = some taken →
      ∀ node ∈ taken.nodes, node.Everywhere holds)
    {pattern : Pattern ρ} {cursor : Cursor} {taken : Taken ρ}
    (h : (pattern.run gapLength call cursor).taken = some taken) :
    ∀ node ∈ taken.nodes, node.Everywhere holds := by
  refine Pattern.run_keeps (fun _ taken => ∀ node ∈ taken.nodes, node.Everywhere holds)
    (by simp) ?_ ?_ h
  · intro _ first second hfirst hsecond node hmem
    rcases List.mem_append.mp hmem with hmem | hmem
    · exact hfirst node hmem
    · exact hsecond node hmem
  · intro leaf hmem cursor taken hleaf
    cases Pattern.isLeaf_of_mem hmem with
    | sub => exact hcall _ cursor taken hleaf
    | word | char =>
        rw [Pattern.run] at hleaf
        split at hleaf
        · rw [← Option.some.inj hleaf]
          simp
        · simp at hleaf

/-- A rule puts one node over the text that its pattern takes. -/
theorem eq_of_taken_ofRule {rule : ρ} {cursor : Cursor} {outcome : Outcome ρ} {taken : Taken ρ}
    (h : (Outcome.ofRule rule cursor outcome).taken = some taken) :
    ∃ inside, outcome.taken = some inside ∧ taken = ⟨inside.cursor, [⟨rule, cursor.pos,
      cursor.rest.take (inside.cursor.pos - cursor.pos), inside.nodes⟩]⟩ := by
  unfold Outcome.ofRule at h
  split at h
  · contradiction
  · rename_i inside hinside
    exact ⟨inside, hinside, (Option.some.inj h).symm⟩

/-- Whether a pattern takes nothing without taking what a rule takes. -/
def Pattern.demands [DecidableEq ρ] (rule : ρ) : Pattern ρ → Bool
  | .sub other => other = rule
  | .seq first second => first.demands rule || second.demands rule
  | .alt first second => first.demands rule && second.demands rule
  | .word _ | .char _ | .start | .finish | .opt _ | .many _ | .ahead _ | .absent _ => false

/-- A pattern that demands a rule puts a node of the rule over what it takes. -/
theorem exists_node_of_demands [DecidableEq ρ] {rule : ρ}
    (hcall : ∀ cursor taken, (call rule cursor).taken = some taken →
      ∃ node ∈ taken.nodes, node.rule = rule)
    {pattern : Pattern ρ} (hdemands : pattern.demands rule = true) {cursor : Cursor}
    {taken : Taken ρ} (h : (pattern.run gapLength call cursor).taken = some taken) :
    ∃ node ∈ taken.nodes, node.rule = rule := by
  induction pattern generalizing cursor taken with
  | sub other =>
      obtain rfl : other = rule := of_decide_eq_true hdemands
      exact hcall cursor taken h
  | seq first second ihFirst ihSecond =>
      rcases exists_of_taken_andThen h with ⟨one, two, hone, htwo, rfl⟩
      rcases Bool.or_eq_true_iff.mp hdemands with hfirst | hsecond
      · rcases ihFirst hfirst hone with ⟨node, hnode, hrule⟩
        exact ⟨node, List.mem_append_left _ hnode, hrule⟩
      · rcases ihSecond hsecond htwo with ⟨node, hnode, hrule⟩
        exact ⟨node, List.mem_append_right _ hnode, hrule⟩
  | alt first second ihFirst ihSecond =>
      rcases Bool.and_eq_true_iff.mp hdemands with ⟨hfirst, hsecond⟩
      rcases taken_of_orElse h with h | h
      · exact ihFirst hfirst h
      · exact ihSecond hsecond h
  | word _ | char _ | start | finish | opt _ _ | many _ _ | ahead _ _ | absent _ _ =>
      contradiction

/-- A node over a text that the pattern of a rule takes. -/
def Derives (grammar : Grammar ρ) (node : Node ρ) : Prop :=
  ∃ call cursor inside,
    ((grammar.production node.rule).body.run
      ((grammar.production node.rule).gaps grammar.gapLength) call cursor).taken = some inside ∧
    node.text = cursor.rest.take (inside.cursor.pos - cursor.pos)

variable {grammar : Grammar ρ}

/-- A reading by a rule puts a node of the rule over what it takes. -/
theorem exists_node_of_read {budget : Nat} {rule : ρ} {cursor : Cursor} {taken : Taken ρ}
    (h : (grammar.read budget rule cursor).taken = some taken) :
    ∃ node ∈ taken.nodes, node.rule = rule := by
  cases budget with
  | zero => simp [Grammar.read] at h
  | succ budget =>
      rcases eq_of_taken_ofRule h with ⟨inside, -, rfl⟩
      exact ⟨_, List.mem_cons_self, rfl⟩

/--
What holds of the node over every text that a production takes holds of all nodes of a reading.
-/
theorem everywhere_of_read
    (hnode : ∀ budget rule cursor inside, ((grammar.production rule).body.run
        ((grammar.production rule).gaps grammar.gapLength) (grammar.read budget) cursor).taken =
          some inside →
      holds ⟨rule, cursor.pos, cursor.rest.take (inside.cursor.pos - cursor.pos), inside.nodes⟩)
    {budget : Nat} {rule : ρ} {cursor : Cursor} {taken : Taken ρ}
    (h : (grammar.read budget rule cursor).taken = some taken) :
    ∀ node ∈ taken.nodes, node.Everywhere holds := by
  induction budget generalizing rule cursor taken with
  | zero => simp [Grammar.read] at h
  | succ budget ih =>
      rcases eq_of_taken_ofRule h with ⟨inside, hinside, rfl⟩
      intro node hmem
      rw [List.mem_singleton.mp hmem]
      refine .mk (hnode budget rule cursor inside hinside) ?_
      exact everywhere_of_run (fun _ _ _ hcall => ih hcall) hinside

/-- What holds of the node over every text that a production takes holds of all nodes of a tree. -/
theorem everywhere_of_parse
    (hnode : ∀ budget rule cursor inside, ((grammar.production rule).body.run
        ((grammar.production rule).gaps grammar.gapLength) (grammar.read budget) cursor).taken =
          some inside →
      holds ⟨rule, cursor.pos, cursor.rest.take (inside.cursor.pos - cursor.pos), inside.nodes⟩)
    {rule : ρ} {text : List Char} {root : Node ρ} (h : grammar.parse rule text = .ok root) :
    root.Everywhere holds := by
  simp only [Grammar.parse] at h
  split at h
  · rename_i node hhead
    obtain rfl := Except.ok.inj h
    rcases Option.bind_eq_some_iff.mp hhead with ⟨taken, htaken, hmem⟩
    exact everywhere_of_read hnode htaken node (List.mem_of_mem_head? hmem)
  · contradiction

/-- Every node of the tree over a text is over a text that the pattern of its rule takes. -/
theorem derives_of_parse {rule : ρ} {text : List Char} {root : Node ρ}
    (h : grammar.parse rule text = .ok root) : root.Everywhere grammar.Derives :=
  everywhere_of_parse (fun _ _ cursor inside hinside => ⟨_, cursor, inside, hinside, rfl⟩) h

/-- A node of a lexical rule whose leaves take only characters of a class has no others. -/
theorem Derives.admits {admits : Char → Bool} {node : Node ρ} (h : grammar.Derives node)
    (hlexical : (grammar.production node.rule).lexical = true)
    (honly : ∀ leaf ∈ (grammar.production node.rule).body.leaves, leaf.TakesOnly admits) :
    ∀ c ∈ node.text, admits c = true := by
  rcases h with ⟨call, cursor, inside, hinside, htext⟩
  rw [Production.gaps, if_pos hlexical] at hinside
  rcases Pattern.span_of_run honly hinside with ⟨-, count, hcursor, hclass⟩
  rw [htext, hcursor, Cursor.advance, Nat.add_sub_cancel_left]
  exact hclass

end Grammar
end ElmBinding
