import ElmBinding.Grammar.Reading

/-!
# Sketches of trees

A sketch of a tree is the tree without the places of its nodes, and without the texts of nodes that
belong to other rules than some.  What is looked up in a node is looked up in its sketch as well, as
long as the texts of the rules are kept.

Main results:

- Definition {lit}`Node.sketch`: a tree without places and without the texts of some rules.
- Theorems {lit}`Node.child?_sketch` and {lit}`Node.childString_sketch`: the nodes inside a sketched
  node, and their texts.
-/

namespace ElmBinding
namespace Grammar

variable {ρ : Type}

mutual

/-- A node without its place, and with its text only if its rule is one of some. -/
def Node.sketch (texts : ρ → Bool) : Node ρ → Node ρ
  | ⟨rule, _, text, children⟩ =>
      ⟨rule, 0, if texts rule then text else [], sketches texts children⟩

/-- Nodes without their places, and with their texts only if their rules are among some. -/
def sketches (texts : ρ → Bool) : List (Node ρ) → List (Node ρ)
  | [] => []
  | node :: rest => node.sketch texts :: sketches texts rest

end

/-- Nodes are sketched one by one. -/
theorem sketches_eq_map (texts : ρ → Bool) (nodes : List (Node ρ)) :
    sketches texts nodes = nodes.map (Node.sketch texts) := by
  induction nodes with
  | nil => rw [sketches, List.map_nil]
  | cons node rest ih => rw [sketches, ih, List.map_cons]

/-- Nodes in order are sketched in order. -/
theorem sketches_append (texts : ρ → Bool) (nodes others : List (Node ρ)) :
    sketches texts (nodes ++ others) = sketches texts nodes ++ sketches texts others := by
  simp only [sketches_eq_map, List.map_append]

mutual

/-- A sketch with fewer texts may be made of a sketch. -/
theorem Node.sketch_sketch {texts texts' : ρ → Bool}
    (h : ∀ rule, texts rule = true → texts' rule = true) :
    ∀ node : Node ρ, (node.sketch texts').sketch texts = node.sketch texts
  | ⟨rule, start, text, children⟩ => by
      rw [Node.sketch, Node.sketch, Node.sketch, sketches_sketches h children]
      by_cases hrule : texts rule = true
      · rw [if_pos hrule, if_pos (h rule hrule), if_pos hrule]
      · rw [if_neg hrule, if_neg hrule]

/-- Sketches with fewer texts may be made of sketches. -/
theorem sketches_sketches {texts texts' : ρ → Bool}
    (h : ∀ rule, texts rule = true → texts' rule = true) :
    ∀ nodes : List (Node ρ), sketches texts (sketches texts' nodes) = sketches texts nodes
  | [] => by simp only [sketches]
  | node :: rest => by
      simp only [sketches, Node.sketch_sketch h node, sketches_sketches h rest]

end

/-! ## Nodes inside of nodes -/

namespace Node

variable (texts : ρ → Bool) (node : Node ρ)

@[simp] theorem rule_sketch : (node.sketch texts).rule = node.rule := by
  rcases node with ⟨rule, start, text, children⟩
  rw [sketch, Node.rule, Node.rule]

@[simp] theorem children_sketch :
    (node.sketch texts).children = node.children.map (sketch texts) := by
  rcases node with ⟨rule, start, text, children⟩
  rw [sketch, Node.children, Node.children, sketches_eq_map]

variable {texts node}

/-- A node whose text is kept keeps it. -/
theorem text_sketch (h : texts node.rule = true) : (node.sketch texts).text = node.text := by
  rcases node with ⟨rule, start, text, children⟩
  rw [sketch, Node.text, Node.text]
  exact if_pos h

/-- A node whose text is kept keeps it as a string. -/
theorem string_sketch (h : texts node.rule = true) : (node.sketch texts).string = node.string := by
  rw [string, string, text_sketch h]

variable (texts node) [DecidableEq ρ] (rule : ρ)

/-- The children of a rule are sketched. -/
@[simp] theorem childrenOf_sketch :
    (node.sketch texts).childrenOf rule = (node.childrenOf rule).map (sketch texts) := by
  rw [childrenOf, childrenOf, children_sketch, List.filter_map]
  congr 2
  funext child
  simp

/-- The first child of a rule is sketched. -/
@[simp] theorem child?_sketch :
    (node.sketch texts).child? rule = (node.child? rule).map (sketch texts) := by
  rw [child?, child?, children_sketch, List.find?_map]
  congr 2
  funext child
  simp

/-- The children of a rule of several nodes are sketched. -/
theorem flatMap_childrenOf_sketch (nodes : List (Node ρ)) :
    (nodes.map (sketch texts)).flatMap (fun node => node.childrenOf rule) =
      (nodes.flatMap fun node => node.childrenOf rule).map (sketch texts) := by
  rw [List.flatMap_map, List.map_flatMap]
  congr 1
  funext node
  exact childrenOf_sketch texts node rule

variable {texts node rule}

/-- The first child of a rule belongs to the rule. -/
theorem rule_of_child? {child : Node ρ} (h : node.child? rule = some child) :
    child.rule = rule := by
  simpa using List.find?_some h

/-- The children of a rule belong to the rule. -/
theorem rule_of_mem_childrenOf {child : Node ρ} (h : child ∈ node.childrenOf rule) :
    child.rule = rule := by
  simpa using (List.mem_filter.mp h).2

variable (node)

/-- The first child of a rule has its text in the sketch, if texts of the rule are kept. -/
theorem text_child?_sketch (h : texts rule = true) :
    ((node.sketch texts).child? rule).map text = (node.child? rule).map text := by
  rw [child?_sketch, Option.map_map]
  refine Option.map_congr fun child hchild => ?_
  exact text_sketch (by rw [rule_of_child? hchild, h])

/-- The first child of a rule has its text in the sketch as a string. -/
theorem string_child?_sketch (h : texts rule = true) :
    ((node.sketch texts).child? rule).map string = (node.child? rule).map string := by
  have htext := congrArg (Option.map String.ofList) (text_child?_sketch node h)
  rwa [Option.map_map, Option.map_map] at htext

variable {node}

/-- What is read of the text of the first child of a rule, if texts of the rule are kept. -/
theorem elim_child?_sketch {α : Type} (none : α) (read : List Char → α) (h : texts rule = true) :
    ((node.sketch texts).child? rule).elim none (fun child => read child.text) =
      (node.child? rule).elim none fun child => read child.text := by
  have htext := congrArg (fun found => Option.elim found none read) (text_child?_sketch node h)
  rwa [Option.elim_map, Option.elim_map] at htext

/-- The text of the first child of a rule, if texts of the rule are kept. -/
theorem childString_sketch (h : texts rule = true) :
    (node.sketch texts).childString rule = node.childString rule :=
  elim_child?_sketch "" String.ofList h

end Node

end Grammar
end ElmBinding
