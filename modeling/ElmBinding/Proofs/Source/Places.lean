import ElmBinding.Proofs.Source.Sketches
import ElmBinding.Proofs.Source.Tokens

/-!
# Places of nodes

What is declared depends on the rules and the texts of the nodes over a source text.  Their places
only tell which comments are beside them.  Where there are no comments, a tree without its places
declares the same as the tree.

Main results:

- Theorem {lit}`Node.child?_bare`: the nodes inside a node without places.
- Theorem {lit}`declareAll_bare`: bodies without places.
- Theorem {lit}`schemaOf_bare`: the schema of a tree without places.
-/

namespace ElmBinding

namespace Grammar
namespace Node

variable {ρ : Type}

mutual

/-- A tree without its places is a sketch with all texts. -/
theorem bare_eq_sketch : ∀ node : Node ρ, node.bare = node.sketch fun _ => true
  | ⟨rule, start, text, children⟩ => by
      rw [bare, sketch, bareNodes_eq_sketches children, if_pos rfl]

/-- Trees without their places are sketches with all texts. -/
theorem bareNodes_eq_sketches : ∀ nodes : List (Node ρ),
    bareNodes nodes = sketches (fun _ => true) nodes
  | [] => by rw [bareNodes, sketches]
  | node :: rest => by rw [bareNodes, sketches, node.bare_eq_sketch, bareNodes_eq_sketches rest]

end

/-- Leaving out the places is to sketch with all texts. -/
theorem bare_eq : (bare : Node ρ → Node ρ) = sketch fun _ => true :=
  funext bare_eq_sketch

variable (node : Node ρ)

@[simp] theorem rule_bare : node.bare.rule = node.rule := by
  rw [bare_eq, rule_sketch]

theorem text_bare : node.bare.text = node.text := by
  rw [bare_eq, text_sketch rfl]

@[simp] theorem string_bare : node.bare.string = node.string := by
  rw [bare_eq, string_sketch rfl]

@[simp] theorem children_bare : node.bare.children = node.children.map bare := by
  rw [bare_eq, children_sketch]

variable [DecidableEq ρ] (rule : ρ)

/-- The children of a rule lose their places. -/
@[simp] theorem childrenOf_bare :
    node.bare.childrenOf rule = (node.childrenOf rule).map bare := by
  rw [bare_eq, childrenOf_sketch]

/-- The first child of a rule loses its place. -/
@[simp] theorem child?_bare : node.bare.child? rule = (node.child? rule).map bare := by
  rw [bare_eq, child?_sketch]

/-- The children of a rule of several nodes lose their places. -/
theorem flatMap_childrenOf_bare (nodes : List (Node ρ)) :
    (nodes.map bare).flatMap (fun node => node.childrenOf rule) =
      (nodes.flatMap fun node => node.childrenOf rule).map bare := by
  rw [bare_eq, flatMap_childrenOf_sketch]

/-- The first child of a rule keeps its text. -/
@[simp] theorem childString_bare : node.bare.childString rule = node.childString rule := by
  rw [bare_eq, childString_sketch rfl]

end Node
end Grammar

namespace Source

open Grammar

/-- Nothing in the source of an origin has comments beside it. -/
def Origin.Plain (origin : Origin) : Prop :=
  ∀ node, origin.commentsOf node = {}

variable {origin : Origin} (hplain : origin.Plain) (scope : String) (node : Node Rule)

/-! ## Parts of declarations -/

/-- A sketch does not depend on places. -/
theorem sketched_bare : sketched node.bare = sketched node := by
  rw [Node.bare_eq_sketch]
  exact Node.sketch_sketch (fun _ _ => rfl) node

theorem tagOf_bare (fullName : String) : tagOf fullName node.bare = tagOf fullName node := by
  rw [← tagOf_sketched, sketched_bare, tagOf_sketched]

theorem kindIn_bare : kindIn node.bare = kindIn node := by
  rw [← kindIn_sketched, sketched_bare, kindIn_sketched]

theorem keyScalar_bare : keyScalar node.bare = keyScalar node := by
  rw [← keyScalar_sketched, sketched_bare, keyScalar_sketched]

/-- The head of the message of a group over a node does not depend on places. -/
theorem groupHead_bare : groupHead scope node.bare = groupHead scope node := by
  rw [← groupHead_sketched, sketched_bare, groupHead_sketched]

/-- The dialect of a tree does not depend on places. -/
theorem dialectOf_bare : dialectOf node.bare = dialectOf node := by
  rw [dialectOf, dialectOf, Node.child?_bare]
  cases node.child? .syntaxStatement <;> simp [Node.text_bare]

/-- The package of a tree does not depend on places. -/
theorem packageOf_bare : packageOf node.bare = packageOf node := by
  rw [← packageOf_sketched, sketched_bare, packageOf_sketched]

/-! ## Declarations -/

section Plain

include hplain

/-- The field over a node does not depend on places. -/
theorem fieldOf_bare : fieldOf origin scope node.bare = fieldOf origin scope node := by
  simp only [fieldOf, Node.childString_bare, tagOf_bare, kindIn_bare, hplain _]

/-- The map field over a node does not depend on places. -/
theorem mapFieldOf_bare : mapFieldOf origin scope node.bare = mapFieldOf origin scope node := by
  simp only [mapFieldOf, Node.childString_bare, tagOf_bare, kindIn_bare, keyScalar_bare, hplain _]

/-- The field of a group over a node does not depend on places. -/
theorem groupFieldOf_bare :
    groupFieldOf origin scope node.bare = groupFieldOf origin scope node := by
  simp only [groupFieldOf, Node.childString_bare, tagOf_bare, hplain _]

/-- The oneof over a node does not depend on places. -/
theorem declareOneof_bare (message : Message) :
    declareOneof origin message node.bare = declareOneof origin message node := by
  have hfields : (fieldOf origin message.fullName ∘ Node.bare) = fieldOf origin message.fullName :=
    funext (fieldOf_bare hplain message.fullName)
  simp only [declareOneof, Node.childString_bare, Node.childrenOf_bare,
    Node.flatMap_childrenOf_bare, List.mapM_map, hfields, hplain _]

/-- The value of an enumeration over a node does not depend on places. -/
theorem enumValueOf_bare : enumValueOf origin scope node.bare = enumValueOf origin scope node := by
  have hnumber : (node.bare.child? .enumFieldValue).elim [] Node.text =
      (node.child? .enumFieldValue).elim [] Node.text := by
    rw [Node.child?_bare]
    cases node.child? .enumFieldValue <;> simp [Node.text_bare]
  simp only [enumValueOf, Node.childString_bare, hnumber, hplain _]

/-- The enumeration over a node does not depend on places. -/
theorem enumOf_bare : enumOf origin scope node.bare = enumOf origin scope node := by
  have hvalues : (enumValueOf origin scope ∘ Node.bare) = enumValueOf origin scope :=
    funext (enumValueOf_bare hplain scope)
  simp only [enumOf, Node.childString_bare, Node.childrenOf_bare, Node.flatMap_childrenOf_bare,
    List.mapM_map, hvalues, hplain _]

/-- The method over a node does not depend on places. -/
theorem methodOf_bare : methodOf origin scope node.bare = methodOf origin scope node := by
  have hstrings : (Node.string ∘ Node.bare : Node Rule → String) = Node.string :=
    funext Node.string_bare
  simp only [methodOf, Node.childString_bare, Node.childrenOf_bare, Node.child?_bare,
    Option.isSome_map, List.map_map, hstrings, hplain _]

/-- The service over a node does not depend on places. -/
theorem serviceOf_bare : serviceOf origin node.bare = serviceOf origin node := by
  have hmethods : ∀ service, methodOf origin service ∘ Node.bare = methodOf origin service :=
    fun service => funext (methodOf_bare hplain service)
  simp only [serviceOf, Node.childString_bare, Node.childrenOf_bare, List.map_map, hmethods,
    hplain _]

/-- The head of a message over a node does not depend on places. -/
theorem messageHead_bare : messageHead origin scope node.bare = messageHead origin scope node := by
  simp only [messageHead, Node.childString_bare, hplain _]

/-- A body does not depend on places. -/
theorem declareAll_bare (message : Message) (nodes : List (Node Rule)) :
    declareAll origin message (nodes.map Node.bare) = declareAll origin message nodes := by
  induction nodes using nodes_induction generalizing message with
  | nil => rfl
  | cons node rest hchildren hrest =>
      have hnode : declare origin message node.bare = declare origin message node := by
        rcases node with ⟨rule, start, text, children⟩
        have hbare : (⟨rule, start, text, children⟩ : Node Rule).bare =
            ⟨rule, 0, text, children.map Node.bare⟩ := by
          rw [Node.bare, bareNodes_eq_map]
        have hinner : ∀ message, declareAll origin message (children.map Node.bare) =
            declareAll origin message children := hchildren
        rw [hbare]
        unfold declare
        rw [← hbare]
        simp only [fieldOf_bare hplain, mapFieldOf_bare hplain, groupFieldOf_bare hplain,
          declareOneof_bare hplain, enumOf_bare hplain, messageHead_bare hplain, groupHead_bare,
          hinner]
      simp only [List.map_cons, declareAll, hnode, hrest]

/-- The message over a node does not depend on places. -/
theorem messageOf_bare : messageOf origin scope node.bare = messageOf origin scope node := by
  rw [messageOf, messageOf, messageHead_bare hplain, Node.children_bare, declareAll_bare hplain]

/-- A definition does not depend on places. -/
theorem define_bare (schema : Schema) :
    define origin schema node.bare = define origin schema node := by
  simp only [define, Node.rule_bare, messageOf_bare hplain, enumOf_bare hplain,
    serviceOf_bare hplain]

end Plain

/-- Without comments in the source, the schema of a tree does not depend on places. -/
theorem schemaOf_bare {source : List Char} (hsource : ∀ c ∈ source, isPlainText c = true)
    (fileName : Option String) (root : Node Rule) :
    schemaOf fileName source root.bare = schemaOf fileName source root := by
  have hplain : ∀ dialect package, Origin.Plain ⟨source, dialect, package⟩ :=
    fun _ _ node => commentsBeside_of_plain hsource node.start node.stop
  have hpackage : packageOf ∘ Node.bare = packageOf := funext packageOf_bare
  have hchildren : ∀ nodes : List (Node Rule), (nodes.map Node.bare).flatMap Node.children =
      (nodes.flatMap Node.children).map Node.bare := by
    intro nodes
    rw [List.flatMap_map, List.map_flatMap]
    congr 1
    funext node
    exact node.children_bare
  have hdefine : ∀ origin : Origin, origin.Plain → ∀ (nodes : List (Node Rule)) schema,
      (nodes.map Node.bare).foldlM (define origin) schema =
        nodes.foldlM (define origin) schema := by
    intro origin hplain nodes schema
    rw [List.foldlM_map]
    simp only [define_bare hplain]
  simp only [schemaOf, Node.childrenOf_bare, Node.flatMap_childrenOf_bare, hchildren,
    dialectOf_bare, List.head?_map, Option.bind_map, hpackage, hdefine _ (hplain _ _)]

end Source
end ElmBinding
