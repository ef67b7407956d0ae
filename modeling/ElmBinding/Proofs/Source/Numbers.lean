import ElmBinding.Proofs.Source.Denotation
import ElmBinding.Proofs.Source.Bodies
import ElmBinding.Source.Schemas

/-!
# Numbers of declarations

The numbers in a source text are the tags of its fields and the values of its enumerations.  Each
of them stands in the tree over the text as a literal, and each of them is a number of the schema.

Main results:

- Definition {lit}`Schema.numbers`: the numbers of a schema, at every depth.
- Definition {lit}`Message.Gains`: what a message gets while its body is read.
- Definition {lit}`WrittenNumber`: a number as it is written, with what it is for.
- Definition {lit}`writtenNumbers`: the numbers in a tree, in order.
- Theorem {lit}`numbered_of_parse`: in the tree over a text every number is there.
- Theorem {lit}`isLiteral_of_mem_writtenNumbers`: the numbers in the tree over a text are literals.
-/

namespace ElmBinding

/-! ## Numbers of schemas -/

/-- The numbers of the values of an enumeration, with their full names. -/
def Enumeration.numbers (enumeration : Enumeration) : List (String × Int) :=
  enumeration.values.map fun value => (value.fullName, value.number)

/-- A number of a field with its full name. -/
def Field.numbered (field : Field) : String × Int :=
  (field.fullName, field.number)

/-- The numbers that stand in the body of a message; the fields of an entry have none there. -/
def Message.ownNumbers (message : Message) : List (String × Int) :=
  (if message.mapEntry then [] else
    message.fields.map Field.numbered) ++
  message.enums.flatMap Enumeration.numbers

/-- The numbers that stand in a message at every depth. -/
def Message.numbers (message : Message) : List (String × Int) :=
  message.family.flatMap Message.ownNumbers

/-- The numbers of a schema at every depth, with the full names of what they belong to. -/
def Schema.numbers (schema : Schema) : List (String × Int) :=
  schema.allMessages.flatMap Message.ownNumbers ++ schema.enums.flatMap Enumeration.numbers

namespace Message

variable {message after final : Message} {numbers others : List (String × Int)}

/-- The numbers of a message: its own ones and those of the messages inside. -/
theorem numbers_eq (message : Message) : message.numbers =
    message.ownNumbers ++ (families message.messages).flatMap ownNumbers := by
  rw [numbers, family_eq, List.flatMap_cons]

/-- A message that has got more numbers and is the same message otherwise. -/
structure Gains (message : Message) (numbers : List (String × Int)) (after : Message) : Prop where
  fullName : after.fullName = message.fullName
  mapEntry : after.mapEntry = message.mapEntry
  numbers : after.numbers.Perm (message.numbers ++ numbers)

namespace Gains

theorem refl (message : Message) : message.Gains [] message :=
  ⟨rfl, rfl, by rw [List.append_nil]⟩

/-- Numbers are added one after the other. -/
theorem trans (hfirst : message.Gains numbers after) (hsecond : after.Gains others final) :
    message.Gains (numbers ++ others) final where
  fullName := hsecond.fullName.trans hfirst.fullName
  mapEntry := hsecond.mapEntry.trans hfirst.mapEntry
  numbers := by
    rw [← List.append_assoc]
    exact hsecond.numbers.trans (hfirst.numbers.append_right others)

/-- The order of the numbers that are added makes no difference. -/
theorem perm (h : message.Gains numbers after) (hperm : numbers.Perm others) :
    message.Gains others after :=
  ⟨h.fullName, h.mapEntry, h.numbers.trans (hperm.append_left _)⟩

/-- A message that is no entry has the numbers of fields that are added, whatever its oneofs. -/
theorem addFields (hplain : message.mapEntry = false) (fields : List Field)
    (oneofs : List Oneof) :
    message.Gains (fields.map Field.numbered)
      { message with fields := message.fields ++ fields, oneofs } := by
  refine ⟨rfl, rfl, ?_⟩
  simp only [numbers_eq, ownNumbers, hplain, Bool.false_eq_true, if_false]
  refine List.perm_iff_count.mpr fun number => ?_
  simp only [List.map_append, List.count_append]
  omega

/-- A message that is no entry has the number of a field that is added. -/
theorem addField (hplain : message.mapEntry = false) (field : Field) :
    message.Gains [field.numbered] (message.addField field) :=
  addFields hplain [field] message.oneofs

/-- A message has the numbers of a message that is added. -/
theorem addMessage (message nested : Message) :
    message.Gains nested.numbers (message.addMessage nested) := by
  refine ⟨rfl, rfl, ?_⟩
  rw [numbers_eq, numbers_eq message, Message.addMessage, families_append, families_cons,
    families_nil, List.append_nil, List.flatMap_append, ← List.append_assoc]
  exact List.Perm.refl _

/-- A message has the numbers of an enumeration that is added. -/
theorem addEnum (message : Message) (enumeration : Enumeration) :
    message.Gains enumeration.numbers (message.addEnum enumeration) := by
  have hown : (message.addEnum enumeration).ownNumbers =
      message.ownNumbers ++ enumeration.numbers := by
    rw [ownNumbers, ownNumbers, Message.addEnum, List.flatMap_append, List.flatMap_singleton,
      ← List.append_assoc]
  refine ⟨rfl, rfl, ?_⟩
  rw [numbers_eq, numbers_eq message, hown, List.append_assoc, List.append_assoc]
  exact List.perm_append_comm.append_left _

end Gains

end Message

namespace Source

open Grammar

/-! ## Numbers in trees -/

/-- What a number is for. -/
inductive NumberUse where
  /-- The tag of a field. -/
  | tag
  /-- The number of a value of an enumeration. -/
  | value

namespace NumberUse

/-- The least number that there is for a use. -/
def least : NumberUse → Int
  | tag => 0
  | value => -0x80000000

/-- The greatest number that there is for a use. -/
def greatest : NumberUse → Int
  | tag => 0xFFFFFFFF
  | value => 0x7FFFFFFF

end NumberUse

/-- A number as it is written in a text. -/
structure WrittenNumber where
  use : NumberUse
  /-- The full name of the field or the value. -/
  fullName : String
  literal : List Char

namespace WrittenNumber

variable (number : WrittenNumber)

/-- What a number is read as. -/
def value : Int :=
  literalValue number.literal

/-- Whether a number is in the range that there is for its use. -/
def fits : Bool :=
  number.use.least ≤ number.value ∧ number.value ≤ number.use.greatest

/-- The error that reports a number. -/
def error : SchemaError :=
  .outOfRange number.fullName (clampToInt64 number.value)

/-- A number with the full name of what it belongs to. -/
def entry : String × Int :=
  (number.fullName, number.value)

/-- The ranges are inside of the one of 64 bits, so a number fits if and only if it does there. -/
theorem fits_iff : number.fits = true ↔ number.use.least ≤ clampToInt64 number.value ∧
    clampToInt64 number.value ≤ number.use.greatest := by
  rw [fits, decide_eq_true_eq, clampToInt64]
  cases number.use <;> simp only [NumberUse.least, NumberUse.greatest] <;> omega

/-- A number that fits is not changed where it is brought into the range of 64 bits. -/
theorem clampToInt64_of_fits (h : number.fits = true) :
    clampToInt64 number.value = number.value := by
  rw [fits, decide_eq_true_eq] at h
  rw [clampToInt64]
  cases huse : number.use <;>
    simp only [huse, NumberUse.least, NumberUse.greatest] at h <;> omega

end WrittenNumber

/-- The tag in a node of a field with a full name. -/
def tagIn (fullName : String) (node : Node Rule) : WrittenNumber :=
  ⟨.tag, fullName, (node.child? .tag).elim [] Node.text⟩

/-- The tag in a node of a field that is declared in a scope. -/
def fieldTagIn (scope : String) (node : Node Rule) : WrittenNumber :=
  tagIn (qualify scope (node.childString .fieldName)) node

/-- The number in a node of a value that is declared in a scope. -/
def valueIn (scope : String) (node : Node Rule) : WrittenNumber :=
  ⟨.value, qualify scope (node.childString .enumFieldName),
    (node.child? .enumFieldValue).elim [] Node.text⟩

/-- The nodes of the members of a oneof. -/
def memberNodes (node : Node Rule) : List (Node Rule) :=
  (node.childrenOf .oneofField).flatMap fun member => member.childrenOf .field

/-- The nodes of the values of an enumeration. -/
def valueNodes (node : Node Rule) : List (Node Rule) :=
  (node.childrenOf .enumBody).flatMap fun body => body.childrenOf .enumField

mutual

/-- The numbers that a node of a body in a scope has in it, in order. -/
def nodeNumbers (scope : String) : Node Rule → List WrittenNumber
  | ⟨rule, start, text, children⟩ =>
      let node : Node Rule := ⟨rule, start, text, children⟩
      match rule with
      | .messageBody | .messageElement => bodyNumbers scope children
      | .field | .mapField => [fieldTagIn scope node]
      | .groupField =>
          let groupName := node.childString .groupName
          tagIn (qualify scope (String.ofList (groupName.toList.map Char.toLower))) node ::
            bodyNumbers (qualify scope groupName) children
      | .oneof => (memberNodes node).map (fieldTagIn scope)
      | .enumBlock => (valueNodes node).map (valueIn scope)
      | .messageBlock => bodyNumbers (qualify scope (node.childString .messageName)) children
      | _ => []

/-- The numbers that the nodes of a body in a scope have in them, in order. -/
def bodyNumbers (scope : String) : List (Node Rule) → List WrittenNumber
  | [] => []
  | node :: rest => nodeNumbers scope node ++ bodyNumbers scope rest

end

/-- The numbers that a definition of a package has in it. -/
def definitionNumbers (package : String) (node : Node Rule) : List WrittenNumber :=
  match node.rule with
  | .messageBlock | .enumBlock => nodeNumbers package node
  | _ => []

/-- The package that a tree tells, empty if it tells none. -/
def packageIn (root : Node Rule) : String :=
  (((root.childrenOf .protoBody).head?).bind packageOf).getD ""

/-- The nodes of the definitions in a tree. -/
def definitionNodes (root : Node Rule) : List (Node Rule) :=
  ((root.childrenOf .protoBody).flatMap fun body =>
    body.childrenOf .topLevelDefinition).flatMap Node.children

/-- The numbers in a tree, in order. -/
def writtenNumbers (root : Node Rule) : List WrittenNumber :=
  (definitionNodes root).flatMap (definitionNumbers (packageIn root))

/-! ## The tree over a text -/

/-- A node whose number, if it is to have one, is there as a literal. -/
def Numbered (node : Node Rule) : Prop :=
  match node.rule with
  | .tag | .enumFieldValue => IsLiteral node.text
  | .field | .mapField | .groupField => ∃ child ∈ node.children, child.rule = .tag
  | .enumField => ∃ child ∈ node.children, child.rule = .enumFieldValue
  | _ => True

/-- A node over the text of a production has its number as a literal. -/
theorem numbered_of_read (budget : Nat) (rule : Rule) (cursor : Cursor) (inside : Taken Rule)
    (h : ((schemaGrammar.production rule).body.run
      ((schemaGrammar.production rule).gaps schemaGrammar.gapLength) (schemaGrammar.read budget)
        cursor).taken = some inside) :
    Numbered ⟨rule, cursor.pos, cursor.rest.take (inside.cursor.pos - cursor.pos),
      inside.nodes⟩ := by
  have hdemanded : ∀ inner, (schemaGrammar.production rule).body.demands inner = true →
      ∃ child ∈ inside.nodes, child.rule = inner :=
    fun inner hdemands => exists_node_of_demands (fun _ _ => exists_node_of_read) hdemands h
  -- A production that is a number has the text of the literal in it.
  have hliteral : (schemaGrammar.read budget .integerValue cursor).taken = some inside →
      IsLiteral (cursor.rest.take (inside.cursor.pos - cursor.pos)) := by
    intro hread
    cases budget with
    | zero => simp [Grammar.read] at hread
    | succ budget =>
        rcases eq_of_taken_ofRule hread with ⟨literal, htaken, rfl⟩
        exact ⟨_, cursor, literal, htaken, rfl⟩
  cases rule with
  | tag | enumFieldValue => exact hliteral h
  | field | mapField | groupField => exact hdemanded .tag rfl
  | enumField => exact hdemanded .enumFieldValue rfl
  | _ => trivial

/-- In the tree over a text every number is there as a literal. -/
theorem numbered_of_parse {text : List Char} {root : Node Rule}
    (h : schemaGrammar.parse .proto text = .ok root) : root.Everywhere Numbered :=
  everywhere_of_parse numbered_of_read h

variable {node : Node Rule}

/-- The text of a number that a node is to have is a literal. -/
theorem isLiteral_child {number : Rule}
    (hnumber : ∀ child : Node Rule, child.rule = number → Numbered child → IsLiteral child.text)
    (hnode : node.Everywhere Numbered) (hchild : ∃ child ∈ node.children, child.rule = number) :
    IsLiteral ((node.child? number).elim [] Node.text) := by
  cases hfind : node.child? number with
  | none =>
      rcases hchild with ⟨child, hmem, hrule⟩
      have hne := List.find?_eq_none.mp hfind child hmem
      simp [hrule] at hne
  | some child =>
      have hrule : child.rule = number := by simpa using List.find?_some hfind
      exact hnumber child hrule (hnode.child child (List.mem_of_find?_eq_some hfind)).root

/-- The tag of a field is a literal. -/
theorem isLiteral_tagIn (hnode : node.Everywhere Numbered)
    (hrule : node.rule = .field ∨ node.rule = .mapField ∨ node.rule = .groupField)
    (fullName : String) : IsLiteral (tagIn fullName node).literal := by
  refine isLiteral_child (fun child hchild hnumbered => ?_) hnode ?_
  · rwa [Numbered, hchild] at hnumbered
  · have hnumbered := hnode.root
    rcases hrule with hrule | hrule | hrule <;> rwa [Numbered, hrule] at hnumbered

/-- The number of a value is a literal. -/
theorem isLiteral_valueIn (hnode : node.Everywhere Numbered) (hrule : node.rule = .enumField)
    (scope : String) : IsLiteral (valueIn scope node).literal := by
  refine isLiteral_child (fun child hchild hnumbered => ?_) hnode ?_
  · rwa [Numbered, hchild] at hnumbered
  · have hnumbered := hnode.root
    rwa [Numbered, hrule] at hnumbered

/-- The nodes of the members of a oneof are numbered fields. -/
theorem numbered_of_mem_memberNodes (hnode : node.Everywhere Numbered) {inner : Node Rule}
    (hinner : inner ∈ memberNodes node) : inner.Everywhere Numbered ∧ inner.rule = .field := by
  rcases List.mem_flatMap.mp hinner with ⟨child, hchild, hmem⟩
  rcases List.mem_filter.mp hmem with ⟨hmem, hrule⟩
  exact ⟨(hnode.child child (List.mem_filter.mp hchild).1).child inner hmem,
    of_decide_eq_true hrule⟩

/-- The nodes of the values of an enumeration are numbered. -/
theorem numbered_of_mem_valueNodes (hnode : node.Everywhere Numbered) {inner : Node Rule}
    (hinner : inner ∈ valueNodes node) :
    inner.Everywhere Numbered ∧ inner.rule = .enumField := by
  rcases List.mem_flatMap.mp hinner with ⟨child, hchild, hmem⟩
  rcases List.mem_filter.mp hmem with ⟨hmem, hrule⟩
  exact ⟨(hnode.child child (List.mem_filter.mp hchild).1).child inner hmem,
    of_decide_eq_true hrule⟩

/-- The numbers of a node of a body are literals if those of the nodes inside it are. -/
theorem isLiteral_of_mem_nodeNumbers {scope : String} (hnode : node.Everywhere Numbered)
    (hchildren : ∀ scope, ∀ number ∈ bodyNumbers scope node.children, IsLiteral number.literal) :
    ∀ number ∈ nodeNumbers scope node, IsLiteral number.literal := by
  rcases node with ⟨rule, start, text, children⟩
  intro number hnumber
  cases rule with
  | messageBody | messageElement | messageBlock => exact hchildren _ number hnumber
  | field =>
      rw [nodeNumbers, List.mem_singleton] at hnumber
      rw [hnumber]
      exact isLiteral_tagIn hnode (Or.inl rfl) _
  | mapField =>
      rw [nodeNumbers, List.mem_singleton] at hnumber
      rw [hnumber]
      exact isLiteral_tagIn hnode (Or.inr (Or.inl rfl)) _
  | groupField =>
      rw [nodeNumbers, List.mem_cons] at hnumber
      rcases hnumber with rfl | hnumber
      · exact isLiteral_tagIn hnode (Or.inr (Or.inr rfl)) _
      · exact hchildren _ number hnumber
  | oneof =>
      rcases List.mem_map.mp hnumber with ⟨member, hmember, rfl⟩
      rcases numbered_of_mem_memberNodes hnode hmember with ⟨hnumbered, hrule⟩
      exact isLiteral_tagIn hnumbered (Or.inl hrule) _
  | enumBlock =>
      rcases List.mem_map.mp hnumber with ⟨value, hvalue, rfl⟩
      rcases numbered_of_mem_valueNodes hnode hvalue with ⟨hnumbered, hrule⟩
      exact isLiteral_valueIn hnumbered hrule _
  | _ =>
      rw [nodeNumbers] at hnumber
      · contradiction
      all_goals simp

/-- The numbers of the nodes of a body are literals. -/
theorem isLiteral_of_mem_bodyNumbers {nodes : List (Node Rule)}
    (hnodes : ∀ node ∈ nodes, node.Everywhere Numbered) (scope : String) :
    ∀ number ∈ bodyNumbers scope nodes, IsLiteral number.literal := by
  induction nodes using nodes_induction generalizing scope with
  | nil =>
      rw [bodyNumbers]
      simp
  | cons node rest hchildren hrest =>
      rcases List.forall_mem_cons.mp hnodes with ⟨hnode, hnodes⟩
      rw [bodyNumbers, List.forall_mem_append]
      exact ⟨isLiteral_of_mem_nodeNumbers hnode (hchildren hnode.child), hrest hnodes scope⟩

/-- The nodes of the definitions in a numbered tree are numbered. -/
theorem numbered_of_mem_definitionNodes {root : Node Rule} (hroot : root.Everywhere Numbered) :
    ∀ node ∈ definitionNodes root, node.Everywhere Numbered := by
  intro node hnode
  rcases List.mem_flatMap.mp hnode with ⟨outer, houter, hnode⟩
  rcases List.mem_flatMap.mp houter with ⟨body, hbody, houter⟩
  have hbody := hroot.child body (List.mem_filter.mp hbody).1
  exact (hbody.child outer (List.mem_filter.mp houter).1).child node hnode

/-- The numbers in the tree over a text are literals. -/
theorem isLiteral_of_mem_writtenNumbers {text : List Char} {root : Node Rule}
    (h : schemaGrammar.parse .proto text = .ok root) :
    ∀ number ∈ writtenNumbers root, IsLiteral number.literal := by
  intro number hnumber
  rcases List.mem_flatMap.mp hnumber with ⟨node, hmem, hnumber⟩
  have hnode := numbered_of_mem_definitionNodes (numbered_of_parse h) node hmem
  unfold definitionNumbers at hnumber
  split at hnumber
  · exact isLiteral_of_mem_nodeNumbers hnode (isLiteral_of_mem_bodyNumbers hnode.child) _ hnumber
  · exact isLiteral_of_mem_nodeNumbers hnode (isLiteral_of_mem_bodyNumbers hnode.child) _ hnumber
  · contradiction

end Source
end ElmBinding
