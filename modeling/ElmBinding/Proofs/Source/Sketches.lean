import ElmBinding.Proofs.Schema.Stripping
import ElmBinding.Proofs.Source.Oneofs
import ElmBinding.Proofs.Source.SideBySide

/-!
# Declarations of sketched trees

What is declared over a tree depends on the rules of its nodes and on the texts of rules without
gaps.  Places, and the texts of other rules, take part in the comments alone.  The dialect of a file
only decides which fields track their presence.

Main results:

- Definition {lit}`Origin.Matches`: origins that declare the same but for comments, and for presence
  if that is not kept.
- Theorem {lit}`declareAll_sketched`: bodies over sketched trees.
- Theorem {lit}`schemaOf_of_sketched`: schemas of trees with the same sketch.
-/

namespace ElmBinding
namespace Source

open Grammar

/-- A tree without its places and without the texts of rules with gaps. -/
def sketched (node : Node Rule) : Node Rule :=
  node.sketch Rule.isGapless

variable (scope : String) (node : Node Rule)

/-! ## Parts of declarations -/

theorem tagOf_sketched (fullName : String) : tagOf fullName (sketched node) = tagOf fullName node :=
  congrArg (fieldNumber fullName) (Node.elim_child?_sketch [] id rfl)

theorem scalar_sketched :
    (((sketched node).child? .scalarType).bind fun word => Scalar.ofKeyword? word.string) =
      (node.child? .scalarType).bind fun word => Scalar.ofKeyword? word.string := by
  have hstring : ((sketched node).child? .scalarType).map Node.string =
      (node.child? .scalarType).map Node.string :=
    Node.string_child?_sketch node rfl
  have hscalar := congrArg (fun found => found.bind Scalar.ofKeyword?) hstring
  rwa [Option.bind_map, Option.bind_map] at hscalar

theorem kindOf_sketched (h : node.rule.isGapless = true) :
    kindOf (sketched node) = kindOf node := by
  rw [kindOf, kindOf, scalar_sketched, sketched, Node.string_sketch h]

theorem kindIn_sketched : kindIn (sketched node) = kindIn node := by
  rw [kindIn, kindIn, sketched, Node.child?_sketch]
  cases hchild : node.child? .typeReference with
  | none => rfl
  | some child => exact kindOf_sketched child (by rw [Node.rule_of_child? hchild]; rfl)

theorem keyScalar_sketched : keyScalar (sketched node) = keyScalar node := by
  rw [keyScalar, keyScalar, sketched, Node.child?_sketch]
  cases node.child? .keyType with
  | none => rfl
  | some key =>
      have hscalar := scalar_sketched key
      simp only [Option.map_some, Option.bind_some]
      rw [← hscalar]
      rfl

theorem groupHead_sketched : groupHead scope (sketched node) = groupHead scope node := by
  have hname : (sketched node).childString .groupName = node.childString .groupName :=
    Node.childString_sketch rfl
  simp only [groupHead, hname]

theorem packageOf_sketched : packageOf (sketched node) = packageOf node := by
  rw [packageOf, packageOf, sketched, Node.child?_sketch]
  cases node.child? .packageStatement with
  | none => rfl
  | some statement =>
      rw [Option.map_some, Option.bind_some, Option.bind_some, Node.child?_sketch]
      cases statement.child? .packageName with
      | none => rfl
      | some name =>
          rw [Option.map_some, Option.bind_some, Option.bind_some]
          exact Node.string_child?_sketch name rfl

/-! ## Declarations -/

/-- Two origins that declare the same but for comments, and for presence if that is not kept. -/
structure Origin.Matches (tracking : Bool) (origin origin' : Origin) : Prop where
  package : origin.package = origin'.package
  dialect : tracking = true → origin.dialect = origin'.dialect

section Matching

variable {tracking : Bool} {origin origin' : Origin} (hmatch : origin.Matches tracking origin')

include hmatch

/-- The field over a sketched node. -/
theorem fieldOf_sketched :
    (fieldOf origin scope (sketched node)).map (Field.stripped tracking) =
      (fieldOf origin' scope node).map (Field.stripped tracking) := by
  have hname : (sketched node).childString .fieldName = node.childString .fieldName :=
    Node.childString_sketch rfl
  have hmodifier : (sketched node).childString .fieldModifier = node.childString .fieldModifier :=
    Node.childString_sketch rfl
  simp only [fieldOf, hname, hmodifier, tagOf_sketched, kindIn_sketched, map_bind]
  congr 1
  funext number
  cases tracking with
  | false => rfl
  | true => rw [hmatch.dialect rfl]; rfl

/-- The map field over a sketched node, and its entry message. -/
theorem mapFieldOf_sketched :
    (mapFieldOf origin scope (sketched node)).map
        (Prod.map (Field.stripped tracking) (Message.stripped tracking)) =
      (mapFieldOf origin' scope node).map
        (Prod.map (Field.stripped tracking) (Message.stripped tracking)) := by
  have hname : (sketched node).childString .fieldName = node.childString .fieldName :=
    Node.childString_sketch rfl
  simp only [mapFieldOf, hname, tagOf_sketched, kindIn_sketched, keyScalar_sketched, map_bind,
    hmatch.package]
  rfl

/-- The field of a group over a sketched node. -/
theorem groupFieldOf_sketched :
    (groupFieldOf origin scope (sketched node)).map (Field.stripped tracking) =
      (groupFieldOf origin' scope node).map (Field.stripped tracking) := by
  have hname : (sketched node).childString .groupName = node.childString .groupName :=
    Node.childString_sketch rfl
  have hmodifier : (sketched node).childString .fieldModifier = node.childString .fieldModifier :=
    Node.childString_sketch rfl
  simp only [groupFieldOf, hname, hmodifier, tagOf_sketched, map_bind, hmatch.package]
  rfl

end Matching

/-- The value of an enumeration over a sketched node. -/
theorem enumValueOf_sketched (origin origin' : Origin) :
    (enumValueOf origin scope (sketched node)).map EnumValue.stripped =
      (enumValueOf origin' scope node).map EnumValue.stripped := by
  have hname : (sketched node).childString .enumFieldName = node.childString .enumFieldName :=
    Node.childString_sketch rfl
  have hnumber : ((sketched node).child? .enumFieldValue).elim [] Node.text =
      (node.child? .enumFieldValue).elim [] Node.text :=
    Node.elim_child?_sketch [] id rfl
  simp only [enumValueOf, hname, hnumber]
  split <;> rfl

/-- The children of a rule of a sketched node. -/
theorem childrenOf_sketched (rule : Rule) :
    (sketched node).childrenOf rule = (node.childrenOf rule).map sketched :=
  Node.childrenOf_sketch Rule.isGapless node rule

/-- The children of a rule of several sketched nodes. -/
theorem flatMap_childrenOf_sketched (rule : Rule) (nodes : List (Node Rule)) :
    (nodes.map sketched).flatMap (fun node => node.childrenOf rule) =
      (nodes.flatMap fun node => node.childrenOf rule).map sketched :=
  Node.flatMap_childrenOf_sketch Rule.isGapless rule nodes

/-- The enumeration over a sketched node. -/
theorem enumOf_sketched (origin origin' : Origin) :
    (enumOf origin scope (sketched node)).map Enumeration.stripped =
      (enumOf origin' scope node).map Enumeration.stripped := by
  have hname : (sketched node).childString .enumName = node.childString .enumName :=
    Node.childString_sketch rfl
  simp only [enumOf, hname, childrenOf_sketched, flatMap_childrenOf_sketched]
  refine map_bind_congr (mapM_map_congr (fun value => enumValueOf_sketched scope value _ _) _) ?_
  intro values values' hvalues
  simp only [pure, Except.pure, Except.map, Enumeration.stripped, hvalues]

/-- The method over a sketched node. -/
theorem methodOf_sketched (origin origin' : Origin) (service : String) :
    (methodOf origin service (sketched node)).stripped =
      (methodOf origin' service node).stripped := by
  have hname : (sketched node).childString .rpcName = node.childString .rpcName :=
    Node.childString_sketch rfl
  have htypes : ((sketched node).childrenOf .messageType).map Node.string =
      (node.childrenOf .messageType).map Node.string := by
    rw [childrenOf_sketched, List.map_map, List.map_inj_left]
    intro child hmem
    have hkept : child.rule.isGapless = true := by
      rw [Node.rule_of_mem_childrenOf hmem]
      rfl
    exact Node.string_sketch hkept
  have hstream : ∀ rule, ((sketched node).child? rule).isSome = (node.child? rule).isSome := by
    intro rule
    rw [sketched, Node.child?_sketch, Option.isSome_map]
  simp only [methodOf, hname, htypes, hstream]
  rfl

/-- The service over a sketched node. -/
theorem serviceOf_sketched {origin origin' : Origin} (hpackage : origin.package = origin'.package) :
    (serviceOf origin (sketched node)).stripped = (serviceOf origin' node).stripped := by
  have hname : (sketched node).childString .serviceName = node.childString .serviceName :=
    Node.childString_sketch rfl
  simp only [serviceOf, hname, hpackage, childrenOf_sketched, Service.stripped, List.map_map]
  congr 2
  funext method
  exact methodOf_sketched method origin origin' _

/-! ## Messages -/

variable {tracking : Bool} {message message' : Message}

/-- A stripped message with one more field. -/
theorem stripped_addField (field : Field) :
    (message.addField field).stripped tracking =
      (message.stripped tracking).addField (field.stripped tracking) := by
  simp [Message.addField, Message.stripped_eq]

/-- A stripped message with one more message inside. -/
theorem stripped_addMessage (nested : Message) :
    (message.addMessage nested).stripped tracking =
      (message.stripped tracking).addMessage (nested.stripped tracking) := by
  rw [Message.stripped_eq, Message.stripped_eq tracking message]
  simp [Message.addMessage]

/-- A stripped message with one more enumeration inside. -/
theorem stripped_addEnum (enumeration : Enumeration) :
    (message.addEnum enumeration).stripped tracking =
      (message.stripped tracking).addEnum enumeration.stripped := by
  simp [Message.addEnum, Message.stripped_eq]

/-- The full name of a stripped message. -/
theorem fullName_stripped : (message.stripped tracking).fullName = message.fullName := by
  rw [Message.stripped_eq]

/-- Optional fields are put into oneofs with their comments or without. -/
theorem attachOneofs_stripped (next : Nat) (fields : List Field) :
    attachOneofs next (fields.map (Field.stripped true)) =
      (attachOneofs next fields).map (Field.stripped true) := by
  induction fields generalizing next with
  | nil => rfl
  | cons field rest ih =>
      have htracks : (field.stripped true).tracksPresence = field.tracksPresence := Bool.true_and _
      rw [List.map_cons, attachOneofs, attachOneofs, htracks]
      split
      · rw [ih]
        rfl
      · rw [ih]
        rfl

/-- Oneofs for optional fields, with comments or without; there are none without presence. -/
theorem stripped_withSyntheticOneofs :
    message.withSyntheticOneofs.stripped tracking =
      if tracking then (message.stripped tracking).withSyntheticOneofs
      else message.stripped tracking := by
  cases tracking with
  | false =>
      have hfields := @map_attachOneofs _ (Field.stripped false) (fun _ _ => rfl)
        message.oneofs.length message.fields
      rw [if_neg (by decide), Message.stripped_eq, Message.stripped_eq]
      simp only [Message.withSyntheticOneofs, hfields]
      rfl
  | true =>
      have hsynthetic : (message.fields.filter Field.tracksPresence).map
          (Oneof.stripped ∘ syntheticOneof message.fullName) =
            ((message.fields.map (Field.stripped true)).filter Field.tracksPresence).map
              (syntheticOneof message.fullName) := by
        rw [List.filter_map, List.map_map]
        rfl
      rw [if_pos rfl, Message.stripped_eq, Message.stripped_eq]
      simp only [Message.withSyntheticOneofs, if_true, List.length_map, attachOneofs_stripped,
        List.map_append, List.map_map, hsynthetic]

/-- A stripped message with one more oneof and its members. -/
theorem stripped_addOneof (fields : List Field) (oneof : Oneof) :
    Message.stripped tracking
        { message with
          fields := message.fields ++ fields.map (memberOf message.oneofs.length)
          oneofs := message.oneofs ++ [oneof] } =
      { message.stripped tracking with
        fields := (message.stripped tracking).fields ++
          ((fields.map (Field.stripped tracking)).map
            (memberOf (message.stripped tracking).oneofs.length)).map (Field.stripped tracking)
        oneofs :=
          if tracking then (message.stripped tracking).oneofs ++ [oneof.stripped] else [] } := by
  cases tracking with
  | false => simp [Message.stripped_eq, Function.comp_def, memberOf, Field.stripped]
  | true => simp [Message.stripped_eq, Function.comp_def, memberOf, Field.stripped]

section Bodies

variable {origin origin' : Origin} (hmatch : origin.Matches tracking origin')

/-- Stripped messages that are the same have the same full name. -/
theorem fullName_eq_of_stripped
    (hmessage : message.stripped tracking = message'.stripped tracking) :
    message.fullName = message'.fullName := by
  rw [← @fullName_stripped tracking message, hmessage, fullName_stripped]

include hmatch

/-- A message with the oneof over a sketched node. -/
theorem declareOneof_sketched
    (hmessage : message.stripped tracking = message'.stripped tracking) :
    (declareOneof origin message (sketched node)).map (Message.stripped tracking) =
      (declareOneof origin' message' node).map (Message.stripped tracking) := by
  have hname : (sketched node).childString .oneofName = node.childString .oneofName :=
    Node.childString_sketch rfl
  have hfull := fullName_eq_of_stripped hmessage
  have hfield : ∀ member, (fieldOf origin message.fullName (sketched member)).map
      (Field.stripped tracking) =
        (fieldOf origin' message'.fullName member).map (Field.stripped tracking) := by
    rw [hfull]
    exact fun member => fieldOf_sketched message'.fullName member hmatch
  simp only [declareOneof, hname, childrenOf_sketched, flatMap_childrenOf_sketched]
  refine map_bind_congr (mapM_map_congr hfield _) ?_
  intro fields fields' hfields
  refine congrArg Except.ok ?_
  rw [stripped_addOneof, stripped_addOneof, hmessage, hfields, hfull]
  rfl

omit hmatch in
/-- The head of the message over a sketched node. -/
theorem messageHead_sketched :
    (messageHead origin scope (sketched node)).stripped tracking =
      (messageHead origin' scope node).stripped tracking := by
  have hname : (sketched node).childString .messageName = node.childString .messageName :=
    Node.childString_sketch rfl
  simp only [messageHead, hname, Message.stripped_eq]

/-- The body over sketched nodes. -/
theorem declareAll_sketched (nodes : List (Node Rule))
    (hmessage : message.stripped tracking = message'.stripped tracking) :
    (declareAll origin message (nodes.map sketched)).map (Message.stripped tracking) =
      (declareAll origin' message' nodes).map (Message.stripped tracking) := by
  induction nodes using nodes_induction generalizing message message' with
  | nil => exact congrArg Except.ok hmessage
  | cons node rest hchildren hrest =>
      have hnode : (declare origin message (sketched node)).map (Message.stripped tracking) =
          (declare origin' message' node).map (Message.stripped tracking) := by
        have hfull := fullName_eq_of_stripped hmessage
        rcases node with ⟨rule, start, text, children⟩
        have hsketched : sketched ⟨rule, start, text, children⟩ =
            ⟨rule, 0, if rule.isGapless then text else [], children.map sketched⟩ := by
          rw [sketched, Node.sketch, sketches_eq_map]
          rfl
        cases rule with
        | messageBody | messageElement =>
            rw [hsketched, declare, declare]
            exact hchildren hmessage
        | field =>
            rw [hsketched, declare, declare, ← hsketched, hfull]
            refine map_map_congr (fieldOf_sketched _ _ hmatch) fun hfield => ?_
            rw [stripped_addField, stripped_addField, hmessage, hfield]
        | mapField =>
            rw [hsketched, declare, declare, ← hsketched, hfull]
            refine map_bind_congr (mapFieldOf_sketched _ _ hmatch) fun {made made'} hmade => ?_
            rcases Prod.mk.inj hmade with ⟨hfield, hentry⟩
            refine congrArg Except.ok ?_
            rw [stripped_addField, stripped_addField, stripped_addMessage, stripped_addMessage,
              hmessage, hfield, hentry]
        | groupField =>
            have hhead : (groupHead message.fullName
                (sketched ⟨.groupField, start, text, children⟩)).stripped tracking =
                  (groupHead message'.fullName ⟨.groupField, start, text, children⟩).stripped
                    tracking := by
              rw [groupHead_sketched, hfull]
            rw [hsketched, declare, declare, ← hsketched]
            rw [hfull] at hhead ⊢
            refine map_bind_congr (groupFieldOf_sketched _ _ hmatch) fun hfield => ?_
            refine map_bind_congr (hchildren hhead) fun hgroup => ?_
            refine congrArg Except.ok ?_
            rw [stripped_addField, stripped_addField, stripped_addMessage, stripped_addMessage,
              stripped_withSyntheticOneofs, stripped_withSyntheticOneofs, hmessage, hfield, hgroup]
        | oneof =>
            rw [hsketched, declare, declare, ← hsketched]
            exact declareOneof_sketched _ hmatch hmessage
        | enumBlock =>
            rw [hsketched, declare, declare, ← hsketched, hfull]
            refine map_map_congr (enumOf_sketched _ _ _ _) fun henumeration => ?_
            rw [stripped_addEnum, stripped_addEnum, hmessage, henumeration]
        | messageBlock =>
            rw [hsketched, declare, declare, ← hsketched, hfull]
            refine map_bind_congr (hchildren (messageHead_sketched _ _)) fun hnested => ?_
            refine congrArg Except.ok ?_
            rw [stripped_addMessage, stripped_addMessage, stripped_withSyntheticOneofs,
              stripped_withSyntheticOneofs, hmessage, hnested]
        | _ =>
            rw [hsketched]
            unfold declare
            exact congrArg Except.ok hmessage
      rw [List.map_cons, declareAll, declareAll]
      exact map_bind_congr hnode hrest

/-- The message over a sketched node. -/
theorem messageOf_sketched :
    (messageOf origin scope (sketched node)).map (Message.stripped tracking) =
      (messageOf origin' scope node).map (Message.stripped tracking) := by
  have hchildren : (sketched node).children = node.children.map sketched :=
    Node.children_sketch Rule.isGapless node
  rw [messageOf, messageOf, hchildren]
  refine map_map_congr (declareAll_sketched hmatch _ (messageHead_sketched scope node)) ?_
  intro message message' hmessage
  rw [stripped_withSyntheticOneofs, stripped_withSyntheticOneofs, hmessage]

/-- A schema with the definition over a sketched node. -/
theorem define_sketched {schema schema' : Schema}
    (hschema : schema.stripped tracking = schema'.stripped tracking) :
    (define origin schema (sketched node)).map (Schema.stripped tracking) =
      (define origin' schema' node).map (Schema.stripped tracking) := by
  have hrule : (sketched node).rule = node.rule := Node.rule_sketch Rule.isGapless node
  simp only [Schema.stripped, Schema.mk.injEq] at hschema
  unfold define
  rw [hrule, hmatch.package]
  split
  · refine map_bind_congr (messageOf_sketched _ _ hmatch) fun hmessage => ?_
    simp [pure, Except.pure, Except.map, Schema.stripped, hschema, hmessage]
  · refine map_bind_congr (enumOf_sketched _ _ _ _) fun henumeration => ?_
    simp [pure, Except.pure, Except.map, Schema.stripped, hschema, henumeration]
  · have hservice := serviceOf_sketched node hmatch.package
    simp [Except.map, Schema.stripped, hschema, hservice]
  · simp [Except.map, Schema.stripped, hschema]

end Bodies

/-! ## Schemas -/

/-- The schema of the tree over a source text, if it were written in a dialect. -/
def schemaIn (dialect : Dialect) (fileName : Option String) (source : List Char)
    (root : Node Rule) : Except SchemaError Schema :=
  let bodies := root.childrenOf .protoBody
  let package := (bodies.head?).bind packageOf
  let origin : Origin := ⟨source, dialect, package.getD ""⟩
  let definitions := (bodies.flatMap fun body =>
    body.childrenOf .topLevelDefinition).flatMap Node.children
  definitions.foldlM (define origin) { fileName, dialect, package }

/-- The schema of a sketched tree, in a dialect that differs at most if presence is not kept. -/
theorem schemaIn_sketched {tracking : Bool} {dialect dialect' : Dialect}
    (hdialect : tracking = true → dialect = dialect') (fileName : Option String)
    (source source' : List Char) (root : Node Rule) :
    (schemaIn dialect fileName source (sketched root)).map (Schema.stripped tracking) =
      (schemaIn dialect' fileName source' root).map (Schema.stripped tracking) := by
  have hpackage : packageOf ∘ sketched = packageOf := funext packageOf_sketched
  have hchildren : ∀ nodes : List (Node Rule), (nodes.map sketched).flatMap Node.children =
      (nodes.flatMap Node.children).map sketched := by
    intro nodes
    rw [List.flatMap_map, List.map_flatMap]
    congr 1
    funext node
    exact Node.children_sketch Rule.isGapless node
  simp only [schemaIn, childrenOf_sketched, flatMap_childrenOf_sketched, hchildren, List.head?_map,
    Option.bind_map, hpackage]
  have hmatch : ∀ package : String, Origin.Matches tracking ⟨source, dialect, package⟩
      ⟨source', dialect', package⟩ := fun _ => ⟨rfl, hdialect⟩
  refine foldlM_map_congr (fun node hschema => define_sketched node (hmatch _) hschema) _ ?_
  cases tracking with
  | false => rfl
  | true => rw [hdialect rfl]

/-- Trees with the same sketch have the same schema, but for comments and presence. -/
theorem schemaOf_of_sketched {tracking : Bool} {root root' : Node Rule}
    (hsketched : sketched root = sketched root')
    (hdialect : tracking = true → dialectOf root = dialectOf root') (fileName : Option String)
    (source source' : List Char) :
    (schemaOf fileName source root).map (Schema.stripped tracking) =
      (schemaOf fileName source' root').map (Schema.stripped tracking) := by
  have hsame :=
    @schemaIn_sketched tracking (dialectOf root) _ (fun _ => rfl) fileName [] source root
  have hother := schemaIn_sketched hdialect fileName [] source' root'
  rw [hsketched] at hsame
  exact hsame.symm.trans hother

end Source
end ElmBinding
