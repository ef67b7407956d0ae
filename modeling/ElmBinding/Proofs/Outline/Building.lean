import ElmBinding.Proofs.Outline.Reading
import ElmBinding.Proofs.Schema.Coherence
import ElmBinding.Proofs.Source.Places

/-!
# Schemas of outlines

The tree of an outline declares the schema that the outline stands for, with its references as
they are written in the text.  While a body is read, the fields that track their presence are in
no oneof yet; at its end they move into the synthetic oneofs behind the declared ones.

Main results:

- Definition {lit}`draftFields`: the fields of a body before the move.
- Theorem {lit}`attachOneofs_draftFields`: the fields behind the move are those of the body.
- Theorem {lit}`declareAll_bodyTrees`: what a body declares, at every depth.
- Theorem {lit}`Outline.schemaOf_tree`: the schema that the tree of an outline declares.
-/

namespace ElmBinding
namespace Source

open Grammar

/-! ## Fields before the move into oneofs -/

section Drafts

variable (dialect : Dialect) (spelling : Spelling) (scope : String)

/-- A field of a body that is in no oneof yet. -/
def FieldOutline.draft (label : Label) (outline : FieldOutline) : Field :=
  { outline.field spelling scope with
    cardinality := label.cardinality
    tracksPresence := label.tracksPresence dialect }

/-- A field as a member of the oneof at an index. -/
def FieldOutline.member (index : Nat) (outline : FieldOutline) : Field :=
  { outline.field spelling scope with oneof := some index }

/-- The fields of a body before those that track their presence move into oneofs. -/
def draftFields (index : Nat) : List ElementOutline → List Field
  | [] => []
  | .field label outline :: rest =>
      outline.draft dialect spelling scope label :: draftFields index rest
  | .map _ outline :: rest => outline.mapField spelling scope :: draftFields index rest
  | .oneof _ members :: rest =>
      members.map (FieldOutline.member spelling scope index) ++ draftFields (index + 1) rest
  | .message _ _ :: rest => draftFields index rest

/-- Fields that do not track their presence stay where they are. -/
theorem attachOneofs_append {fields : List Field}
    (h : ∀ field ∈ fields, field.tracksPresence = false) (next : Nat) (rest : List Field) :
    attachOneofs next (fields ++ rest) = fields ++ attachOneofs next rest := by
  induction fields with
  | nil => rfl
  | cons field others ih =>
      rcases List.forall_mem_cons.mp h with ⟨hfield, hothers⟩
      simp [attachOneofs, hfield, ih hothers]

/-- Members of oneofs do not track their presence. -/
theorem tracksPresence_of_mem_map_member {members : List FieldOutline} {index : Nat} {field : Field}
    (h : field ∈ members.map (FieldOutline.member spelling scope index)) :
    field.tracksPresence = false := by
  rcases List.mem_map.mp h with ⟨member, -, rfl⟩
  rfl

/-- The fields of a body are its fields before the move, moved. -/
theorem attachOneofs_draftFields (index next : Nat) (body : List ElementOutline) :
    attachOneofs next (draftFields dialect spelling scope index body) =
      bodyFields dialect spelling scope index next body := by
  induction body using elements_induction generalizing index next with
  | nil => rfl
  | field label outline rest ih =>
      rw [draftFields, bodyFields, attachOneofs, ih, ih]
      cases htracks : label.tracksPresence dialect <;>
        simp [FieldOutline.draft, htracks, FieldOutline.field]
  | map key outline rest ih =>
      rw [draftFields, bodyFields, attachOneofs, ih, ih]
      rfl
  | oneof name members rest ih =>
      rw [draftFields, bodyFields, attachOneofs_append
        (fun _ => tracksPresence_of_mem_map_member spelling scope), ih]
      rfl
  | message name body rest _ ih => rw [draftFields, bodyFields, ih]

/-- The synthetic oneofs of a body stand in for the fields that track their presence. -/
theorem map_syntheticOneof_draftFields (index : Nat) (body : List ElementOutline) :
    ((draftFields dialect spelling scope index body).filter Field.tracksPresence).map
      (syntheticOneof scope) = syntheticOneofs dialect scope body := by
  induction body using elements_induction generalizing index with
  | nil => rfl
  | field label outline rest ih =>
      rw [draftFields, syntheticOneofs, ← ih index]
      cases htracks : label.tracksPresence dialect <;>
        simp [FieldOutline.draft, htracks, FieldOutline.field, syntheticOneof]
  | map key outline rest ih =>
      rw [draftFields, syntheticOneofs, ← ih index]
      · rfl
      · simp
  | oneof name members rest ih =>
      have hnone : (members.map (FieldOutline.member spelling scope index)).filter
          Field.tracksPresence = [] := by
        rw [List.filter_eq_nil_iff]
        intro field hmem
        rw [tracksPresence_of_mem_map_member spelling scope hmem]
        decide
      rw [draftFields, syntheticOneofs, ← ih (index + 1), List.filter_append, hnone]
      · rfl
      · simp
  | message name body rest _ ih =>
      rw [draftFields, syntheticOneofs, ih]
      simp

end Drafts

/-! ## Parts of trees -/

/-- How references are spelled in a text: absolute names, and entries of maps with a package. -/
def writtenSpelling (package : String) : Spelling :=
  ⟨fun fullName => ⟨"." ++ fullName, ""⟩, homeReference package⟩

/-- All trees of items that belong to a rule are kept of that rule. -/
theorem filter_map_tree {ι : Type} (treeOf : ι → Node Rule) (rule : Rule)
    (h : ∀ item, (treeOf item).rule = rule) (items : List ι) :
    (items.map treeOf).filter (fun child => child.rule = rule) = items.map treeOf := by
  rw [List.filter_eq_self]
  intro child hchild
  rcases List.mem_map.mp hchild with ⟨item, -, rfl⟩
  exact decide_eq_true (h item)

/-- The string over a token. -/
theorem string_leaf (rule : Rule) (token : Token) :
    (leaf rule token).string = String.ofList token.chars := rfl

/-- The string over an identifier is the identifier. -/
theorem string_ident (rule : Rule) (ident : Ident) : (leaf rule ident.token).string = ident.name :=
  String.ofList_toList

/-- The string over an absolute name is the name behind a dot. -/
theorem string_absoluteToken (path : DottedName) :
    String.ofList path.absoluteToken.chars = "." ++ path.name := by
  rw [DottedName.name, ← String.ofList_append]
  rfl

/-- The text over one token. -/
theorem joined_singleton (token : Token) : joined [token] = token.chars := by
  rw [joined, behind_nil, List.append_nil]

/-- The keyword over a scalar type tells the type. -/
theorem ofKeyword?_scalarLeaf (type : Scalar) :
    Scalar.ofKeyword? (scalarLeaf type).string = some type := by
  rw [scalarLeaf, string_leaf]
  exact (congrArg Scalar.ofKeyword? String.ofList_toList).trans (Scalar.ofKeyword?_keyword type)

/-- The kind over a type is the kind that the type stands for. -/
theorem kindOf_tree (package : String) (type : TypeOutline) :
    kindOf type.tree = type.kind (writtenSpelling package) := by
  cases type with
  | scalar type =>
      have hchild : (TypeOutline.scalar type).tree.child? .scalarType = some (scalarLeaf type) :=
        rfl
      rw [kindOf, hchild, Option.bind_some, ofKeyword?_scalarLeaf]
      rfl
  | message path =>
      have hchild : (TypeOutline.message path).tree.child? .scalarType = none := rfl
      have hstring : (TypeOutline.message path).tree.string = "." ++ path.name := by
        rw [← string_absoluteToken, ← joined_singleton]
        rfl
      rw [kindOf, hchild, Option.bind_none, hstring]
      rfl

/-- The tag over a number is the number. -/
theorem fieldNumber_digitsOf (fullName : String) (number : UInt32) :
    fieldNumber fullName (joined [numberToken number]) = .ok number.toNat := by
  have hlt := number.toNat_lt
  have hvalue : integerValue (numberToken number).chars = number.toNat :=
    integerValue_digitsOf number
  have hrange : 0 ≤ (number.toNat : Int) ∧ (number.toNat : Int) ≤ 0xFFFFFFFF := by omega
  rw [joined_singleton, fieldNumber, hvalue, if_pos hrange, Int.toNat_natCast]

/-- The word of a label, empty if there is none. -/
def Label.modifier (label : Label) : String :=
  label.tokens.head?.elim "" fun token => String.ofList token.chars

/-- The word of a label stands for the cardinality of the label. -/
theorem Label.cardinalityOf_modifier (label : Label) :
    cardinalityOf label.modifier = label.cardinality := by
  cases label <;> decide

/-- The word of a label is the one of optional fields if the label is. -/
theorem Label.modifier_eq_optional (label : Label) :
    decide (label.modifier = "optional") = decide (label = .optional) := by
  cases label <;> decide

/-! ## Bodies -/

/-- A message with what a body declares, before its fields move into oneofs. -/
def declaring (origin : Origin) (message : Message) (body : List ElementOutline) : Message :=
  { message with
    fields := message.fields ++ draftFields origin.dialect (writtenSpelling origin.package)
      message.fullName message.oneofs.length body
    oneofs := message.oneofs ++ declaredOneofs message.fullName body
    messages := message.messages ++
      bodyMessages origin.dialect (writtenSpelling origin.package) message.fullName body }

variable {origin : Origin}

/-- What a body of one element declares and then others, the whole body declares. -/
theorem declaring_cons (message : Message) (element : ElementOutline)
    (rest : List ElementOutline) :
    declaring origin (declaring origin message [element]) rest =
      declaring origin message (element :: rest) := by
  cases element <;>
    simp [declaring, draftFields, declaredOneofs, bodyMessages]

/-- The tree of a message declares what its body does. -/
theorem declareAll_messageTree (message : Message) (name : Ident) (body : List ElementOutline) :
    declareAll origin message (ElementOutline.message name body).tree.children =
      declareAll origin message (bodyTrees body) := by
  have hchildren : ∀ tokens, declareAll origin message
      [leaf .messageName name.token, branch .messageBody tokens (bodyTrees body)] =
      declareAll origin message (bodyTrees body) := by
    intro tokens
    change declareAll origin message [branch .messageBody tokens (bodyTrees body)] = _
    rw [declareAll, branch, declare]
    simp only [declareAll]
    exact bind_pure _
  rw [ElementOutline.tree]
  exact hchildren _

/-- A body declares what its first element declares and then what the others do. -/
theorem declareAll_bodyTrees_cons {message : Message} {element : ElementOutline}
    {rest : List ElementOutline}
    (helement : declare origin message element.tree = .ok (declaring origin message [element]))
    (hrest : ∀ message, declareAll origin message (bodyTrees rest) =
      .ok (declaring origin message rest)) :
    declareAll origin message (bodyTrees (element :: rest)) =
      .ok (declaring origin message (element :: rest)) := by
  rw [bodyTrees, declareAll, branch, declare, ← declaring_cons]
  simp only [declareAll, helement]
  exact hrest _

/-- A message is finished by the move of its fields into oneofs. -/
theorem messages_message (scope : String) (name : Ident) (body : List ElementOutline) :
    (ElementOutline.message name body).messages origin.dialect (writtenSpelling origin.package)
        scope =
      [(declaring origin { name := name.name, fullName := qualify scope name.name }
        body).withSyntheticOneofs] := by
  simp only [ElementOutline.messages, declaring, Message.withSyntheticOneofs, List.nil_append,
    List.length_nil, attachOneofs_draftFields, map_syntheticOneof_draftFields]

/-- In a body, the tree of a message declares the message inside another one. -/
theorem declare_messageTree (message : Message) (name : Ident) (body : List ElementOutline) :
    declare origin message (ElementOutline.message name body).tree =
      (messageOf origin message.fullName (ElementOutline.message name body).tree).map
        message.addMessage := by
  rw [messageOf, ElementOutline.tree, branch, declare, Node.children]
  cases declareAll origin _ _ <;> rfl

section Plain

variable (hplain : origin.Plain)

include hplain

/-! ## Elements -/

/-- The tree of a field declares the field. -/
theorem fieldOf_tree (scope : String) (label : Label) (field : FieldOutline) :
    fieldOf origin scope (field.tree label) =
      .ok (field.draft origin.dialect (writtenSpelling origin.package) scope label) := by
  have hname : (field.tree label).childString .fieldName = field.name.name := by
    rw [← string_ident .fieldName]
    cases label <;> rfl
  have hmodifier : (field.tree label).childString .fieldModifier = label.modifier := by
    cases label <;> rfl
  have htag : ∀ fullName, tagOf fullName (field.tree label) = .ok field.number.toNat := by
    intro fullName
    rw [← fieldNumber_digitsOf fullName]
    cases label <;> rfl
  have hkind : kindIn (field.tree label) = field.type.kind (writtenSpelling origin.package) := by
    rw [← kindOf_tree]
    cases label <;> rfl
  rw [fieldOf, hname, htag, hkind, hplain, hmodifier, label.cardinalityOf_modifier,
    label.modifier_eq_optional]
  rfl

/-- The tree of a map field declares the field and its entry. -/
theorem mapFieldOf_tree (scope : String) (key : Scalar) (field : FieldOutline) :
    mapFieldOf origin scope (mapTree key field) =
      .ok (field.mapField (writtenSpelling origin.package) scope,
        entryMessage scope (entryName field.name.name) key
          (field.type.kind (writtenSpelling origin.package))) := by
  have hname : (mapTree key field).childString .fieldName = field.name.name :=
    string_ident .fieldName field.name
  have hkey : keyScalar (mapTree key field) = key := by
    have hbranch : keyScalar (mapTree key field) =
        (Scalar.ofKeyword? (scalarLeaf key).string).getD .string := rfl
    rw [hbranch, ofKeyword?_scalarLeaf, Option.getD_some]
  have htag : ∀ fullName, tagOf fullName (mapTree key field) = .ok field.number.toNat :=
    fun fullName => fieldNumber_digitsOf fullName field.number
  have hkind : kindIn (mapTree key field) = field.type.kind (writtenSpelling origin.package) :=
    kindOf_tree origin.package field.type
  rw [mapFieldOf, hname, htag, hkind, hkey, hplain]
  rfl

/-- The tree of a oneof declares the oneof and its members. -/
theorem declareOneof_tree (message : Message) (name : Ident) (members : List FieldOutline) :
    declareOneof origin message (oneofTree name members) =
      .ok { message with
        fields := message.fields ++ members.map (FieldOutline.member
          (writtenSpelling origin.package) message.fullName message.oneofs.length)
        oneofs := message.oneofs ++
          [{ name := name.name, fullName := qualify message.fullName name.name }] } := by
  have hname : (oneofTree name members).childString .oneofName = name.name :=
    string_ident .oneofName name
  have hnodes : ((oneofTree name members).childrenOf .oneofField).flatMap
      (fun member => member.childrenOf .field) = members.map (FieldOutline.tree .plain) := by
    have hmembers : (oneofTree name members).childrenOf .oneofField = members.map memberTree :=
      filter_map_tree memberTree .oneofField (fun _ => rfl) members
    rw [hmembers, List.flatMap_map, List.map_eq_flatMap]
    rfl
  have hfields : (members.map (FieldOutline.tree .plain)).mapM
        (fieldOf origin message.fullName) =
      .ok (members.map (FieldOutline.draft origin.dialect (writtenSpelling origin.package)
        message.fullName .plain)) := by
    rw [List.mapM_map]
    exact mapM_eq_ok_map fun member _ => fieldOf_tree hplain message.fullName .plain member
  rw [declareOneof, hname, hnodes, hfields, hplain]
  simp only [bind, Except.bind, pure, Except.pure, List.map_map]
  rfl

/-- The head of a message over its tree. -/
theorem messageHead_tree (scope : String) (name : Ident) (body : List ElementOutline) :
    messageHead origin scope (ElementOutline.message name body).tree =
      { name := name.name, fullName := qualify scope name.name } := by
  have hname : (ElementOutline.message name body).tree.childString .messageName = name.name := by
    rw [ElementOutline.tree]
    exact string_ident .messageName name
  rw [messageHead, hname, hplain]

/-- The tree of a message declares the message if its body declares what it should. -/
theorem messageOf_tree {body : List ElementOutline}
    (hbody : ∀ message, declareAll origin message (bodyTrees body) =
      .ok (declaring origin message body)) (scope : String) (name : Ident) :
    ∃ message, messageOf origin scope (ElementOutline.message name body).tree = .ok message ∧
      (ElementOutline.message name body).messages origin.dialect (writtenSpelling origin.package)
        scope = [message] := by
  refine ⟨_, ?_, messages_message scope name body⟩
  rw [messageOf, messageHead_tree hplain, declareAll_messageTree, hbody]
  rfl

/-- A body declares what its elements declare, at every depth. -/
theorem declareAll_bodyTrees (message : Message) (body : List ElementOutline) :
    declareAll origin message (bodyTrees body) = .ok (declaring origin message body) := by
  -- A body inside begins with a head of its own, and elements extend the message around them.
  induction body using elements_induction generalizing message with
  | nil =>
      rw [bodyTrees, declareAll]
      simp only [declaring, draftFields, declaredOneofs, bodyMessages, List.append_nil]
      cases message
      rfl
  | field label field rest ih =>
      refine declareAll_bodyTrees_cons ?_ ih
      have hfield := fieldOf_tree hplain message.fullName label field
      rw [ElementOutline.tree]
      rw [FieldOutline.tree, branch] at hfield ⊢
      rw [declare, hfield]
      simp [declaring, draftFields, declaredOneofs, bodyMessages, ElementOutline.messages,
        Message.addField, Except.map]
  | map key field rest ih =>
      refine declareAll_bodyTrees_cons ?_ ih
      have hfield := mapFieldOf_tree hplain message.fullName key field
      rw [ElementOutline.tree]
      rw [mapTree, branch] at hfield ⊢
      rw [declare, hfield]
      simp [declaring, draftFields, declaredOneofs, bodyMessages, ElementOutline.messages,
        Message.addField, Message.addMessage, bind, Except.bind, pure, Except.pure]
  | oneof name members rest ih =>
      refine declareAll_bodyTrees_cons ?_ ih
      have hmessage := declareOneof_tree hplain message name members
      rw [ElementOutline.tree]
      rw [oneofTree, branch] at hmessage ⊢
      rw [declare, hmessage]
      simp [declaring, draftFields, declaredOneofs, bodyMessages, ElementOutline.messages]
  | message name body rest hbody ih =>
      refine declareAll_bodyTrees_cons ?_ ih
      rcases messageOf_tree hplain hbody message.fullName name with ⟨nested, hnested, hmessages⟩
      rw [declare_messageTree, hnested]
      simp [declaring, draftFields, declaredOneofs, bodyMessages, hmessages, Message.addMessage,
        Except.map]

/-! ## Definitions -/

/-- The tree of a method declares the method. -/
theorem methodOf_tree (service : String) (method : MethodOutline) :
    methodOf origin service method.tree =
      method.method (writtenSpelling origin.package) service := by
  have hname : method.tree.childString .rpcName = method.name.name :=
    string_ident .rpcName method.name
  have htypes : (method.tree.childrenOf .messageType).map Node.string =
      ["." ++ method.input.name, "." ++ method.output.name] := by
    rw [← string_absoluteToken, ← string_absoluteToken]
    rcases method with ⟨name, client, input, server, output⟩
    cases client <;> cases server <;> rfl
  have hclient : (method.tree.child? .clientStream).isSome = method.clientStreaming := by
    rcases method with ⟨name, client, input, server, output⟩
    cases client <;> cases server <;> rfl
  have hserver : (method.tree.child? .serverStream).isSome = method.serverStreaming := by
    rcases method with ⟨name, client, input, server, output⟩
    cases client <;> cases server <;> rfl
  simp only [methodOf, hname, htypes, hclient, hserver, hplain _]
  rfl

/-- The tree of a service declares the service. -/
theorem serviceOf_tree (name : Ident) (methods : List MethodOutline) (tokens : List Token) :
    serviceOf origin (branch .serviceBlock tokens
        (leaf .serviceName name.token :: methods.map MethodOutline.tree)) =
      { name := name.name, fullName := qualify origin.package name.name
        methods := methods.map (MethodOutline.method (writtenSpelling origin.package)
          (qualify origin.package name.name)) } := by
  have hname : (branch .serviceBlock tokens (leaf .serviceName name.token ::
      methods.map MethodOutline.tree)).childString .serviceName = name.name :=
    string_ident .serviceName name
  have hmethods : (branch .serviceBlock tokens (leaf .serviceName name.token ::
      methods.map MethodOutline.tree)).childrenOf .rpc = methods.map MethodOutline.tree :=
    filter_map_tree MethodOutline.tree .rpc (fun _ => rfl) methods
  have heach : methodOf origin (qualify origin.package name.name) ∘ MethodOutline.tree =
      MethodOutline.method (writtenSpelling origin.package) (qualify origin.package name.name) :=
    funext (methodOf_tree hplain _)
  rw [serviceOf, hname, hmethods, List.map_map, heach, hplain]

/-- The tree inside that of a definition adds what the definition stands for to a schema. -/
theorem define_tree (schema : Schema) (definition : DefinitionOutline) :
    definition.tree.children.foldlM (define origin) schema =
      .ok { schema with
        messages := schema.messages ++
          definition.messages origin.dialect (writtenSpelling origin.package) origin.package
        services := schema.services ++
          definition.services (writtenSpelling origin.package) origin.package } := by
  cases definition with
  | message name body =>
      rcases messageOf_tree hplain (fun message => declareAll_bodyTrees hplain message body)
        origin.package name with ⟨message, hmessage, hmessages⟩
      have hchildren : (DefinitionOutline.message name body).tree.children =
          [(ElementOutline.message name body).tree] := rfl
      have hrule : (ElementOutline.message name body).tree.rule = .messageBlock := by
        rw [ElementOutline.tree, branch, Node.rule]
      rw [hchildren, List.foldlM_cons, define, hrule, hmessage]
      simp [DefinitionOutline.messages, DefinitionOutline.services, hmessages, bind, Except.bind,
        pure, Except.pure]
  | service name methods =>
      have hservice := serviceOf_tree hplain name methods
        (DefinitionOutline.service name methods).tokens
      simp only [DefinitionOutline.messages, DefinitionOutline.services, List.append_nil,
        ← hservice]
      rfl

/-- A schema with what definitions stand for. -/
theorem foldlM_define_trees (definitions : List DefinitionOutline) (schema : Schema) :
    ((definitions.map DefinitionOutline.tree).flatMap Node.children).foldlM (define origin)
        schema =
      .ok { schema with
        messages := schema.messages ++ definitions.flatMap
          (DefinitionOutline.messages origin.dialect (writtenSpelling origin.package)
            origin.package)
        services := schema.services ++ definitions.flatMap
          (DefinitionOutline.services (writtenSpelling origin.package) origin.package) } := by
  induction definitions generalizing schema with
  | nil => simp [pure, Except.pure]
  | cons definition rest ih =>
      rw [List.map_cons, List.flatMap_cons, List.foldlM_append, define_tree hplain]
      have h := ih { schema with
        messages := schema.messages ++
          definition.messages origin.dialect (writtenSpelling origin.package) origin.package
        services := schema.services ++
          definition.services (writtenSpelling origin.package) origin.package }
      simp only [List.flatMap_cons, ← List.append_assoc]
      exact h

end Plain

/-! ## Files -/

/-- The name of a package, empty if there is none. -/
def packageText (package : Option DottedName) : String :=
  package.elim "" DottedName.name

/-- The tree of a file tells the dialect that the file tells, and the older one by default. -/
theorem dialectOf_fileTree (header : Option Dialect) (statements : List (List Token × Node Rule)) :
    dialectOf (fileTree header statements) = header.getD .proto2 := by
  have hmentioned : ∀ dialect, dialectOf (branch .proto [] [syntaxTree dialect]) = dialect := by
    intro dialect
    cases dialect <;> decide
  cases header with
  | none => rfl
  | some dialect => exact hmentioned dialect

section Definitions

variable (package : Option DottedName) {trees : List (Node Rule)}
  (hrules : ∀ tree ∈ trees, tree.rule = .topLevelDefinition)

include hrules

/-- The body of a file tells the package that stands before the definitions. -/
theorem packageOf_statements (tokens : List Token) :
    packageOf (branch .protoBody tokens (package.toList.map packageTree ++ trees)) =
      package.map DottedName.name := by
  cases package with
  | none =>
      have hnone : trees.find? (fun child => child.rule = .packageStatement) = none := by
        rw [List.find?_eq_none]
        intro child hchild
        simp [hrules child hchild]
      rw [packageOf, Node.child?]
      change ((((trees.find? _).bind _).bind _).map _) = _
      rw [hnone]
      rfl
  | some path => rfl

/-- The body of a file has the definitions behind the package. -/
theorem childrenOf_statements (tokens : List Token) :
    (branch .protoBody tokens (package.toList.map packageTree ++ trees)).childrenOf
      .topLevelDefinition = trees := by
  have hpackage : (package.toList.map packageTree).filter
      (fun child => child.rule = .topLevelDefinition) = [] := by
    cases package <;> rfl
  have hall : trees.filter (fun child => child.rule = .topLevelDefinition) = trees := by
    rw [List.filter_eq_self]
    exact fun tree htree => decide_eq_true (hrules tree htree)
  rw [Node.childrenOf, branch, Node.children, List.filter_append, hpackage, hall, List.nil_append]

/-- The tree of a file declares what the trees of its definitions declare one after the other. -/
theorem schemaOf_fileTree (source : List Char) {header : Option Dialect}
    {statements : List (List Token × Node Rule)}
    (hstatements : statements.map Prod.snd = package.toList.map packageTree ++ trees) :
    schemaOf none source (fileTree header statements) =
      (trees.flatMap Node.children).foldlM
        (define ⟨source, header.getD .proto2, packageText package⟩)
        { dialect := header.getD .proto2, package := package.map DottedName.name } := by
  have hbodies : (fileTree header statements).childrenOf .protoBody =
      [branch .protoBody (statements.flatMap Prod.fst)
        (package.toList.map packageTree ++ trees)] := by
    rw [← hstatements]
    cases header <;> rfl
  have hpackage : (package.map DottedName.name).getD "" = packageText package := by
    cases package <;> rfl
  rw [schemaOf, hbodies, dialectOf_fileTree, List.head?_cons, Option.bind_some,
    packageOf_statements package hrules, List.flatMap_singleton,
    childrenOf_statements package hrules, hpackage]

end Definitions

namespace Outline

/-- The tree of an outline declares its schema, with references as they are written. -/
theorem schemaOf_tree (outline : Outline) {source : List Char}
    (hsource : ∀ c ∈ source, isPlainText c = true) :
    schemaOf none source outline.tree =
      .ok (outline.schemaWith (writtenSpelling outline.packageName)) := by
  have hplain : Origin.Plain ⟨source, outline.dialect, outline.packageName⟩ :=
    fun node => commentsBeside_of_plain hsource node.start node.stop
  have hrules : ∀ tree ∈ outline.definitions.map DefinitionOutline.tree,
      tree.rule = .topLevelDefinition := by
    intro tree htree
    rcases List.mem_map.mp htree with ⟨definition, -, rfl⟩
    rfl
  have h := @schemaOf_fileTree outline.package _ hrules source (some outline.dialect) _
    outline.map_statements
  rw [fileTree, flatMap_statements, map_statements] at h
  exact h.trans (foldlM_define_trees hplain outline.definitions _)

end Outline

end Source
end ElmBinding
