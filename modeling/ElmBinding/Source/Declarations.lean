import ElmBinding.Schema.Error
import ElmBinding.Schema.Scope
import ElmBinding.Source.Comments
import ElmBinding.Source.Literal
import ElmBinding.Source.Rules
import ElmBinding.Text.Upper

/-!
# Declarations of a source text

The tree that the grammar puts over a source text becomes a schema whose references are
still as written.  A map field brings along an entry message, a group a message of its own.
After all other members of a message come the synthetic oneofs of its `optional` fields.

Main definitions:

- Definition {lit}`Origin`: what the declarations of one file share.
- Definitions {lit}`fieldOf`, {lit}`mapFieldOf`, {lit}`enumOf`, {lit}`serviceOf`: declarations
  without others inside.
- Definition {lit}`declareAll`: a message with what its body declares.
- Definition {lit}`Message.withSyntheticOneofs`: a message with oneofs for `optional` fields.
- Definition {lit}`schemaOf`: the schema of a tree.
- Definition {lit}`unlinkedSchema`: the schema of a text.
-/

namespace ElmBinding

/-! ## Oneofs of optional fields -/

/-- The oneof that stands in for an `optional` field of a message. -/
def syntheticOneof (scope : String) (field : Field) : Oneof where
  name := "_" ++ field.name
  fullName := qualify scope ("_" ++ field.name)
  synthetic := true

/-- Put every `optional` field into a oneof of its own, numbered from {lit}`next`. -/
def attachOneofs (next : Nat) : List Field → List Field
  | [] => []
  | field :: rest =>
      if field.tracksPresence then
        { field with oneof := some next } :: attachOneofs (next + 1) rest
      else
        field :: attachOneofs next rest

/-- A message with oneofs for its `optional` fields behind the declared ones. -/
def Message.withSyntheticOneofs (message : Message) : Message :=
  { message with
    fields := attachOneofs message.oneofs.length message.fields
    oneofs := message.oneofs ++
      (message.fields.filter Field.tracksPresence).map (syntheticOneof message.fullName) }

/-- A message with one more field. -/
def Message.addField (message : Message) (field : Field) : Message :=
  { message with fields := message.fields ++ [field] }

/-- A message with one more message inside. -/
def Message.addMessage (message nested : Message) : Message :=
  { message with messages := message.messages ++ [nested] }

/-- A message with one more enumeration inside. -/
def Message.addEnum (message : Message) (enumeration : Enumeration) : Message :=
  { message with enums := message.enums ++ [enumeration] }

namespace Source

open Grammar

/-- What the declarations of one file share. -/
structure Origin where
  /-- The text of the file. -/
  source : List Char
  dialect : Dialect
  /-- The package of the file, empty for none. -/
  package : String

/-- The comments beside a node. -/
def Origin.commentsOf (origin : Origin) (node : Node Rule) : Comments :=
  commentsBeside origin.source node.start node.stop

/-! ## Fields -/

/-- The tag of a field, which has to fit into 32 bits. -/
def fieldNumber (fullName : String) (literal : List Char) : Except SchemaError Nat :=
  let value := integerValue literal
  if 0 ≤ value ∧ value ≤ 0xFFFFFFFF then .ok value.toNat else .error (.outOfRange fullName value)

/-- The tag in a node of a field. -/
def tagOf (fullName : String) (node : Node Rule) : Except SchemaError Nat :=
  fieldNumber fullName ((node.child? .tag).elim [] Node.text)

/-- The kind of a field; named types are as written and taken for messages. -/
def kindOf (node : Node Rule) : FieldKind :=
  match (node.child? .scalarType).bind fun word => Scalar.ofKeyword? word.string with
  | some type => .scalar type
  | none => .message ⟨node.string, ""⟩

/-- The kind of the field over a node. -/
def kindIn (node : Node Rule) : FieldKind :=
  (node.child? .typeReference).elim (.message {}) kindOf

/-- The cardinality that a modifier stands for. -/
def cardinalityOf (modifier : String) : Cardinality :=
  if modifier = "repeated" then
    .repeated
  else if modifier = "required" then
    .required
  else
    .optional

/-- The field over a node, declared in a scope. -/
def fieldOf (origin : Origin) (scope : String) (node : Node Rule) : Except SchemaError Field := do
  let name := node.childString .fieldName
  let fullName := qualify scope name
  let modifier := node.childString .fieldModifier
  let number ← tagOf fullName node
  return {
    name, fullName, number
    cardinality := cardinalityOf modifier
    kind := kindIn node
    tracksPresence := modifier = "optional" && origin.dialect = .proto3
    comments := origin.commentsOf node }

/-! ## Map fields -/

/-- A name with the letters after underscores, and the first one, as capitals. -/
def joinCapitalized (capital : Bool) : List Char → List Char
  | [] => []
  | c :: rest =>
      if c = '_' then
        joinCapitalized true rest
      else
        (if capital then Text.upperChar c else [c]) ++ joinCapitalized false rest

/-- The name of the entry message of a map field. -/
def entryName (fieldName : String) : String :=
  String.ofList (joinCapitalized true fieldName.toList) ++ "Entry"

/-- The scalar type of the keys of a map field; the grammar admits no other type. -/
def keyScalar (node : Node Rule) : Scalar :=
  (((node.child? .keyType).bind fun key => key.child? .scalarType).bind fun word =>
    Scalar.ofKeyword? word.string).getD .string

/-- The entry message of a map field. -/
def entryMessage (scope name : String) (key : Scalar) (value : FieldKind) : Message :=
  let fullName := qualify scope name
  { name, fullName
    fields := [
      { name := "key", fullName := qualify fullName "key", number := 1, kind := .scalar key },
      { name := "value", fullName := qualify fullName "value", number := 2, kind := value }]
    mapEntry := true }

/-- The map field over a node, declared in a scope, and its entry message. -/
def mapFieldOf (origin : Origin) (scope : String) (node : Node Rule) :
    Except SchemaError (Field × Message) := do
  let name := node.childString .fieldName
  let fullName := qualify scope name
  let number ← tagOf fullName node
  let entry := entryMessage scope (entryName name) (keyScalar node) (kindIn node)
  let field : Field := {
    name, fullName, number
    cardinality := .repeated
    kind := .message ⟨"." ++ entry.fullName, origin.package⟩
    comments := origin.commentsOf node }
  return (field, entry)

/-! ## Groups and oneofs -/

/-- The field of a group, declared in a scope; it is named after the group. -/
def groupFieldOf (origin : Origin) (scope : String) (node : Node Rule) :
    Except SchemaError Field := do
  let groupName := node.childString .groupName
  let name := String.ofList (groupName.toList.map Char.toLower)
  let fullName := qualify scope name
  let number ← tagOf fullName node
  return {
    name, fullName, number
    cardinality := cardinalityOf (node.childString .fieldModifier)
    kind := .group ⟨"." ++ qualify scope groupName, origin.package⟩
    comments := origin.commentsOf node }

/-- A field as a member of the oneof at an index. -/
def memberOf (index : Nat) (field : Field) : Field :=
  { field with oneof := some index, cardinality := .optional, tracksPresence := false }

/-- A message with the oneof over a node and its members. -/
def declareOneof (origin : Origin) (message : Message) (node : Node Rule) :
    Except SchemaError Message := do
  let name := node.childString .oneofName
  let nodes := (node.childrenOf .oneofField).flatMap fun member => member.childrenOf .field
  let fields ← nodes.mapM (fieldOf origin message.fullName)
  let oneof : Oneof := {
    name
    fullName := qualify message.fullName name
    comments := origin.commentsOf node }
  return { message with
    fields := message.fields ++ fields.map (memberOf message.oneofs.length)
    oneofs := message.oneofs ++ [oneof] }

/-! ## Enumerations -/

/--
The value of an enumeration over a node.  It belongs to the scope around the enumeration,
and its number has to fit into 32 bits with sign.
-/
def enumValueOf (origin : Origin) (scope : String) (node : Node Rule) :
    Except SchemaError EnumValue :=
  let name := node.childString .enumFieldName
  let fullName := qualify scope name
  let number := integerValue ((node.child? .enumFieldValue).elim [] Node.text)
  if -0x80000000 ≤ number ∧ number ≤ 0x7FFFFFFF then
    .ok { name, fullName, number, comments := origin.commentsOf node }
  else
    .error (.outOfRange fullName number)

/-- The enumeration over a node, declared in a scope. -/
def enumOf (origin : Origin) (scope : String) (node : Node Rule) :
    Except SchemaError Enumeration := do
  let name := node.childString .enumName
  let nodes := (node.childrenOf .enumBody).flatMap fun body => body.childrenOf .enumField
  let values ← nodes.mapM (enumValueOf origin scope)
  return { name, fullName := qualify scope name, values, comments := origin.commentsOf node }

/-! ## Messages -/

/-- The message over a node, declared in a scope, before its body is looked at. -/
def messageHead (origin : Origin) (scope : String) (node : Node Rule) : Message :=
  let name := node.childString .messageName
  { name, fullName := qualify scope name, comments := origin.commentsOf node }

/-- The message of a group, declared in a scope, before its body is looked at. -/
def groupHead (scope : String) (node : Node Rule) : Message :=
  let name := node.childString .groupName
  { name, fullName := qualify scope name }

mutual

/-- A message with what a node of its body declares. -/
def declare (origin : Origin) (message : Message) : Node Rule → Except SchemaError Message
  | ⟨rule, start, text, children⟩ =>
      let node : Node Rule := ⟨rule, start, text, children⟩
      match rule with
      | .messageBody | .messageElement => declareAll origin message children
      | .field => (fieldOf origin message.fullName node).map message.addField
      | .mapField => do
          let (field, entry) ← mapFieldOf origin message.fullName node
          return (message.addMessage entry).addField field
      | .groupField => do
          let field ← groupFieldOf origin message.fullName node
          let group ← declareAll origin (groupHead message.fullName node) children
          return (message.addMessage group.withSyntheticOneofs).addField field
      | .oneof => declareOneof origin message node
      | .enumBlock => (enumOf origin message.fullName node).map message.addEnum
      | .messageBlock => do
          let nested ← declareAll origin (messageHead origin message.fullName node) children
          return message.addMessage nested.withSyntheticOneofs
      | _ => .ok message

/-- A message with what the nodes of its body declare. -/
def declareAll (origin : Origin) (message : Message) : List (Node Rule) → Except SchemaError Message
  | [] => .ok message
  | node :: rest => do
      let extended ← declare origin message node
      declareAll origin extended rest

end

/-- The message over a node, declared in a scope. -/
def messageOf (origin : Origin) (scope : String) (node : Node Rule) :
    Except SchemaError Message :=
  (declareAll origin (messageHead origin scope node) node.children).map
    Message.withSyntheticOneofs

/-! ## Services -/

/-- The method over a node of a service. -/
def methodOf (origin : Origin) (service : String) (node : Node Rule) : Method :=
  let name := node.childString .rpcName
  let types := (node.childrenOf .messageType).map Node.string
  { name
    fullName := qualify service name
    input := ⟨types.headD "", ""⟩
    output := ⟨types.tail.headD "", ""⟩
    clientStreaming := (node.child? .clientStream).isSome
    serverStreaming := (node.child? .serverStream).isSome
    comments := origin.commentsOf node }

/-- The service over a node. -/
def serviceOf (origin : Origin) (node : Node Rule) : Service :=
  let name := node.childString .serviceName
  let fullName := qualify origin.package name
  { name, fullName
    methods := (node.childrenOf .rpc).map (methodOf origin fullName)
    comments := origin.commentsOf node }

/-! ## Schemas -/

/-- The dialect of a file: the newer one if its first statement mentions it. -/
def dialectOf (root : Node Rule) : Dialect :=
  if (root.child? .syntaxStatement).any fun statement =>
      Text.occursIn "proto3".toList statement.text then
    .proto3
  else
    .proto2

/-- The package that the body of a file declares first. -/
def packageOf (body : Node Rule) : Option String :=
  (((body.child? .packageStatement).bind fun statement => statement.child? .packageName).bind
    fun name => name.child? .fullIdent).map Node.string

/-- A schema with the definition over a node. -/
def define (origin : Origin) (schema : Schema) (node : Node Rule) : Except SchemaError Schema :=
  match node.rule with
  | .messageBlock => do
      let message ← messageOf origin origin.package node
      return { schema with messages := schema.messages ++ [message] }
  | .enumBlock => do
      let enumeration ← enumOf origin origin.package node
      return { schema with enums := schema.enums ++ [enumeration] }
  | .serviceBlock => .ok { schema with services := schema.services ++ [serviceOf origin node] }
  | _ => .ok schema

/-- The schema of the tree over a source text. -/
def schemaOf (fileName : Option String) (source : List Char) (root : Node Rule) :
    Except SchemaError Schema :=
  let bodies := root.childrenOf .protoBody
  let package := (bodies.head?).bind packageOf
  let origin : Origin := ⟨source, dialectOf root, package.getD ""⟩
  let definitions := (bodies.flatMap fun body =>
    body.childrenOf .topLevelDefinition).flatMap Node.children
  definitions.foldlM (define origin) { fileName, dialect := origin.dialect, package }

/-- The schema of a source text, with references as written. -/
def unlinkedSchema (fileName : Option String) (source : List Char) : Except SchemaError Schema :=
  match schemaGrammar.parse .proto source with
  | .ok root => schemaOf fileName source root
  | .error frontier => .error (.unparsable (frontier.report schemaGrammar source))

end Source
end ElmBinding
