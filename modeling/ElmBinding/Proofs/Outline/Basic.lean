import ElmBinding.Proofs.Source.Lexemes
import ElmBinding.Source.Declarations

/-!
# Outlines of schemas

An outline is what a schema says, without comments and without the parts that reading adds: the
entries of maps and the oneofs of optional fields.  An outline has a canonical text, with one
blank between tokens, and it stands for a schema, with those parts added.

Main definitions:

- Definition {lit}`Outline`: a file with its dialect, its package and its definitions.
- Definitions {lit}`Outline.tokens` and {lit}`Outline.text`: the canonical text of an outline.
- Definition {lit}`Outline.messageNames`: the full names of messages and entries of maps.
- Definition {lit}`Outline.references`: the types that an outline mentions.
- Definition {lit}`Outline.schema`: the schema that an outline stands for.
-/

namespace ElmBinding
namespace Source

/-! ## Declarations -/

/-- The label of a field. -/
inductive Label where
  | plain
  | optional
  | required
  | repeated
deriving DecidableEq

/-- The type of a field: a scalar type, or a message by its full name. -/
inductive TypeOutline where
  | scalar (type : Scalar)
  | message (path : DottedName)

/-- A field without its label. -/
structure FieldOutline where
  type : TypeOutline
  name : Ident
  number : UInt32

/-- What stands in the body of a message. -/
inductive ElementOutline where
  | field (label : Label) (field : FieldOutline)
  /-- A map field; its values have the type of the field. -/
  | map (key : Scalar) (field : FieldOutline)
  | oneof (name : Ident) (members : List FieldOutline)
  | message (name : Ident) (body : List ElementOutline)

/-- A method of a service. -/
structure MethodOutline where
  name : Ident
  clientStreaming : Bool
  input : DottedName
  serverStreaming : Bool
  output : DottedName

/-- What stands outside of messages and services. -/
inductive DefinitionOutline where
  | message (name : Ident) (body : List ElementOutline)
  | service (name : Ident) (methods : List MethodOutline)

/-- A schema file without comments. -/
structure Outline where
  dialect : Dialect
  package : Option DottedName
  definitions : List DefinitionOutline

/-- Induction over the elements of a body that descends into the bodies of messages. -/
@[elab_as_elim]
theorem elements_induction {motive : List ElementOutline → Prop} (nil : motive [])
    (field : ∀ label field rest, motive rest → motive (.field label field :: rest))
    (map : ∀ key field rest, motive rest → motive (.map key field :: rest))
    (oneof : ∀ name members rest, motive rest → motive (.oneof name members :: rest))
    (message : ∀ name body rest, motive body → motive rest →
      motive (.message name body :: rest)) :
    ∀ elements, motive elements
  | [] => nil
  | .field label f :: rest =>
      field label f rest (elements_induction nil field map oneof message rest)
  | .map key f :: rest => map key f rest (elements_induction nil field map oneof message rest)
  | .oneof name members :: rest =>
      oneof name members rest (elements_induction nil field map oneof message rest)
  | .message name body :: rest =>
      message name body rest (elements_induction nil field map oneof message body)
        (elements_induction nil field map oneof message rest)

/-! ## Canonical texts -/

/-- The keyword of a scalar type as a token. -/
def scalarToken (type : Scalar) : Token :=
  .ofWord type.keyword (by cases type <;> decide) (by cases type <;> decide)

/-- The token of a label, if there is one. -/
def Label.tokens : Label → List Token
  | plain => []
  | optional => [.ofWord "optional"]
  | required => [.ofWord "required"]
  | repeated => [.ofWord "repeated"]

/-- The token of a type. -/
def TypeOutline.token : TypeOutline → Token
  | scalar type => scalarToken type
  | message path => path.absoluteToken

/-- The tokens of a field behind its label. -/
def FieldOutline.tokens (field : FieldOutline) : List Token :=
  [field.type.token, field.name.token, .ofWord "=", numberToken field.number, .ofWord ";"]

/-- The tokens behind the name of what is given a number. -/
def assignmentTokens (number : Token) : List Token :=
  [.ofWord "=", number, .ofWord ";"]

/-- Tokens between braces. -/
def braced (tokens : List Token) : List Token :=
  .ofWord "\x7b" :: (tokens ++ [.ofWord "\x7d"])

theorem length_braced (tokens : List Token) :
    (braced tokens).length = tokens.length + 2 := by
  simp [braced]

mutual

/-- The tokens of an element. -/
def ElementOutline.tokens : ElementOutline → List Token
  | .field label field => label.tokens ++ field.tokens
  | .map key field =>
      [.ofWord "map", .ofWord "<", scalarToken key, .ofWord ",", field.type.token, .ofWord ">",
        field.name.token, .ofWord "=", numberToken field.number, .ofWord ";"]
  | .oneof name members =>
      .ofWord "oneof" :: name.token :: braced (members.flatMap FieldOutline.tokens)
  | .message name body =>
      .ofWord "message" :: name.token :: braced (bodyTokens body)

/-- The tokens of the elements of a body. -/
def bodyTokens : List ElementOutline → List Token
  | [] => []
  | element :: rest => element.tokens ++ bodyTokens rest

end

/-- The token of a streamed message, if it is streamed. -/
def streamTokens (streaming : Bool) : List Token :=
  if streaming then [.ofWord "stream"] else []

/-- The tokens of a method. -/
def MethodOutline.tokens (method : MethodOutline) : List Token :=
  .ofWord "rpc" :: method.name.token :: .ofWord "(" ::
    (streamTokens method.clientStreaming ++ method.input.absoluteToken :: .ofWord ")" ::
      .ofWord "returns" :: .ofWord "(" ::
        (streamTokens method.serverStreaming ++
          [method.output.absoluteToken, .ofWord ")", .ofWord ";"]))

/-- The tokens of a definition. -/
def DefinitionOutline.tokens : DefinitionOutline → List Token
  | message name body => (ElementOutline.message name body).tokens
  | service name methods =>
      .ofWord "service" :: name.token :: braced (methods.flatMap MethodOutline.tokens)

/-- The quoted name of a dialect. -/
def dialectToken : Dialect → Token
  | .proto2 => .ofWord "\"proto2\""
  | .proto3 => .ofWord "\"proto3\""

/-- The tokens of the statement that tells the dialect. -/
def syntaxTokens (dialect : Dialect) : List Token :=
  [.ofWord "syntax", .ofWord "=", dialectToken dialect, .ofWord ";"]

/-- The tokens of the statement that tells the package, if there is one. -/
def packageTokens (package : Option DottedName) : List Token :=
  package.elim [] fun path => [.ofWord "package", path.token, .ofWord ";"]

namespace Outline

/-- The tokens behind the first statement of an outline. -/
def statementTokens (outline : Outline) : List Token :=
  packageTokens outline.package ++ outline.definitions.flatMap DefinitionOutline.tokens

/-- The tokens of an outline. -/
def tokens (outline : Outline) : List Token :=
  syntaxTokens outline.dialect ++ outline.statementTokens

/-- The canonical text of an outline, with one blank between tokens. -/
def text (outline : Outline) : String :=
  String.ofList (joined outline.tokens)

end Outline

/-! ## Names and references -/

mutual

/-- The full names of the messages and the entries of maps that an element declares in a scope. -/
def ElementOutline.messageNames (scope : String) : ElementOutline → List String
  | .field _ _ => []
  | .map _ field => [qualify scope (entryName field.name.name)]
  | .oneof _ _ => []
  | .message name body =>
      qualify scope name.name :: bodyMessageNames (qualify scope name.name) body

/-- The full names of the messages and the entries of maps that a body declares in a scope. -/
def bodyMessageNames (scope : String) : List ElementOutline → List String
  | [] => []
  | element :: rest => element.messageNames scope ++ bodyMessageNames scope rest

end

/-- The message that a type is, if it is one. -/
def TypeOutline.references : TypeOutline → List DottedName
  | scalar _ => []
  | message path => [path]

mutual

/-- The messages that an element mentions. -/
def ElementOutline.references : ElementOutline → List DottedName
  | .field _ field => field.type.references
  | .map _ field => field.type.references
  | .oneof _ members => members.flatMap fun member => member.type.references
  | .message _ body => bodyReferences body

/-- The messages that a body mentions. -/
def bodyReferences : List ElementOutline → List DottedName
  | [] => []
  | element :: rest => element.references ++ bodyReferences rest

end

/-- The full names of the messages and the entries of maps that a definition declares. -/
def DefinitionOutline.messageNames (package : String) : DefinitionOutline → List String
  | message name body => (ElementOutline.message name body).messageNames package
  | service _ _ => []

/-- The full name of the service that a definition is, if it is one. -/
def DefinitionOutline.serviceNames (package : String) : DefinitionOutline → List String
  | message _ _ => []
  | service name _ => [qualify package name.name]

/-- The messages that a definition mentions. -/
def DefinitionOutline.references : DefinitionOutline → List DottedName
  | message _ body => bodyReferences body
  | service _ methods => methods.flatMap fun method => [method.input, method.output]

namespace Outline

/-- The name of the package of an outline, empty if there is none. -/
def packageName (outline : Outline) : String :=
  outline.package.elim "" DottedName.name

/-- The full names of messages and entries of maps at every depth. -/
def messageNames (outline : Outline) : List String :=
  outline.definitions.flatMap (DefinitionOutline.messageNames outline.packageName)

/-- The full names of services. -/
def serviceNames (outline : Outline) : List String :=
  outline.definitions.flatMap (DefinitionOutline.serviceNames outline.packageName)

/-- The messages that an outline mentions as types of fields and methods. -/
def references (outline : Outline) : List DottedName :=
  outline.definitions.flatMap DefinitionOutline.references

end Outline

/-! ## Schemas -/

/-- How references are spelled: to messages that are mentioned, and to entries of own maps. -/
structure Spelling where
  mentioned : String → Reference
  own : String → Reference

/-- References by full name and package. -/
def linkedSpelling (package : String) : Spelling :=
  ⟨fun fullName => ⟨fullName, package⟩, fun fullName => ⟨fullName, package⟩⟩

/-- The cardinality of a field with a label. -/
def Label.cardinality : Label → Cardinality
  | plain | optional => .optional
  | required => .required
  | repeated => .repeated

/-- Whether a field with a label tracks its presence. -/
def Label.tracksPresence (dialect : Dialect) (label : Label) : Bool :=
  label = optional && dialect = .proto3

/-- The kind of a field of a type. -/
def TypeOutline.kind (spelling : Spelling) : TypeOutline → FieldKind
  | scalar type => .scalar type
  | message path => .message (spelling.mentioned path.name)

/-- A field of a message that is in no oneof. -/
def FieldOutline.field (spelling : Spelling) (scope : String) (outline : FieldOutline) : Field where
  name := outline.name.name
  fullName := qualify scope outline.name.name
  number := outline.number.toNat
  kind := outline.type.kind spelling

/-- A map field of a message. -/
def FieldOutline.mapField (spelling : Spelling) (scope : String) (outline : FieldOutline) :
    Field where
  name := outline.name.name
  fullName := qualify scope outline.name.name
  number := outline.number.toNat
  cardinality := .repeated
  kind := .message (spelling.own (qualify scope (entryName outline.name.name)))

/--
The fields of a body in a scope, where the next declared oneof has the number {lit}`index` and the
next synthetic one the number {lit}`next`.
-/
def bodyFields (dialect : Dialect) (spelling : Spelling) (scope : String) (index next : Nat) :
    List ElementOutline → List Field
  | [] => []
  | .field label outline :: rest =>
      let field := { outline.field spelling scope with cardinality := label.cardinality }
      if label.tracksPresence dialect then
        { field with oneof := some next, tracksPresence := true } ::
          bodyFields dialect spelling scope index (next + 1) rest
      else
        field :: bodyFields dialect spelling scope index next rest
  | .map _ outline :: rest =>
      outline.mapField spelling scope :: bodyFields dialect spelling scope index next rest
  | .oneof _ members :: rest =>
      (members.map fun member => { member.field spelling scope with oneof := some index }) ++
        bodyFields dialect spelling scope (index + 1) next rest
  | .message _ _ :: rest => bodyFields dialect spelling scope index next rest

/-- The oneofs that a body declares in a scope. -/
def declaredOneofs (scope : String) : List ElementOutline → List Oneof
  | [] => []
  | .oneof name _ :: rest =>
      { name := name.name, fullName := qualify scope name.name } :: declaredOneofs scope rest
  | _ :: rest => declaredOneofs scope rest

/-- The oneofs that stand in for the fields of a body that track their presence. -/
def syntheticOneofs (dialect : Dialect) (scope : String) : List ElementOutline → List Oneof
  | [] => []
  | .field label field :: rest =>
      let oneof : Oneof :=
        { name := "_" ++ field.name.name, fullName := qualify scope ("_" ++ field.name.name)
          synthetic := true }
      (if label.tracksPresence dialect then [oneof] else []) ++
        syntheticOneofs dialect scope rest
  | _ :: rest => syntheticOneofs dialect scope rest

mutual

/-- The messages and the entries of maps that an element declares in a scope. -/
def ElementOutline.messages (dialect : Dialect) (spelling : Spelling) (scope : String) :
    ElementOutline → List Message
  | .field _ _ => []
  | .map key field =>
      [entryMessage scope (entryName field.name.name) key (field.type.kind spelling)]
  | .oneof _ _ => []
  | .message name body =>
      let fullName := qualify scope name.name
      let declared := declaredOneofs fullName body
      [{ name := name.name, fullName
         fields := bodyFields dialect spelling fullName 0 declared.length body
         oneofs := declared ++ syntheticOneofs dialect fullName body
         messages := bodyMessages dialect spelling fullName body }]

/-- The messages and the entries of maps that a body declares in a scope. -/
def bodyMessages (dialect : Dialect) (spelling : Spelling) (scope : String) :
    List ElementOutline → List Message
  | [] => []
  | element :: rest =>
      element.messages dialect spelling scope ++ bodyMessages dialect spelling scope rest

end

/-- A method of a service. -/
def MethodOutline.method (spelling : Spelling) (service : String) (outline : MethodOutline) :
    Method where
  name := outline.name.name
  fullName := qualify service outline.name.name
  input := spelling.mentioned outline.input.name
  output := spelling.mentioned outline.output.name
  clientStreaming := outline.clientStreaming
  serverStreaming := outline.serverStreaming

/-- The messages that a definition stands for in a package. -/
def DefinitionOutline.messages (dialect : Dialect) (spelling : Spelling) (package : String) :
    DefinitionOutline → List Message
  | message name body => (ElementOutline.message name body).messages dialect spelling package
  | service _ _ => []

/-- The services that a definition stands for in a package. -/
def DefinitionOutline.services (spelling : Spelling) (package : String) :
    DefinitionOutline → List Service
  | message _ _ => []
  | service name methods =>
      let fullName := qualify package name.name
      [{ name := name.name, fullName
         methods := methods.map (MethodOutline.method spelling fullName) }]

namespace Outline

/-- The schema that an outline stands for, with references spelled in some way. -/
def schemaWith (spelling : Spelling) (outline : Outline) : Schema where
  dialect := outline.dialect
  package := outline.package.map DottedName.name
  messages := outline.definitions.flatMap
    (DefinitionOutline.messages outline.dialect spelling outline.packageName)
  services := outline.definitions.flatMap
    (DefinitionOutline.services spelling outline.packageName)

/-- The schema that an outline stands for. -/
def schema (outline : Outline) : Schema :=
  outline.schemaWith (linkedSpelling outline.packageName)

end Outline

end Source
end ElmBinding
