import ElmBinding.Schema.Error
import ElmBinding.Schema.Symbols
import ElmBinding.Sequence.Repetition

/-!
# Linking

Linking replaces every type name by the full name of the type that it means, together with
its package, and tells enumerations from messages.  The schemas linked together share
their symbols, which have to be distinct.

The types of fields are looked up from their message, those of methods from the package.

Main definitions:

- Definition {lit}`linkReference`: the type that a reference means, with its symbol.
- Definition {lit}`linkField`, {lit}`linkMessage`, {lit}`linkMethod`: the linked declarations.
- Definitions {lit}`link` and {lit}`linkAlone`: schemas with every reference linked.
-/

namespace ElmBinding

/-- The symbol of the type that a reference means in a scope. -/
def linkReference (table : List Symbol) (scope : String) (reference : Reference) :
    Except SchemaError Symbol :=
  match lookupType? table scope reference.fullName with
  | some symbol => .ok symbol
  | none => .error (.unresolved reference.fullName scope)

/-- The reference to a symbol. -/
def Symbol.reference (symbol : Symbol) : Reference :=
  ⟨symbol.name, symbol.package⟩

/-- The kind of a field whose type is a symbol. -/
def Symbol.fieldKind (symbol : Symbol) : FieldKind :=
  if symbol.kind = .enumeration then .enumeration symbol.reference else .message symbol.reference

/-- The linked kind of a field in a scope; a group stays a group. -/
def linkKind (table : List Symbol) (scope : String) : FieldKind → Except SchemaError FieldKind
  | .scalar type => .ok (.scalar type)
  | .enumeration target => (linkReference table scope target).map Symbol.fieldKind
  | .message target => (linkReference table scope target).map Symbol.fieldKind
  | .group target =>
      (linkReference table scope target).map fun symbol => .group symbol.reference

/-- A field of a message with its type linked. -/
def linkField (table : List Symbol) (scope : String) (field : Field) :
    Except SchemaError Field :=
  (linkKind table scope field.kind).map fun kind => { field with kind }

mutual

/-- A message with the types of its fields linked, then those of the messages inside it. -/
def linkMessage (table : List Symbol) : Message → Except SchemaError Message
  | ⟨name, fullName, fields, oneofs, messages, enums, mapEntry, comments⟩ => do
      let linkedFields ← fields.mapM (linkField table fullName)
      let linkedMessages ← linkMessages table messages
      return ⟨name, fullName, linkedFields, oneofs, linkedMessages, enums, mapEntry, comments⟩

/-- Messages with the types of their fields linked. -/
def linkMessages (table : List Symbol) : List Message → Except SchemaError (List Message)
  | [] => .ok []
  | message :: rest => do
      let linked ← linkMessage table message
      let others ← linkMessages table rest
      return linked :: others

end

/-- A method of a package with its types linked. -/
def linkMethod (table : List Symbol) (package : String) (method : Method) :
    Except SchemaError Method := do
  let input ← linkReference table package method.input
  let output ← linkReference table package method.output
  return { method with input := input.reference, output := output.reference }

/-- A service of a package with the types of its methods linked. -/
def linkService (table : List Symbol) (package : String) (service : Service) :
    Except SchemaError Service :=
  (service.methods.mapM (linkMethod table package)).map fun methods => { service with methods }

/-- A schema with every reference linked, the messages before the services. -/
def linkSchema (table : List Symbol) (schema : Schema) : Except SchemaError Schema := do
  let messages ← linkMessages table schema.messages
  let services ← schema.services.mapM (linkService table schema.packageName)
  return { schema with messages, services }

/-- The symbols of schemas, which have to be distinct. -/
def symbolTable (schemas : List Schema) : Except SchemaError (List Symbol) :=
  let table := schemas.flatMap Schema.symbols
  match Sequence.firstRepeat? (table.map Symbol.name) with
  | some name => .error (.duplicate name)
  | none => .ok table

/-- Schemas with every reference linked to what one of them declares. -/
def link (schemas : List Schema) : Except SchemaError (List Schema) := do
  let table ← symbolTable schemas
  schemas.mapM (linkSchema table)

/-- A schema with every reference linked to what it declares itself. -/
def linkAlone (schema : Schema) : Except SchemaError Schema := do
  let table ← symbolTable [schema]
  linkSchema table schema

end ElmBinding
