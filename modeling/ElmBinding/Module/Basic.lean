import ElmBinding.Naming.Binding
import ElmBinding.Schema.Basic

/-!
# Modules

What a generated module defines: a union for every enumeration, a record for every message,
a choice for every oneof, and the procedures of every service.  All identifiers are final.

Main definitions:

- Definition {lit}`Module`: the definitions of a module, ready to be written out.
- Definitions {lit}`Union`, {lit}`Choice`, {lit}`Record`, {lit}`ProcedureGroup`: its parts.
- Definition {lit}`Scalar.primitive?`: the built-in type for a scalar type.
-/

namespace ElmBinding

/-! ## Types of values -/

/-- The built-in types that scalar values have in a module. -/
inductive Primitive where
  | bool
  | int
  | float
  | string
  | bytes
deriving DecidableEq, Repr

/-- The name of a built-in type. -/
def Primitive.name : Primitive → String
  | bool => "Bool"
  | int => "Int"
  | float => "Float"
  | string => "String"
  | bytes => "Bytes"

/-- The built-in type for a scalar type; there is none for integers of 64 bits. -/
def Scalar.primitive? : Scalar → Option Primitive
  | bool => some .bool
  | int32 | uint32 | sint32 | fixed32 | sfixed32 => some .int
  | float | double => some .float
  | string => some .string
  | bytes => some .bytes
  | int64 | uint64 | sint64 | fixed64 | sfixed64 => none

/-- The type of a single value. -/
inductive Element where
  /-- A built-in type, with the form of its values on the wire. -/
  | scalar (wire : Scalar) (primitive : Primitive)
  /-- A type with a binding. -/
  | named (binding : Binding)
deriving DecidableEq, Repr

/-- Whether values of a type can be the keys of a dictionary. -/
def Element.isMapKey : Element → Bool
  | scalar _ primitive => primitive = .int || primitive = .string
  | named _ => false

/-- The type of a record field. -/
inductive FieldType where
  /-- One value. -/
  | single (element : Element)
  /-- Any number of values. -/
  | list (element : Element)
  /-- A dictionary. -/
  | map (key value : Element)
  /-- A value that may be absent. -/
  | maybe (element : Element)
  /-- A choice between fields that may be absent. -/
  | choice (binding : Binding)
deriving DecidableEq, Repr

/-! ## Definitions -/

/-- A field of a record or of a variant of a choice. -/
structure RecordField where
  label : String
  /-- The tag on the wire; a choice has none of its own. -/
  number : Option Nat
  cardinality : Cardinality
  type : FieldType
  comments : Comments
deriving DecidableEq, Repr

/-- A variant of a union. -/
structure Variant where
  id : String
  /-- The name of the value in the schema. -/
  label : String
  number : Int
  comments : Comments
deriving DecidableEq, Repr

/-- A value of an enumeration that has the number of an earlier one. -/
structure VariantAlias where
  id : String
  /-- The name of the value in the schema. -/
  label : String
  number : Int
  /-- The place of the earlier value among the variants. -/
  variant : Nat
  comments : Comments
deriving DecidableEq, Repr

/-- The type of an enumeration. -/
structure Union where
  binding : Binding
  variants : List Variant
  /-- The place of the zero value among the variants. -/
  default : Nat
  aliases : List VariantAlias
  comments : Comments
deriving DecidableEq, Repr

/-- A variant of a choice. -/
structure ChoiceVariant where
  id : String
  field : RecordField
deriving DecidableEq, Repr

/-- The type of a oneof. -/
structure Choice where
  binding : Binding
  variants : List ChoiceVariant
  comments : Comments
deriving DecidableEq, Repr

/-- The type of a message. -/
structure Record where
  binding : Binding
  fields : List RecordField
  comments : Comments
deriving DecidableEq, Repr

/-- A method of a service. -/
structure Procedure where
  id : String
  /-- The name of the method in the schema. -/
  method : String
  /-- The full name of the service. -/
  service : String
  input : Binding
  output : Binding
  clientStreaming : Bool
  serverStreaming : Bool
  comments : Comments
deriving DecidableEq, Repr

/-- The methods of a service, which has no identifier of its own. -/
structure ProcedureGroup where
  /-- The name of the service in the schema. -/
  label : String
  fullName : String
  procedures : List Procedure
  comments : Comments
deriving DecidableEq, Repr

/-- A generated module. -/
structure Module where
  name : String
  /-- The file of the module. -/
  path : String
  package : String
  imports : List String
  unions : List Union
  choices : List Choice
  records : List Record
  services : List ProcedureGroup
deriving DecidableEq, Repr

end ElmBinding
