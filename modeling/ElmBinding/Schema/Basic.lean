/-!
# Schemas

A schema file declares messages, enumerations and services, which may belong to a package.
Every declared thing carries its own name, its full name and the comments beside it.

- The values of an enumeration belong to the scope that holds the enumeration.
- A map field is a repeated reference to an entry message with a key and a value.
- An `optional` field of the newer dialect is the only member of a synthetic oneof.

Main definitions:

- Definition {lit}`Schema`: what one file declares.
- Definitions {lit}`Message`, {lit}`Field`, {lit}`Oneof`, {lit}`Enumeration`, {lit}`Service`:
  the things declared.
- Definition {lit}`FieldKind.text`: how a kind is named in reports.
-/

namespace ElmBinding

/-- The two dialects of the schema language. -/
inductive Dialect where
  /-- The older dialect, with required fields and groups. -/
  | proto2
  /-- The newer dialect, in which `optional` makes a field track its presence. -/
  | proto3
deriving DecidableEq, Repr, Inhabited

/-- The comments beside a declaration. -/
structure Comments where
  /-- Blocks above the declaration that blank lines keep apart from it, in source order. -/
  detached : List String := []
  /-- The block that ends on the line above the declaration. -/
  leading : String := ""
  /-- The comment behind the declaration on its last line. -/
  trailing : String := ""
deriving DecidableEq, Repr, Inhabited

/-- Whether there is no comment at all. -/
def Comments.isEmpty (comments : Comments) : Bool :=
  comments.detached.isEmpty && comments.leading = "" && comments.trailing = ""

/-! ## Types of fields -/

/-- The scalar types of fields, named after their form on the wire. -/
inductive Scalar where
  | double
  | float
  | int32
  | int64
  | uint32
  | uint64
  | sint32
  | sint64
  | fixed32
  | fixed64
  | sfixed32
  | sfixed64
  | bool
  | string
  | bytes
deriving DecidableEq, Repr, Inhabited

namespace Scalar

/-- The keyword of a scalar type. -/
def keyword : Scalar → String
  | double => "double"
  | float => "float"
  | int32 => "int32"
  | int64 => "int64"
  | uint32 => "uint32"
  | uint64 => "uint64"
  | sint32 => "sint32"
  | sint64 => "sint64"
  | fixed32 => "fixed32"
  | fixed64 => "fixed64"
  | sfixed32 => "sfixed32"
  | sfixed64 => "sfixed64"
  | bool => "bool"
  | string => "string"
  | bytes => "bytes"

/-- The scalar types in the order in which their keywords are tried. -/
def all : List Scalar := [
  double, float, int32, int64, uint32, uint64, sint32, sint64, fixed32, fixed64, sfixed32,
  sfixed64, bool, string, bytes]

/-- The scalar type of a keyword. -/
def ofKeyword? (word : String) : Option Scalar :=
  all.find? fun scalar => scalar.keyword = word

/-- A scalar type is found by its keyword. -/
theorem ofKeyword?_keyword (scalar : Scalar) : ofKeyword? scalar.keyword = some scalar := by
  cases scalar <;> decide +kernel

end Scalar

/-- The name of a type, and the package in which it is declared. -/
structure Reference where
  /-- The full name of the type, or the name as written before linking. -/
  fullName : String := ""
  /-- The package of the type. -/
  package : String := ""
deriving DecidableEq, Repr, Inhabited

/-- What the values of a field are. -/
inductive FieldKind where
  /-- Values of a scalar type. -/
  | scalar (type : Scalar)
  /-- Values of an enumeration. -/
  | enumeration (target : Reference)
  /-- Messages. -/
  | message (target : Reference)
  /-- Messages of a type that is declared with the field. -/
  | group (target : Reference)
deriving DecidableEq, Repr, Inhabited

/-- How reports name a kind. -/
def FieldKind.text : FieldKind → String
  | .scalar type => type.keyword
  | .enumeration target => "enum " ++ target.fullName
  | .message target => "message " ++ target.fullName
  | .group target => "group " ++ target.fullName

/-- How many values a field has. -/
inductive Cardinality where
  /-- At most one. -/
  | optional
  /-- Exactly one. -/
  | required
  /-- Any number. -/
  | repeated
deriving DecidableEq, Repr, Inhabited

/-! ## Declarations -/

/-- A field of a message. -/
structure Field where
  name : String := ""
  fullName : String := ""
  /-- The tag of the field on the wire. -/
  number : Nat := 0
  cardinality : Cardinality := .optional
  kind : FieldKind
  /-- The place of the field's oneof among the oneofs of the message. -/
  oneof : Option Nat := none
  /-- Whether the field was declared `optional` in the newer dialect. -/
  tracksPresence : Bool := false
  comments : Comments := {}
deriving DecidableEq, Repr, Inhabited

/-- A group of fields of which at most one is present. -/
structure Oneof where
  name : String := ""
  fullName : String := ""
  /-- Whether the group stands in for an `optional` field. -/
  synthetic : Bool := false
  comments : Comments := {}
deriving DecidableEq, Repr, Inhabited

/-- A value of an enumeration. -/
structure EnumValue where
  name : String := ""
  fullName : String := ""
  number : Int := 0
  comments : Comments := {}
deriving DecidableEq, Repr, Inhabited

/-- An enumeration. -/
structure Enumeration where
  name : String := ""
  fullName : String := ""
  values : List EnumValue := []
  comments : Comments := {}
deriving DecidableEq, Repr, Inhabited

/-- A message with its fields and the types declared inside it. -/
structure Message where
  name : String := ""
  fullName : String := ""
  fields : List Field := []
  oneofs : List Oneof := []
  messages : List Message := []
  enums : List Enumeration := []
  /-- Whether the message holds the key and the value of a map field. -/
  mapEntry : Bool := false
  comments : Comments := {}
deriving Repr, Inhabited

/-- A method of a service. -/
structure Method where
  name : String := ""
  fullName : String := ""
  input : Reference := {}
  output : Reference := {}
  clientStreaming : Bool := false
  serverStreaming : Bool := false
  comments : Comments := {}
deriving DecidableEq, Repr, Inhabited

/-- A service. -/
structure Service where
  name : String := ""
  fullName : String := ""
  methods : List Method := []
  comments : Comments := {}
deriving DecidableEq, Repr, Inhabited

/-- What one schema file, or the files of one package, declare. -/
structure Schema where
  /-- The path of the file, if the schema comes from one. -/
  fileName : Option String := none
  dialect : Dialect := .proto2
  /-- The declared package. -/
  package : Option String := none
  messages : List Message := []
  enums : List Enumeration := []
  services : List Service := []
deriving Repr, Inhabited

/-- The package of a schema, empty if it declares none. -/
def Schema.packageName (schema : Schema) : String :=
  schema.package.getD ""

/-- The fields of a message that belong to its oneof at an index, in declaration order. -/
def Message.members (message : Message) (index : Nat) : List Field :=
  message.fields.filter fun field => field.oneof = some index

end ElmBinding
