import ElmBinding.Module.Basic
import ElmBinding.Sequence.Sorting

/-!
# Views of modules

The identifiers that a module defines, the definitions behind them, and the modules that it
has to import: those of the foreign types it mentions, and the libraries for dictionaries
and for bytes.

Main definitions:

- Definition {lit}`Module.localIds`: the identifiers that a module defines.
- Definitions {lit}`Module.union?`, {lit}`Module.record?`, {lit}`Module.choice?`: definitions
  by identifier.
- Definition {lit}`Record.field?`: fields by label.
- Definition {lit}`importsOf`: the modules that definitions mention.
-/

namespace ElmBinding

/-! ## Identifiers -/

/-- The identifiers that a union defines. -/
def Union.ids (union : Union) : List String :=
  union.binding.names ++ union.variants.map Variant.id ++ union.aliases.map VariantAlias.id

/-- The identifiers that a choice defines. -/
def Choice.ids (choice : Choice) : List String :=
  choice.binding.names ++ choice.variants.map ChoiceVariant.id

/-- The identifiers that a service defines. -/
def ProcedureGroup.ids (group : ProcedureGroup) : List String :=
  group.procedures.map Procedure.id

namespace Module

/-- The identifiers that a module defines. -/
def localIds (module : Module) : List String :=
  module.unions.flatMap Union.ids ++ module.choices.flatMap Choice.ids ++
    module.records.flatMap (fun record => record.binding.names) ++
    module.services.flatMap ProcedureGroup.ids

/-- The union with an identifier. -/
def union? (module : Module) (id : String) : Option Union :=
  module.unions.find? fun union => union.binding.id = id

/-- The choice with an identifier. -/
def choice? (module : Module) (id : String) : Option Choice :=
  module.choices.find? fun choice => choice.binding.id = id

/-- The record with an identifier. -/
def record? (module : Module) (id : String) : Option Record :=
  module.records.find? fun record => record.binding.id = id

end Module

/-- The field of a record with a label. -/
def Record.field? (record : Record) (label : String) : Option RecordField :=
  record.fields.find? fun field => field.label = label

/-- The variant that stands for an absent value. -/
def Union.defaultVariant? (union : Union) : Option Variant :=
  union.variants[union.default]?

/-- The variant that an alias stands for. -/
def Union.aliased? (union : Union) (nickname : VariantAlias) : Option Variant :=
  union.variants[nickname.variant]?

/-! ## Imports -/

/-- The library module of dictionaries. -/
def dictModule : String := "Dict"

/-- The library module of byte sequences. -/
def bytesModule : String := "Bytes"

/-- The elements of a type. -/
def FieldType.elements : FieldType → List Element
  | single element => [element]
  | list element => [element]
  | map key value => [key, value]
  | maybe element => [element]
  | choice _ => []

/-- Whether a type is a dictionary. -/
def FieldType.isMap : FieldType → Bool
  | map _ _ => true
  | _ => false

/-- The module that an element mentions. -/
def Element.imports : Element → List String
  | scalar _ primitive => if primitive = .bytes then [bytesModule] else []
  | named binding => binding.module.toList

/-- The modules that a type mentions. -/
def FieldType.imports (type : FieldType) : List String :=
  (if type.isMap then [dictModule] else []) ++ type.elements.flatMap Element.imports

/-- The modules that a procedure mentions. -/
def Procedure.imports (procedure : Procedure) : List String :=
  procedure.input.module.toList ++ procedure.output.module.toList

/-- The fields of records and of the variants of choices. -/
def fieldsOf (records : List Record) (choices : List Choice) : List RecordField :=
  records.flatMap Record.fields ++
    choices.flatMap fun choice => choice.variants.map ChoiceVariant.field

/-- The modules that definitions mention, ascending and without repeats. -/
def importsOf (records : List Record) (choices : List Choice) (services : List ProcedureGroup) :
    List String :=
  Sequence.sortedSet
    ((fieldsOf records choices).flatMap (fun field => field.type.imports) ++
      (services.flatMap ProcedureGroup.procedures).flatMap Procedure.imports)

end ElmBinding
