import ElmBinding.Module.Basic
import ElmBinding.Naming.Ledger
import ElmBinding.Schema.Slots

/-!
# Records of messages

A message becomes a record with a field for every slot.  The members of a oneof become the
variants of a choice, which the record refers to by one field.  Labels are told apart among
the fields of one record, or among the members of one choice.

Main definitions:

- Definition {lit}`Site.element`, {lit}`Site.fieldType`: the types of values and of fields.
- Definition {lit}`labelCandidate`: the label that a field would have if nothing clashed.
- Definition {lit}`Site.slotField`: the record field of a slot, with its choice if it has one.
- Definition {lit}`Site.record`: the record of a message, with its choices.
-/

namespace ElmBinding

open Name

/-! ## Types -/

/-- The error of a field whose values have no counterpart. -/
def unsupported (field : Field) : BindingError :=
  .unsupported field.fullName field.kind.text

namespace Site

/-- The type of a single value of a field. -/
def element (site : Site) (field : Field) : Naming Element :=
  match field.kind with
  | .scalar wire =>
      match wire.primitive? with
      | some primitive => return .scalar wire primitive
      | none => throw (unsupported field)
  | .enumeration target => do
      let binding ← site.reference target
      return .named binding
  | .message target => do
      let binding ← site.reference target
      return .named binding
  | .group _ => throw (unsupported field)

/-- The entry message of a map field, if a field refers to one. -/
def mapEntry? (site : Site) (field : Field) : Option Message :=
  match field.kind with
  | .message target => (site.registry.message? target.fullName).filter Message.mapEntry
  | _ => none

/-- The kind of a map field in reports. -/
def mapText (key value : Field) : String :=
  "map<" ++ key.kind.text ++ ", " ++ value.kind.text ++ ">"

/-- The type of a map field with an entry message. -/
def mapType (site : Site) (field : Field) (entry : Message) : Naming FieldType :=
  match entry.fields with
  | keyField :: valueField :: _ => do
      let key ← site.element keyField
      if key.isMapKey then
        let value ← site.element valueField
        return .map key value
      else
        throw (.unsupported field.fullName (mapText keyField valueField))
  | _ => throw (unsupported field)

/-- The type of a field. -/
def fieldType (site : Site) (field : Field) : Naming FieldType :=
  if field.cardinality = .repeated then
    match site.mapEntry? field with
    | some entry => site.mapType field entry
    | none => do
        let element ← site.element field
        return .list element
  else do
    let element ← site.element field
    return .single element

end Site

/-! ## Labels -/

/-- The label that a field would have if nothing clashed; it is no keyword. -/
def labelCandidate (name : String) : String :=
  let label := casing .value "" name
  if isKeyword label then "x" ++ casing .type "" name else label

/-- The labels of a record or choice before any is given out. -/
def blankLabels (settings : Settings) : Namespace :=
  .ofWords settings.collisionSuffix []

/-- Claim a label among others, on behalf of a declaration. -/
def claimLabel (labels : Namespace) (name fullName : String) : Naming (String × Namespace) :=
  match labels.claim (labelCandidate name) with
  | .ok claimed => return claimed
  | .error refused => throw (refusal fullName refused)

/-! ## Fields -/

namespace Site

/-- The record field of a schema field with a label. -/
def labelledField (site : Site) (label : String) (field : Field) : Naming RecordField := do
  let type ← site.fieldType field
  return {
    label, number := some field.number, cardinality := field.cardinality, type
    comments := field.comments }

/-- The variants of a choice between fields, next to the labels of earlier ones. -/
def choiceVariants (site : Site) (labels : Namespace) : List Field → Naming (List ChoiceVariant)
  | [] => return []
  | member :: rest => do
      let id ← site.typeId member.fullName
      let (label, labels) ← claimLabel labels member.name member.fullName
      let field ← site.labelledField label member
      let variants ← site.choiceVariants labels rest
      return ⟨id, field⟩ :: variants

/-- The choice of a oneof between its members. -/
def choice (site : Site) (oneof : Oneof) (members : List Field) : Naming Choice := do
  let binding ← site.binding oneof.fullName
  let variants ← site.choiceVariants (blankLabels site.settings) members
  return { binding, variants, comments := oneof.comments }

/-- The record field of a choice with a label. -/
def choiceField (label : String) (choice : Choice) : RecordField where
  label := label
  number := none
  cardinality := .optional
  type := .choice choice.binding
  comments := choice.comments

/--
The record field of a slot, next to the labels of earlier ones, with the choice that it
refers to and the labels including its own.
-/
def slotField (site : Site) (labels : Namespace) :
    Slot → Naming ((RecordField × Option Choice) × Namespace)
  | .plain field => do
      let (label, labels) ← claimLabel labels field.name field.fullName
      let recordField ← site.labelledField label field
      return ((recordField, none), labels)
  | .optional field => do
      let (label, labels) ← claimLabel labels field.name field.fullName
      let element ← site.element field
      let recordField : RecordField := {
        label, number := some field.number, cardinality := .optional
        type := .maybe element, comments := field.comments }
      return ((recordField, none), labels)
  | .choice oneof members => do
      let choice ← site.choice oneof members
      let (label, labels) ← claimLabel labels oneof.name oneof.fullName
      return ((choiceField label choice, some choice), labels)
  | .stray index count => throw (.breach (.strayIndex index count))

/-- The record fields of slots, next to the labels of earlier ones, with their choices. -/
def slotFields (site : Site) (labels : Namespace) :
    List Slot → Naming (List (RecordField × Option Choice))
  | [] => return []
  | slot :: rest => do
      let (field, labels) ← site.slotField labels slot
      let fields ← site.slotFields labels rest
      return field :: fields

/-- The record of a message, with the choices that it refers to. -/
def record (site : Site) (message : Message) : Naming (Record × List Choice) := do
  let binding ← site.binding message.fullName
  let fields ← site.slotFields (blankLabels site.settings) message.slots
  return ({ binding, fields := fields.map Prod.fst, comments := message.comments },
    fields.filterMap Prod.snd)

end Site

end ElmBinding
