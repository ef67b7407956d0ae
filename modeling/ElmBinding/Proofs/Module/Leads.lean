import ElmBinding.Proofs.Module.Leaders
import ElmBinding.Proofs.Module.Records

/-!
# Records, leader by leader

The record of a message has a field for every leader of the message.  A leader in a declared
oneof leads to a field that refers to a choice, and the members of the oneof become the fields
of the variants.  Any other leader becomes a field that holds its values itself: a field that
may be absent if the leader is in a synthetic oneof, and a plain one if it is in none.

Main results:

- Definition {lit}`Record.valueFields`: the fields of a record that hold values.
- Definition {lit}`Site.HasPlace`: how a field matches the field that holds its values.
- Theorem {lit}`Site.HasRecord.leads`: what a record is made of.
- Theorems {lit}`Site.forall₂_own`, {lit}`Site.forall₂_choices` and
  {lit}`Site.HasChoice.forall₂_fields`: where the fields of a message go.
-/

namespace ElmBinding

/-! ## Fields that hold values -/

/-- Whether a type is a choice. -/
def FieldType.isChoice : FieldType → Bool
  | choice _ => true
  | _ => false

/-- The fields of a record that hold values themselves and do not refer to a choice. -/
def Record.valueFields (record : Record) : List RecordField :=
  record.fields.filter fun field => !field.type.isChoice

/-- The fields of the variants of a choice. -/
def Choice.fields (choice : Choice) : List RecordField :=
  choice.variants.map ChoiceVariant.field

namespace Site

variable {site : Site} {ledger : Ledger} {message : Message}

/-! ## Leaders of records -/

/-- The field that holds the values of a field of a message. -/
inductive HasPlace (site : Site) (ledger : Ledger) (message : Message) (field : Field) :
    RecordField → Prop
  | plain {recordField : RecordField} (hplain : message.isOptional field = false)
      (hfield : site.HasField ledger field recordField) :
      HasPlace site ledger message field recordField
  | optional {label : String} {element : Element} (hoptional : message.isOptional field = true)
      (helement : site.HasElement ledger field element) :
      HasPlace site ledger message field
        { label, number := some field.number, cardinality := .optional,
          type := .maybe element, comments := field.comments }

/-- The record field of the slot that a field leads, with its choice if it has one. -/
inductive HasLead (site : Site) (ledger : Ledger) (message : Message) (field : Field) :
    RecordField × Option Choice → Prop
  | own {recordField : RecordField} (hown : message.choiceOf? field = none)
      (hplace : site.HasPlace ledger message field recordField) :
      HasLead site ledger message field (recordField, none)
  | choice {oneof : Oneof} {members : List Field} {label : String} {choice : Choice}
      (hmembers : message.choiceOf? field = some (oneof, members))
      (hchoice : site.HasChoice ledger oneof members choice) :
      HasLead site ledger message field (choiceField label choice, some choice)

/-- The slot that a field leads becomes what the field leads to. -/
theorem HasSlot.hasLead {field : Field} {made : RecordField × Option Choice}
    (h : site.HasSlot ledger (message.slotOf field) made) :
    site.HasLead ledger message field made := by
  unfold Message.slotOf at h
  cases hfield : field.oneof with
  | none =>
      rw [hfield] at h
      cases h with
      | plain hmade =>
          refine .own ?_ (.plain ?_ hmade)
          · simp [Message.choiceOf?, hfield]
          · simp [Message.isOptional, Message.oneofOf?, hfield]
  | some index =>
      simp only [hfield, Message.oneofSlot] at h
      cases hat : message.oneofs[index]? with
      | none =>
          rw [hat] at h
          cases h
      | some oneof =>
          cases hsynthetic : oneof.synthetic with
          | true =>
              simp only [hat, hsynthetic, if_true] at h
              cases h with
              | optional helement =>
                  refine .own ?_ (.optional ?_ helement)
                  · simp [Message.choiceOf?, Message.choiceAt?, Option.filter, hfield, hat,
                      hsynthetic]
                  · simp [Message.isOptional, Message.oneofOf?, hfield, hat, hsynthetic]
          | false =>
              simp only [hat, hsynthetic] at h
              cases h with
              | choice hchoice =>
                  refine .choice ?_ hchoice
                  simp [Message.choiceOf?, Message.choiceAt?, Option.filter, hfield, hat,
                    hsynthetic]

/-- A record is made of what the leaders of its message lead to. -/
theorem HasRecord.leads {made : Record × List Choice}
    (h : site.HasRecord ledger message made) :
    ∃ fields, List.Forall₂ (site.HasLead ledger message) message.leaders fields ∧
      made.1.fields = fields.map Prod.fst ∧ made.2 = fields.filterMap Prod.snd := by
  rcases h.slots with ⟨fields, hslots, hfields, hchoices⟩
  rw [message.slots_eq, List.forall₂_map_left_iff] at hslots
  exact ⟨fields, hslots.imp fun _ _ hslot => hslot.hasLead, hfields, hchoices⟩

/-- The field that holds values has the number of the field whose values it holds. -/
theorem HasPlace.number {field : Field} {recordField : RecordField}
    (h : site.HasPlace ledger message field recordField) :
    recordField.number = some field.number := by
  cases h with
  | plain hplain hfield => exact hfield.number
  | optional hoptional helement => rfl

/-- The field that holds values has the comments of the field whose values it holds. -/
theorem HasPlace.comments {field : Field} {recordField : RecordField}
    (h : site.HasPlace ledger message field recordField) :
    recordField.comments = field.comments := by
  cases h with
  | plain hplain hfield => exact hfield.comments
  | optional hoptional helement => rfl

/-- The field that holds values does not refer to a choice. -/
theorem HasPlace.isChoice_eq {field : Field} {recordField : RecordField}
    (h : site.HasPlace ledger message field recordField) :
    recordField.type.isChoice = false := by
  cases h with
  | plain hplain hfield =>
      have htype := hfield.type
      revert htype
      cases recordField.type with
      | choice binding => exact fun htype => by cases htype
      | _ => exact fun _ => rfl
  | optional hoptional helement => rfl

/-- The leaders without a declared oneof become the fields of the record that hold values. -/
theorem forall₂_own {leaders : List Field} {fields : List (RecordField × Option Choice)}
    (h : List.Forall₂ (site.HasLead ledger message) leaders fields) :
    List.Forall₂ (site.HasPlace ledger message)
      (leaders.filter fun field => (message.choiceOf? field).isNone)
      ((fields.map Prod.fst).filter fun field => !field.type.isChoice) := by
  induction h with
  | nil => exact .nil
  | cons hlead _ ih =>
      cases hlead with
      | own hown hplace =>
          simp only [List.map_cons, List.filter_cons, hown, hplace.isChoice_eq]
          exact .cons hplace ih
      | choice hmembers hchoice =>
          simp only [List.map_cons, List.filter_cons, hmembers, choiceField, FieldType.isChoice]
          exact ih

/-- The declared oneofs of leaders become the choices. -/
theorem forall₂_choices {leaders : List Field} {fields : List (RecordField × Option Choice)}
    (h : List.Forall₂ (site.HasLead ledger message) leaders fields) :
    List.Forall₂ (fun source choice => (∃ field, message.choiceOf? field = some source) ∧
        site.HasChoice ledger source.1 source.2 choice)
      (leaders.filterMap message.choiceOf?) (fields.filterMap Prod.snd) := by
  induction h with
  | nil => exact .nil
  | cons hlead _ ih =>
      cases hlead with
      | own hown hplace =>
          simp only [List.filterMap_cons, hown]
          exact ih
      | choice hmembers hchoice =>
          simp only [List.filterMap_cons, hmembers]
          exact .cons ⟨⟨_, hmembers⟩, hchoice⟩ ih

/-- The members of a declared oneof become the fields of the variants of its choice. -/
theorem HasChoice.forall₂_fields {field : Field} {oneof : Oneof} {members : List Field}
    {choice : Choice} (hmembers : message.choiceOf? field = some (oneof, members))
    (hchoice : site.HasChoice ledger oneof members choice) :
    List.Forall₂ (site.HasPlace ledger message) members choice.fields := by
  rcases Option.bind_eq_some_iff.mp hmembers with ⟨index, -, hchoiceAt⟩
  rcases Message.eq_of_choiceAt? hchoiceAt with ⟨hat, hdeclared, rfl⟩
  have hplain : ∀ member ∈ message.members index, message.isOptional member = false := by
    intro member hmember
    rw [Message.isOptional, Message.oneofOf?, (Message.mem_members_iff.mp hmember).2,
      Option.bind_some, hat, Option.any_some, hdeclared]
  rw [Choice.fields, List.forall₂_map_right_iff]
  apply ((List.forall₂_and_left _ _).mpr ⟨hplain, hchoice.variants⟩).imp
  rintro member variant ⟨hmember, hvariant⟩
  exact .plain hmember hvariant.field

end Site
end ElmBinding
