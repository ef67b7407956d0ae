import ElmBinding.Proofs.Module.References
import ElmBinding.Proofs.Source.Oneofs

/-!
# No field is lost

The record of a message has its fields in the order of declaration.  A field outside of
oneofs has a field of its own, and so has an `optional` one, which may be absent.  The members
of a declared oneof have one field together, where the first of them stands, and this field
refers to the choice that has exactly the members as variants.  So every field of a schema has
one place in the module, with its number, and labels tell the fields of a record apart.

Main results:

- Definition {lit}`Schema.Keeps`: fields that keep the number and the kind of values.
- Definition {lit}`Module.Houses`: what stands in a record for a leader of its message.
- Definition {lit}`Layout.KeepsFields`: layouts in which no field is lost.
- Theorem {lit}`lookups_of_build`: what is found by identifier, and what by label.
- Theorem {lit}`fields_kept`: the module of a text keeps all fields.
-/

namespace ElmBinding

/-! ## Kept fields -/

/-- What a type says about the number of values. -/
inductive Shape where
  | single
  | list
  | map
  | maybe
  | choice
deriving DecidableEq, Repr

/-- The shape of a type. -/
def FieldType.shape : FieldType → Shape
  | single _ => .single
  | list _ => .list
  | map _ _ => .map
  | maybe _ => .maybe
  | choice _ => .choice

/-- A field of a record or a variant that keeps a field of a message. -/
structure Schema.Keeps (schema : Schema) (message : Message) (field : Field)
    (recordField : RecordField) : Prop where
  number : recordField.number = some field.number
  optional : message.isOptional field = true → recordField.type.shape = .maybe
  repeated : field.cardinality = .repeated →
    recordField.type.shape = if (schema.mapEntry? field).isSome then .map else .list
  plain : message.isOptional field = false → field.cardinality ≠ .repeated →
    recordField.type.shape = .single

/-- What stands in a record for a leader of its message. -/
inductive Module.Houses (module : Module) (schema : Schema) (message : Message) (field : Field) :
    RecordField → Prop
  | own {recordField : RecordField} (hown : message.choiceOf? field = none)
      (hkeeps : schema.Keeps message field recordField) :
      Houses module schema message field recordField
  | choice {oneof : Oneof} {members : List Field} {recordField : RecordField} {choice : Choice}
      (hmembers : message.choiceOf? field = some (oneof, members))
      (hnumber : recordField.number = none) (htype : recordField.type = .choice choice.binding)
      (hchoice : module.choice? choice.binding.id = some choice)
      (hvariants : List.Forall₂ (schema.Keeps message) members choice.fields) :
      Houses module schema message field recordField

/-- A layout in which no field of a schema is lost in a module. -/
structure Layout.KeepsFields (layout : Layout) (schema : Schema) (module : Module) : Prop where
  records : ∀ entry ∈ layout.records, List.Forall₂ (module.Houses schema entry.message)
    entry.message.leaders entry.record.fields
  fields : Pairing (schema.recordMessages.flatMap Message.fields) module.valueFields
    layout.fieldPairs
  kept : ∀ entry ∈ layout.records, ∀ pair ∈ entry.fieldPairs,
    schema.Keeps entry.message pair.1 pair.2
  recordLabels : ∀ record ∈ module.records, (record.fields.map RecordField.label).Nodup
  choiceLabels : ∀ choice ∈ module.choices, (choice.fields.map RecordField.label).Nodup

/-! ## Fields of tidy messages -/

/-- The messages of a tidy schema that have records are tidy. -/
theorem Schema.Tidy.of_mem_recordMessages {schema : Schema} (htidy : schema.Tidy)
    {message : Message} (hmem : message ∈ schema.recordMessages) : message.Tidy :=
  htidy message (List.mem_filter.mp hmem).1

/-- A field in a synthetic oneof of a tidy message is not repeated. -/
theorem Message.Tidy.single_of_isOptional {message : Message} (htidy : message.Tidy)
    {field : Field} (hfield : field ∈ message.fields)
    (hoptional : message.isOptional field = true) : field.cardinality = .optional := by
  apply htidy.single field hfield
  rintro hnone
  simp [isOptional, oneofOf?, hnone] at hoptional

/-- The placed fields of a tidy message are fields of it. -/
theorem RecordLayout.mem_fields_of_mem {site : Site} {ledger : Ledger} {entry : RecordLayout}
    (htidy : entry.message.Tidy)
    (hrecord : site.HasRecord ledger entry.message (entry.record, entry.choices))
    {pair : Field × RecordField} (hpair : pair ∈ entry.fieldPairs) :
    pair.1 ∈ entry.message.fields :=
  htidy.placedFields_perm.mem_iff.mp
    ((pairing_fields hrecord).sources.mem_iff.mp (List.mem_map_of_mem hpair))

/-- The shape of the type of a field depends on its cardinality, and on whether it is a map. -/
theorem Site.HasType.shape_eq {site : Site} {ledger : Ledger} {field : Field} {type : FieldType}
    (h : site.HasType ledger field type) :
    type.shape = if field.cardinality = .repeated then
      if (site.mapEntry? field).isSome then .map else .list
    else
      .single := by
  cases h with
  | single hsingle helement => rw [if_neg hsingle, FieldType.shape]
  | list hrepeated hentry helement => simp [hrepeated, hentry, FieldType.shape]
  | map hrepeated hentry hfields hkey hmapKey hvalue =>
      simp [hrepeated, hentry, FieldType.shape]

namespace Origination

variable {settings : Settings} {schema : Schema} {module : Module} {layout : Layout}
  {site : Site} {ledger : Ledger} {entry : RecordLayout}

/-- The field that holds the values of a field of a tidy message keeps that field. -/
theorem keeps (h : Origination settings schema module layout site ledger) {message : Message}
    (htidy : message.Tidy) {field : Field} (hfield : field ∈ message.fields)
    {recordField : RecordField} (hplace : site.HasPlace ledger message field recordField) :
    schema.Keeps message field recordField := by
  cases hplace with
  | optional hoptional helement =>
      have hsingle := htidy.single_of_isOptional hfield hoptional
      refine ⟨rfl, fun _ => rfl, ?_, ?_⟩
      · intro hrepeated
        rw [hsingle] at hrepeated
        contradiction
      · intro hplain
        rw [hoptional] at hplain
        contradiction
  | plain hplain hmade =>
      have hshape := hmade.type.shape_eq
      rw [h.mapEntry?_eq] at hshape
      refine ⟨hmade.number, ?_, ?_, ?_⟩
      · intro hoptional
        rw [hoptional] at hplain
        contradiction
      · intro hrepeated
        rw [hshape, if_pos hrepeated]
      · intro _ hsingle
        rw [hshape, if_neg hsingle]

/-- The choices of a message are choices of the module. -/
theorem mem_choices (h : Origination settings schema module layout site ledger)
    (hentry : entry ∈ layout.records) {choice : Choice} (hchoice : choice ∈ entry.choices) :
    choice ∈ module.choices := by
  have hpairing := RecordLayout.pairing_choices (h.stems.records entry hentry)
  rcases hpairing.exists_of_item hchoice with ⟨source, -, hpair⟩
  exact h.lists.mem_choices hentry hpair

/-- The record of a tidy message has for each leader what the module houses it with. -/
theorem houses (h : Origination settings schema module layout site ledger)
    (hascending : module.Ascending) (hentry : entry ∈ layout.records)
    (htidy : entry.message.Tidy) :
    List.Forall₂ (module.Houses schema entry.message) entry.message.leaders
      entry.record.fields := by
  rcases RecordLayout.exists_leads (h.stems.records entry hentry) with
    ⟨fields, hleads, hfields, hchoices⟩
  rw [hfields, List.forall₂_map_right_iff]
  rw [List.forall₂_iff_zip] at hleads ⊢
  refine ⟨hleads.1, ?_⟩
  intro field made hpair
  have hfield : field ∈ entry.message.fields :=
    (leadersAfter_sublist [] entry.message.fields).subset (List.of_mem_zip hpair).1
  cases hleads.2 hpair with
  | own hown hplace => exact .own hown (h.keeps htidy hfield hplace)
  | @choice oneof members label choice hmembers hchoice =>
      have hmem : choice ∈ module.choices := by
        apply h.mem_choices hentry
        rw [hchoices]
        exact List.mem_filterMap.mpr ⟨_, (List.of_mem_zip hpair).2, rfl⟩
      have hkeeps : ∀ member ∈ members, member ∈ entry.message.fields := by
        intro member hmember
        rcases Option.bind_eq_some_iff.mp hmembers with ⟨index, -, hchoiceAt⟩
        rcases Message.eq_of_choiceAt? hchoiceAt with ⟨-, -, rfl⟩
        exact (Message.mem_members_iff.mp hmember).1
      refine .choice hmembers rfl rfl
        (hascending.choice?_eq_some_iff.mpr ⟨hmem, rfl⟩) ?_
      apply ((List.forall₂_and_left _ _).mpr ⟨hkeeps, hchoice.forall₂_fields hmembers⟩).imp
      rintro member recordField ⟨hmember, hplace⟩
      exact h.keeps htidy hmember hplace

/-- The labels of a record are distinct. -/
theorem recordLabels_nodup (h : Origination settings schema module layout site ledger)
    {record : Record} (hrecord : record ∈ module.records) :
    (record.fields.map RecordField.label).Nodup := by
  rcases h.lists.exists_entry_of_record hrecord with ⟨entry, hentry, rfl⟩
  exact (h.stems.records entry hentry).labels.distinct.1

/-- The labels of a choice are distinct. -/
theorem choiceLabels_nodup (h : Origination settings schema module layout site ledger)
    {choice : Choice} (hchoice : choice ∈ module.choices) :
    (choice.fields.map RecordField.label).Nodup := by
  rcases h.lists.exists_entry_of_choice hchoice with ⟨entry, hentry, source, -, hpair⟩
  have hmade := (RecordLayout.hasChoice_of_mem (h.stems.records entry hentry) hpair).2
  rw [Choice.fields, List.map_map]
  exact hmade.labels.distinct.1

end Origination

/--
What a module defines is found by its identifier, and the fields of a record by their labels.
A look-up finds nothing else.
-/
theorem lookups_of_build {settings : Settings} {schema : Schema} {module : Module}
    (h : buildModule settings schema = .ok module) (text : String) :
    (∀ union, module.union? text = some union ↔
        union ∈ module.unions ∧ union.binding.id = text) ∧
      (∀ choice, module.choice? text = some choice ↔
        choice ∈ module.choices ∧ choice.binding.id = text) ∧
      ∀ record, (module.record? text = some record ↔
          record ∈ module.records ∧ record.binding.id = text) ∧
        (record ∈ module.records → ∀ field, record.field? text = some field ↔
          field ∈ record.fields ∧ field.label = text) := by
  have hascending := ascending_of_build h
  rcases exists_layout h with ⟨layout, site, ledger, horigin⟩
  refine ⟨fun _ => hascending.union?_eq_some_iff, fun _ => hascending.choice?_eq_some_iff,
    fun record => ⟨hascending.record?_eq_some_iff, fun hrecord field => ?_⟩⟩
  exact Sequence.find?_eq_some_iff_of_nodup (horigin.recordLabels_nodup hrecord)

/--
In the module of a text no field of a message is lost: the record of a message has a field for
each leader of the message, in their order, and each field of a message is kept either in the
record or in exactly one variant of a choice.
-/
theorem fields_kept {source : String} {settings : Settings} {schema : Schema} {module : Module}
    (hschema : Source.schemaOfText source = .ok schema)
    (hmodule : buildModule settings schema = .ok module) :
    ∃ layout, layoutOf settings schema = .ok layout ∧ layout.Lists schema module ∧
      layout.KeepsFields schema module := by
  rcases exists_layout hmodule with ⟨layout, site, ledger, horigin⟩
  have hmessages : ∀ message ∈ schema.recordMessages, message.Tidy := by
    intro message hmem
    exact Source.tidy_of_schemaOfText hschema message (List.mem_filter.mp hmem).1
  have htidy : ∀ entry ∈ layout.records, entry.message.Tidy := by
    intro entry hentry
    exact hmessages _ (horigin.lists.message_mem hentry)
  have hascending := ascending_of_build hmodule
  refine ⟨layout, horigin.layout_eq, horigin.lists, ?_⟩
  exact {
    records := fun entry hentry => horigin.houses hascending hentry (htidy entry hentry)
    fields := by
      apply horigin.lists.fields.perm _ (List.Perm.refl _)
      exact List.Perm.flatMap_left _ fun message hmem => (hmessages message hmem).placedFields_perm
    kept := by
      intro entry hentry pair hpair
      have hrecord := horigin.stems.records entry hentry
      exact horigin.keeps (htidy entry hentry)
        (RecordLayout.mem_fields_of_mem (htidy entry hentry) hrecord hpair)
        (RecordLayout.hasPlace_of_mem hrecord hpair)
    recordLabels := fun _ => horigin.recordLabels_nodup
    choiceLabels := fun _ => horigin.choiceLabels_nodup }

/-- A text with a oneof, an optional field, a repeated one and a map. -/
def parcelText : String :=
  "syntax = \"proto3\"; message M \x7b oneof way \x7b int32 a = 1; M b = 2; \x7d " ++
    "optional bool c = 3; repeated M d = 4; map<string, M> e = 5; \x7d"

/-- The parcel keeps its fields. -/
theorem fields_parcelText :
    ∃ schema module, Source.schemaOfText parcelText = .ok schema ∧
      buildModule {} schema = .ok module ∧
      ∃ layout, layoutOf {} schema = .ok layout ∧ layout.Lists schema module ∧
        layout.KeepsFields schema module := by
  have hok : (Source.schemaOfText parcelText).toOption.any
      (fun schema => (buildModule {} schema).isOk) = true := by
    decide +kernel
  cases hschema : Source.schemaOfText parcelText with
  | error error =>
      rw [hschema] at hok
      contradiction
  | ok schema =>
      rw [hschema] at hok
      cases hmodule : buildModule {} schema with
      | error error =>
          simp [hmodule, Except.toOption, Except.isOk, Except.toBool] at hok
      | ok module => exact ⟨schema, module, rfl, hmodule, fields_kept hschema hmodule⟩

end ElmBinding
