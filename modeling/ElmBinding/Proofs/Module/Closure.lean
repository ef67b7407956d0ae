import ElmBinding.Proofs.Module.Fields
import ElmBinding.Proofs.Schema.Clashes
import ElmBinding.Proofs.Schema.Targets

/-!
# Which modules are closed

A module is closed if every local binding that it mentions is the binding of one of its
definitions.  The module of a text mentions the types that its messages and methods refer to.
All of them are declared in the text and have local bindings, but entries of maps have no
definitions.  A map field refers to its entry without mentioning it.  Any other reference to
an entry, such as a field that is not repeated and names the entry as its type, dangles.

Main results:

- Definition {lit}`Module.IsClosed`: modules without dangling bindings.
- Definition {lit}`Schema.mentionsEntry`: whether a schema uses an entry as a type of values.
- Theorem {lit}`Origination.forall₂_elements`: the elements of a type, field by field.
- Theorem {lit}`Origination.forall₂_means`: what a type mentions, reference by reference.
- Theorem {lit}`isClosed_iff`: which modules of texts are closed.
-/

namespace ElmBinding

/-! ## Mentioned and defined bindings -/

/-- The binding of an element, if it has one. -/
def Element.binding? : Element → Option Binding
  | scalar _ _ => none
  | named binding => some binding

/-- The bindings that a type mentions. -/
def FieldType.bindings : FieldType → List Binding
  | choice binding => [binding]
  | type => type.elements.filterMap Element.binding?

/-- The bindings that a procedure mentions. -/
def Procedure.bindings (procedure : Procedure) : List Binding :=
  [procedure.input, procedure.output]

namespace Module

/-- The bindings that the fields, variants and procedures of a module mention. -/
def mentioned (module : Module) : List Binding :=
  (fieldsOf module.records module.choices).flatMap (fun field => field.type.bindings) ++
    (module.services.flatMap ProcedureGroup.procedures).flatMap Procedure.bindings

/-- The bindings of the definitions of a module. -/
def defined (module : Module) : List Binding :=
  module.unions.map Union.binding ++ module.records.map Record.binding ++
    module.choices.map Choice.binding

/-- A module that defines all local bindings that it mentions. -/
def IsClosed (module : Module) : Prop :=
  ∀ binding ∈ module.mentioned, binding.isLocal = true → binding ∈ module.defined

instance (module : Module) : Decidable module.IsClosed :=
  inferInstanceAs (Decidable (∀ _ ∈ _, _))

end Module

namespace Schema

/-- The fields whose values a field holds: those of its entry if it is a map, or else itself. -/
def valueSources (schema : Schema) (field : Field) : List Field :=
  if field.cardinality = .repeated then
    match schema.mapEntry? field with
    | some entry => entry.fields.take 2
    | none => [field]
  else
    [field]

/-- The fields whose values a field of a message holds; one that may be absent holds its own. -/
def heldFields (schema : Schema) (message : Message) (field : Field) : List Field :=
  if message.isOptional field then [field] else schema.valueSources field

/-- The types of the values that a field holds, as far as they have names. -/
def fieldTargets (schema : Schema) (field : Field) : List Reference :=
  (schema.valueSources field).filterMap fun source => source.kind.target?

/-- The types that the records and procedures of a module mention. -/
def targets (schema : Schema) : List Reference :=
  (schema.recordMessages.flatMap Message.fields).flatMap schema.fieldTargets ++
    (schema.services.flatMap Service.methods).flatMap fun method => [method.input, method.output]

/-- The names of what a module defines bindings for. -/
def definedNames (schema : Schema) : List String :=
  schema.allEnums.map Enumeration.fullName ++ (schema.recordMessages.map Message.fullName ++
    (schema.recordMessages.flatMap Message.declaredChoices).map fun choice => choice.1.fullName)

/-- Whether an entry of a map is mentioned as a type of values. -/
def mentionsEntry (schema : Schema) : Bool :=
  schema.targets.any fun target => schema.allMessages.any fun message =>
    message.mapEntry && message.fullName = target.fullName

end Schema

/-- A schema mentions an entry of a map if a type that it mentions is one. -/
theorem Schema.mentionsEntry_eq_true_iff {schema : Schema} :
    schema.mentionsEntry = true ↔ ∃ target ∈ schema.targets, ∃ message ∈ schema.allMessages,
      message.mapEntry = true ∧ message.fullName = target.fullName := by
  simp [mentionsEntry]

/-- The entry of a map that a field refers to is a message of the schema. -/
theorem Schema.mem_of_mapEntry? {schema : Schema} {field : Field} {entry : Message}
    (h : schema.mapEntry? field = some entry) : entry ∈ schema.allMessages := by
  rcases Schema.mapEntry?_eq_some_iff.mp h with ⟨target, -, hfound, -⟩
  exact List.mem_of_find?_eq_some hfound

/-- What holds of the types of fields and methods holds of all types that a schema mentions. -/
theorem Schema.forall_targets {schema : Schema} {holds : Reference → Prop}
    (hfields : ∀ message ∈ schema.allMessages, ∀ field ∈ message.fields, ∀ target,
      field.kind.target? = some target → holds target)
    (hmethods : ∀ service ∈ schema.services, ∀ method ∈ service.methods,
      holds method.input ∧ holds method.output) : ∀ target ∈ schema.targets, holds target := by
  intro target htarget
  rcases List.mem_append.mp htarget with hfield | hmethod
  · rcases List.mem_flatMap.mp hfield with ⟨field, hfield, htarget⟩
    rcases List.mem_flatMap.mp hfield with ⟨message, hmessage, hfield⟩
    rcases List.mem_filterMap.mp htarget with ⟨source, hsource, htarget⟩
    have hplace : ∃ message ∈ schema.allMessages, source ∈ message.fields := by
      have hself : source = field → ∃ message ∈ schema.allMessages, source ∈ message.fields := by
        rintro rfl
        exact ⟨message, (List.mem_filter.mp hmessage).1, hfield⟩
      unfold Schema.valueSources at hsource
      split at hsource
      · split at hsource
        · rename_i entry hentry
          exact ⟨entry, Schema.mem_of_mapEntry? hentry, List.mem_of_mem_take hsource⟩
        · exact hself (List.mem_singleton.mp hsource)
      · exact hself (List.mem_singleton.mp hsource)
    rcases hplace with ⟨owner, howner, hsource⟩
    exact hfields owner howner source hsource target htarget
  · rcases List.mem_flatMap.mp hmethod with ⟨method, hmethod, htarget⟩
    rcases List.mem_flatMap.mp hmethod with ⟨service, hservice, hmethod⟩
    rcases hmethods service hservice method hmethod with ⟨hinput, houtput⟩
    simp only [List.mem_cons, List.not_mem_nil, or_false] at htarget
    rcases htarget with rfl | rfl
    · exact hinput
    · exact houtput

/-- The types that a linked schema mentions are declared in it. -/
theorem Schema.Linked.declaresType {schema : Schema} (h : schema.Linked) {target : Reference}
    (htarget : target ∈ schema.targets) : schema.DeclaresType target.fullName :=
  Schema.forall_targets h.fields h.methods target htarget

/-- An element has a binding if its field refers to a type, and it is what that type means. -/
theorem Site.HasElement.rel_means {site : Site} {ledger : Ledger} {field : Field}
    {element : Element} (h : site.HasElement ledger field element) :
    Option.Rel (site.Means ledger) field.kind.target? element.binding? := by
  cases h with
  | scalar hkind hprimitive =>
      rw [hkind]
      exact .none
  | enumeration hkind hmeans | message hkind hmeans =>
      rw [hkind]
      exact .some hmeans

namespace Catalog

variable {catalog : Catalog} {message : Message}

/-- The name of a message is no name of an enumeration. -/
theorem fullName_notMem_enums (h : catalog.names.Nodup) (hmessage : message ∈ catalog.messages) :
    message.fullName ∉ catalog.enums.map Enumeration.fullName := by
  rw [names, List.nodup_append'] at h
  intro hmem
  rcases List.mem_map.mp hmem with ⟨enumeration, henum, hname⟩
  have hown : message.fullName ∈ enumeration.names := List.mem_cons.mpr (Or.inl hname.symm)
  apply h.2.2 (List.mem_flatMap.mpr ⟨enumeration, henum, hown⟩)
  exact List.mem_append_left _ (List.mem_flatMap.mpr ⟨message, hmessage, List.mem_cons_self⟩)

/-- The name of a message is no name of a oneof, nor of a member of one. -/
theorem fullName_notMem_looseNames (h : catalog.names.Nodup)
    (hmessage : message ∈ catalog.messages) {owner : Message} (howner : owner ∈ catalog.messages) :
    message.fullName ∉ owner.looseNames := by
  rw [names, List.nodup_append', List.nodup_append'] at h
  have hsplit : (catalog.messages.map Message.fullName ++
      catalog.messages.flatMap Message.looseNames).Perm (catalog.messages.flatMap Message.names) :=
    List.map_append_flatMap_perm _ _ _
  have hnodup := hsplit.nodup_iff.mpr h.2.1.1
  rw [List.nodup_append'] at hnodup
  intro hmem
  exact hnodup.2.2 (List.mem_map_of_mem hmessage) (List.mem_flatMap.mpr ⟨owner, howner, hmem⟩)

end Catalog

/-- The fields of a module that hold values are among its fields. -/
theorem Module.valueFields_subset (module : Module) :
    module.valueFields ⊆ fieldsOf module.records module.choices := by
  intro recordField hmem
  rcases List.mem_append.mp hmem with hmem | hmem
  · rcases List.mem_flatMap.mp hmem with ⟨record, hrecord, hfield⟩
    apply List.mem_append_left
    exact List.mem_flatMap.mpr ⟨record, hrecord, (List.mem_filter.mp hfield).1⟩
  · exact List.mem_append_right _ hmem

/-- A type that is no choice mentions the bindings of its elements. -/
theorem FieldType.bindings_eq {type : FieldType} (h : type.isChoice = false) :
    type.bindings = type.elements.filterMap Element.binding? := by
  cases type with
  | choice binding => contradiction
  | _ => rfl

namespace Origination

variable {settings : Settings} {schema : Schema} {module : Module} {layout : Layout}
  {site : Site} {ledger : Ledger} {message : Message} {field : Field} {recordField : RecordField}

/-! ## Values of fields -/

/-- The elements of a type are those of the fields whose values it holds. -/
theorem forall₂_heldFields (h : Origination settings schema module layout site ledger)
    (hplace : site.HasPlace ledger message field recordField) :
    List.Forall₂ (site.HasElement ledger) (schema.heldFields message field)
      recordField.type.elements := by
  cases hplace with
  | optional hoptional helement =>
      rw [Schema.heldFields, if_pos hoptional]
      exact .cons helement .nil
  | plain hplain hmade =>
      rw [Schema.heldFields, hplain, if_neg Bool.false_ne_true]
      have htype := hmade.type
      revert htype
      generalize recordField.type = type
      intro htype
      cases htype with
      | single hsingle helement =>
          rw [Schema.valueSources, if_neg hsingle]
          exact .cons helement .nil
      | list hrepeated hentry helement =>
          rw [h.mapEntry?_eq] at hentry
          rw [Schema.valueSources, if_pos hrepeated, hentry]
          exact .cons helement .nil
      | map hrepeated hentry hfields hkey hmapKey hvalue =>
          rw [h.mapEntry?_eq] at hentry
          rw [Schema.valueSources, if_pos hrepeated, hentry]
          simp only [hfields, List.take_succ_cons, List.take_zero]
          exact .cons hkey (.cons hvalue .nil)

/-- In a tidy message the elements of a type are those of the entry or of the field itself. -/
theorem forall₂_elements (h : Origination settings schema module layout site ledger)
    (htidy : message.Tidy) (hfield : field ∈ message.fields)
    (hplace : site.HasPlace ledger message field recordField) :
    List.Forall₂ (site.HasElement ledger) (schema.valueSources field)
      recordField.type.elements := by
  have hheld := h.forall₂_heldFields hplace
  cases hoptional : message.isOptional field with
  | false =>
      rw [Schema.heldFields, hoptional, if_neg Bool.false_ne_true] at hheld
      exact hheld
  | true =>
      rw [Schema.heldFields, if_pos hoptional] at hheld
      have hsingle := htidy.single_of_isOptional hfield hoptional
      have hown : schema.valueSources field = [field] := by
        simp only [Schema.valueSources, hsingle, reduceCtorEq, if_false]
      rw [hown]
      exact hheld

/-- What the type of a field mentions is what the field refers to means, one by one. -/
theorem forall₂_means (h : Origination settings schema module layout site ledger)
    (htidy : message.Tidy) (hfield : field ∈ message.fields)
    (hplace : site.HasPlace ledger message field recordField) :
    List.Forall₂ (site.Means ledger) (schema.fieldTargets field) recordField.type.bindings := by
  rw [FieldType.bindings_eq hplace.isChoice_eq]
  exact List.rel_filterMap (fun _ _ helement => helement.rel_means)
    (h.forall₂_elements htidy hfield hplace)

/-! ## Places in the module -/

/-- A field that holds values does so for a placed field of a message that has a record. -/
theorem exists_placed (h : Origination settings schema module layout site ledger)
    (hmem : recordField ∈ module.valueFields) :
    ∃ message ∈ schema.recordMessages, ∃ field ∈ message.placedFields,
      site.HasPlace ledger message field recordField := by
  rcases h.lists.fields.exists_of_item hmem with ⟨field, -, hpair⟩
  rcases List.mem_flatMap.mp hpair with ⟨entry, hentry, hpair⟩
  have hrecord := h.stems.records entry hentry
  exact ⟨entry.message, h.lists.message_mem hentry, field,
    (RecordLayout.pairing_fields hrecord).sources.mem_iff.mp (List.mem_map_of_mem hpair),
    RecordLayout.hasPlace_of_mem hrecord hpair⟩

/-- The values of a placed field of a message that has a record have a place. -/
theorem exists_place_of_placed (h : Origination settings schema module layout site ledger)
    (hmessage : message ∈ schema.recordMessages) (hfield : field ∈ message.placedFields) :
    ∃ recordField ∈ module.valueFields, site.HasPlace ledger message field recordField := by
  rcases h.lists.exists_entry_of_message hmessage with ⟨entry, hentry, rfl⟩
  have hrecord := h.stems.records entry hentry
  rcases (RecordLayout.pairing_fields hrecord).exists_of_source hfield with
    ⟨recordField, -, hpair⟩
  exact ⟨recordField, h.lists.mem_valueFields hentry hpair,
    RecordLayout.hasPlace_of_mem hrecord hpair⟩

/-- In a tidy schema a field that holds values does so for a field of a message. -/
theorem exists_source (h : Origination settings schema module layout site ledger)
    (htidy : schema.Tidy) (hmem : recordField ∈ module.valueFields) :
    ∃ message ∈ schema.recordMessages, ∃ field ∈ message.fields,
      site.HasPlace ledger message field recordField := by
  rcases h.exists_placed hmem with ⟨message, hmessage, field, hfield, hplace⟩
  have htidyMessage := htidy.of_mem_recordMessages hmessage
  exact ⟨message, hmessage, field, htidyMessage.placedFields_perm.mem_iff.mp hfield, hplace⟩

/-- In a tidy schema the values of a field of a message that has a record have a place. -/
theorem exists_place (h : Origination settings schema module layout site ledger)
    (htidy : schema.Tidy) (hmessage : message ∈ schema.recordMessages)
    (hfield : field ∈ message.fields) :
    ∃ recordField ∈ module.valueFields, site.HasPlace ledger message field recordField :=
  h.exists_place_of_placed hmessage
    ((htidy.of_mem_recordMessages hmessage).placedFields_perm.mem_iff.mpr hfield)

/-- A field of a record holds values or refers to a choice of the module. -/
theorem mem_valueFields_or_choice (h : Origination settings schema module layout site ledger)
    (hmem : recordField ∈ fieldsOf module.records module.choices) :
    recordField ∈ module.valueFields ∨
      ∃ choice ∈ module.choices, recordField.type = .choice choice.binding := by
  rcases List.mem_append.mp hmem with hmem | hmem
  · rcases List.mem_flatMap.mp hmem with ⟨record, hrecord, hfield⟩
    rcases h.lists.exists_entry_of_record hrecord with ⟨entry, hentry, rfl⟩
    rcases RecordLayout.exists_leads (h.stems.records entry hentry) with
      ⟨fields, hleads, hfields, hchoices⟩
    rw [hfields] at hfield
    rcases List.mem_map.mp hfield with ⟨made, hmade, rfl⟩
    rcases exists_of_forall₂_of_mem hleads hmade with ⟨leader, -, hlead⟩
    cases hlead with
    | own hown hplace =>
        apply Or.inl (List.mem_append_left _ _)
        refine List.mem_flatMap.mpr ⟨entry.record, hrecord, ?_⟩
        rw [Record.valueFields, hfields]
        exact List.mem_filter.mpr ⟨hfield, by simp [hplace.isChoice_eq]⟩
    | @choice oneof members label choice hmembers hchoice =>
        refine Or.inr ⟨choice, h.mem_choices hentry ?_, rfl⟩
        rw [hchoices]
        exact List.mem_filterMap.mpr ⟨_, hmade, rfl⟩
  · exact Or.inl (List.mem_append_right _ hmem)

/-- A procedure of a module stands for a method of a service. -/
theorem exists_method (h : Origination settings schema module layout site ledger)
    {procedure : Procedure}
    (hmem : procedure ∈ module.services.flatMap ProcedureGroup.procedures) :
    ∃ service ∈ schema.services, ∃ method ∈ service.methods,
      site.HasProcedure ledger service.fullName method procedure := by
  rcases List.mem_flatMap.mp hmem with ⟨group, hgroup, hprocedure⟩
  rcases h.lists.services.exists_of_item hgroup with ⟨service, hservice, hpair⟩
  rcases (h.stems.services _ hpair).exists_pairing with ⟨pairs, hpairing, hmade⟩
  rcases hpairing.exists_of_item hprocedure with ⟨method, hmethod, hpair⟩
  exact ⟨service, hservice, method, hmethod, hmade _ hpair⟩

/-- A method of a service has a procedure in the module. -/
theorem exists_procedure (h : Origination settings schema module layout site ledger)
    {service : Service} {method : Method} (hservice : service ∈ schema.services)
    (hmethod : method ∈ service.methods) :
    ∃ procedure ∈ module.services.flatMap ProcedureGroup.procedures,
      site.HasProcedure ledger service.fullName method procedure := by
  rcases h.lists.services.exists_of_source hservice with ⟨group, hgroup, hpair⟩
  rcases (h.stems.services _ hpair).exists_pairing with ⟨pairs, hpairing, hmade⟩
  rcases hpairing.exists_of_source hmethod with ⟨procedure, hprocedure, hpair⟩
  exact ⟨procedure, List.mem_flatMap.mpr ⟨group, hgroup, hprocedure⟩, hmade _ hpair⟩

/-- What a module mentions is the binding of a choice, or what a type of the schema means. -/
theorem target_of_mem_mentioned (h : Origination settings schema module layout site ledger)
    (htidy : schema.Tidy) {binding : Binding} (hmem : binding ∈ module.mentioned) :
    (∃ choice ∈ module.choices, choice.binding = binding) ∨
      ∃ target ∈ schema.targets, site.Means ledger target binding := by
  rcases List.mem_append.mp hmem with hfields | hprocedures
  · rcases List.mem_flatMap.mp hfields with ⟨recordField, hfield, hbinding⟩
    rcases h.mem_valueFields_or_choice hfield with hvalue | ⟨choice, hchoice, htype⟩
    · rcases h.exists_source htidy hvalue with ⟨message, hmessage, field, hfield, hplace⟩
      have htidyMessage := htidy.of_mem_recordMessages hmessage
      rcases exists_of_forall₂_of_mem (h.forall₂_means htidyMessage hfield hplace) hbinding with
        ⟨target, htarget, hmeans⟩
      refine Or.inr ⟨target, List.mem_append_left _ ?_, hmeans⟩
      exact List.mem_flatMap.mpr
        ⟨field, List.mem_flatMap.mpr ⟨message, hmessage, hfield⟩, htarget⟩
    · rw [htype, FieldType.bindings, List.mem_singleton] at hbinding
      exact Or.inl ⟨choice, hchoice, hbinding.symm⟩
  · rcases List.mem_flatMap.mp hprocedures with ⟨procedure, hprocedure, hbinding⟩
    rcases h.exists_method hprocedure with ⟨service, hservice, method, hmethod, hmeant⟩
    have htargets : ∀ target ∈ [method.input, method.output], target ∈ schema.targets := by
      intro target htarget
      apply List.mem_append_right
      exact List.mem_flatMap.mpr
        ⟨method, List.mem_flatMap.mpr ⟨service, hservice, hmethod⟩, htarget⟩
    simp only [Procedure.bindings, List.mem_cons, List.not_mem_nil, or_false] at hbinding
    rcases hbinding with rfl | rfl
    · exact Or.inr ⟨method.input, htargets _ (by simp), hmeant.input⟩
    · exact Or.inr ⟨method.output, htargets _ (by simp), hmeant.output⟩

/-- What a type of the schema means is mentioned. -/
theorem mem_mentioned_of_target (h : Origination settings schema module layout site ledger)
    (htidy : schema.Tidy) {target : Reference} (htarget : target ∈ schema.targets) :
    ∃ binding ∈ module.mentioned, site.Means ledger target binding := by
  rcases List.mem_append.mp htarget with hfields | hmethods
  · rcases List.mem_flatMap.mp hfields with ⟨field, hfield, htarget⟩
    rcases List.mem_flatMap.mp hfield with ⟨message, hmessage, hfield⟩
    rcases h.exists_place htidy hmessage hfield with ⟨recordField, hvalue, hplace⟩
    have htidyMessage := htidy.of_mem_recordMessages hmessage
    have hmeant := (h.forall₂_means htidyMessage hfield hplace).flip
    rcases exists_of_forall₂_of_mem hmeant htarget with ⟨binding, hbinding, hmeans⟩
    refine ⟨binding, List.mem_append_left _ ?_, hmeans⟩
    exact List.mem_flatMap.mpr ⟨recordField, module.valueFields_subset hvalue, hbinding⟩
  · rcases List.mem_flatMap.mp hmethods with ⟨method, hmethod, htarget⟩
    rcases List.mem_flatMap.mp hmethod with ⟨service, hservice, hmethod⟩
    rcases h.exists_procedure hservice hmethod with ⟨procedure, hprocedure, hmeant⟩
    have hmentioned : ∀ binding ∈ procedure.bindings, binding ∈ module.mentioned := by
      intro binding hbinding
      apply List.mem_append_right
      exact List.mem_flatMap.mpr ⟨procedure, hprocedure, hbinding⟩
    simp only [List.mem_cons, List.not_mem_nil, or_false] at htarget
    rcases htarget with rfl | rfl
    · exact ⟨procedure.input, hmentioned _ (by simp [Procedure.bindings]), hmeant.input⟩
    · exact ⟨procedure.output, hmentioned _ (by simp [Procedure.bindings]), hmeant.output⟩

/-! ## Names of definitions -/

/-- What a declared type means is local and stands in the ledger. -/
theorem lookup_of_means (h : Origination settings schema module layout site ledger)
    {target : Reference} {binding : Binding} (hdeclared : schema.DeclaresType target.fullName)
    (hmeans : site.Means ledger target binding) :
    ledger.bindings.lookup target.fullName = some binding := by
  have hregistered := Registry.isRegistered_of_declaresType h.registry hdeclared
  rw [Site.Means, if_pos hregistered] at hmeans
  exact hmeans

/-- The bindings that a module defines stand in the ledger, under the names of definitions. -/
theorem exists_name_of_mem_defined (h : Origination settings schema module layout site ledger)
    {binding : Binding} (hmem : binding ∈ module.defined) :
    ∃ name ∈ schema.definedNames, ledger.bindings.lookup name = some binding := by
  rcases List.mem_append.mp hmem with hmem | hmem
  · rcases List.mem_append.mp hmem with hmem | hmem
    · rcases List.mem_map.mp hmem with ⟨union, hunion, rfl⟩
      rcases h.lists.unions.exists_of_item hunion with ⟨enumeration, henum, hpair⟩
      exact ⟨enumeration.fullName, List.mem_append_left _ (List.mem_map_of_mem henum),
        (h.stems.unions _ hpair).binding⟩
    · rcases List.mem_map.mp hmem with ⟨record, hrecord, rfl⟩
      rcases h.lists.exists_entry_of_record hrecord with ⟨entry, hentry, rfl⟩
      refine ⟨entry.message.fullName, List.mem_append_right _ (List.mem_append_left _ ?_),
        (h.stems.records entry hentry).binding⟩
      exact List.mem_map_of_mem (h.lists.message_mem hentry)
  · rcases List.mem_map.mp hmem with ⟨choice, hchoice, rfl⟩
    rcases h.lists.exists_entry_of_choice hchoice with ⟨entry, hentry, source, hsource, hpair⟩
    have hmade := (RecordLayout.hasChoice_of_mem (h.stems.records entry hentry) hpair).2
    refine ⟨source.1.fullName, List.mem_append_right _ (List.mem_append_right _ ?_),
      hmade.binding⟩
    exact List.mem_map_of_mem hsource

/-- The name of an entry of a map is no name of a definition. -/
theorem notMem_definedNames (h : Origination settings schema module layout site ledger)
    {entry : Message} (hentry : entry ∈ schema.allMessages) (hmap : entry.mapEntry = true) :
    entry.fullName ∉ schema.definedNames := by
  have hnames := Registry.names_nodup_of_ofSchema h.registry
  have henums := schema.catalog_enums_perm settings schema.packageName
  have hmessages := schema.catalog_messages_perm settings schema.packageName
  rw [← Registry.ofSchema_eq_ok_iff.mp h.registry] at henums hmessages
  have hregistered : entry ∈ site.registry.messages := hmessages.mem_iff.mpr hentry
  intro hmem
  rcases List.mem_append.mp hmem with henum | hmem
  · apply Catalog.fullName_notMem_enums hnames hregistered
    exact (henums.map Enumeration.fullName).mem_iff.mpr henum
  · rcases List.mem_append.mp hmem with hmessage | honeof
    · rcases List.mem_map.mp hmessage with ⟨message, hmessage, hname⟩
      rcases List.mem_filter.mp hmessage with ⟨hmessage, hrecord⟩
      obtain rfl := List.inj_on_of_nodup_map (Catalog.messages_nodup hnames)
        (hmessages.mem_iff.mpr hmessage) hregistered hname
      simp [hmap] at hrecord
    · rcases List.mem_map.mp honeof with ⟨choice, hchoice, hname⟩
      rcases List.mem_flatMap.mp hchoice with ⟨owner, howner, hchoice⟩
      rcases Message.mem_declaredChoices hchoice with ⟨index, hat⟩
      apply Catalog.fullName_notMem_looseNames hnames hregistered
        (hmessages.mem_iff.mpr (List.mem_filter.mp howner).1)
      exact List.mem_flatMap.mpr
        ⟨(choice.1, index), Message.mem_zipIdx_oneofs hat, List.mem_cons.mpr (Or.inl hname.symm)⟩

/-! ## Closed modules -/

/-- A schema whose module is closed mentions no entry of a map. -/
theorem mentionsEntry_of_isClosed (h : Origination settings schema module layout site ledger)
    (htidy : schema.Tidy) (hlinked : schema.Linked) (hclosed : module.IsClosed) :
    schema.mentionsEntry = false := by
  rw [Bool.eq_false_iff]
  intro hmentions
  rcases Schema.mentionsEntry_eq_true_iff.mp hmentions with
    ⟨target, htarget, entry, hentry, hmap, hentryName⟩
  rcases h.mem_mentioned_of_target htidy htarget with ⟨binding, hmem, hmeans⟩
  have hlookup := h.lookup_of_means (hlinked.declaresType htarget) hmeans
  have hlocal : binding.isLocal = true := by
    rw [Binding.isLocal, h.sound.local_of_binding hlookup]
    rfl
  rcases h.exists_name_of_mem_defined (hclosed binding hmem hlocal) with ⟨name, hname, hbinding⟩
  -- The type name of the binding is given out for one declaration only.
  have hid : ledger.id? target.fullName .typeName = some binding.id :=
    h.sound.type_of_binding hlookup
  have hother : ledger.id? name .typeName = some binding.id := h.sound.type_of_binding hbinding
  rw [← (h.sound.id_injective hid hother).1, ← hentryName] at hname
  exact h.notMem_definedNames hentry hmap hname

/-- What a type means that is no entry of a map is defined. -/
theorem mem_defined_of_means (h : Origination settings schema module layout site ledger)
    {target : Reference} {binding : Binding} (hdeclared : schema.DeclaresType target.fullName)
    (hmeans : site.Means ledger target binding)
    (hplain : ∀ message ∈ schema.allMessages, message.fullName = target.fullName →
      message.mapEntry = false) : binding ∈ module.defined := by
  have hbinds := h.binds hmeans
  rcases hdeclared with ⟨enumeration, henum, hname⟩ | ⟨message, hmessage, hname⟩
  · rcases h.lists.unions.exists_of_source henum with ⟨union, hunion, hpair⟩
    rw [hbinds.union _ hpair hname]
    exact List.mem_append_left _ (List.mem_append_left _ (List.mem_map_of_mem hunion))
  · have hrecord : message ∈ schema.recordMessages :=
      List.mem_filter.mpr ⟨hmessage, by simp [hplain message hmessage hname]⟩
    rcases h.lists.records.exists_of_source hrecord with ⟨record, hrecord, hpair⟩
    rw [hbinds.record _ hpair hname]
    exact List.mem_append_left _ (List.mem_append_right _ (List.mem_map_of_mem hrecord))

/-- The module of a schema that mentions no entry of a map is closed. -/
theorem isClosed_of_mentionsEntry (h : Origination settings schema module layout site ledger)
    (htidy : schema.Tidy) (hlinked : schema.Linked) (hnone : schema.mentionsEntry = false) :
    module.IsClosed := by
  intro binding hmem _
  rcases h.target_of_mem_mentioned htidy hmem with
    ⟨choice, hchoice, rfl⟩ | ⟨target, htarget, hmeans⟩
  · exact List.mem_append_right _ (List.mem_map_of_mem hchoice)
  · apply h.mem_defined_of_means (hlinked.declaresType htarget) hmeans
    intro message hmessage hname
    rw [← Bool.not_eq_true]
    intro hmap
    have hmention := Schema.mentionsEntry_eq_true_iff.mpr
      ⟨target, htarget, message, hmessage, hmap, hname⟩
    rw [hnone] at hmention
    contradiction

end Origination

/--
The module of a text is closed unless the text mentions an entry of a map as a type of values.
-/
theorem isClosed_iff {source : String} {settings : Settings} {schema : Schema} {module : Module}
    (hschema : Source.schemaOfText source = .ok schema)
    (hmodule : buildModule settings schema = .ok module) :
    module.IsClosed ↔ schema.mentionsEntry = false := by
  rcases exists_layout hmodule with ⟨layout, site, ledger, horigin⟩
  have htidy := Source.tidy_of_schemaOfText hschema
  have hlinked := Source.linked_of_schemaOfText hschema
  constructor
  · exact horigin.mentionsEntry_of_isClosed htidy hlinked
  · exact horigin.isClosed_of_mentionsEntry htidy hlinked

/-- A text in which a field names the entry of a map as its type. -/
def danglingText : String :=
  "syntax = \"proto3\"; message M \x7b MEntry a = 1; map<string, int32> m = 2; \x7d"

/-- The entry has no definition, so the field that names it dangles. -/
theorem isClosed_danglingText :
    ∃ schema module, Source.schemaOfText danglingText = .ok schema ∧
      buildModule {} schema = .ok module ∧ schema.mentionsEntry = true ∧
      (module.IsClosed ↔ schema.mentionsEntry = false) ∧ ¬module.IsClosed := by
  have hok : (Source.schemaOfText danglingText).toOption.any (fun schema =>
      (buildModule {} schema).isOk && schema.mentionsEntry) = true := by
    decide +kernel
  cases hschema : Source.schemaOfText danglingText with
  | error error =>
      rw [hschema] at hok
      contradiction
  | ok schema =>
      simp only [hschema, Except.toOption, Option.any_some, Bool.and_eq_true] at hok
      cases hmodule : buildModule {} schema with
      | error error => simp [hmodule, Except.isOk, Except.toBool] at hok
      | ok module =>
          have hclosed := isClosed_iff hschema hmodule
          refine ⟨schema, module, rfl, hmodule, hok.2, hclosed, ?_⟩
          rw [hclosed, hok.2]
          exact Bool.noConfusion

example :
    ((Source.schemaOfText
      "syntax = \"proto3\"; message M \x7b map<string, M> m = 1; \x7d").toOption.bind fun schema =>
        (buildModule {} schema).toOption.map fun module =>
          (schema.mentionsEntry, decide module.IsClosed)) = some (false, true) := by
  decide +kernel

end ElmBinding
