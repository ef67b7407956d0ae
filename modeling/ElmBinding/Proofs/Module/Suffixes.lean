import ElmBinding.Proofs.Module.Definitions
import ElmBinding.Proofs.Module.Slots
import ElmBinding.Proofs.Naming.Suffixes
import ElmBinding.Proofs.Schema.Targets

/-!
# A suffix changes no module without collisions

Building a module without a collision suffix goes in lockstep with building it with one: the
names of declarations, the labels of records and choices and the references to declared types
are claimed in the same order, and each claim that is granted takes its candidate.  The suffix
goes into the names of foreign types as well, but all types that the schema of a text refers
to are declared there.

Main results:

- Definition {lit}`Site.KnowsTargets`: sites where all references are to declared types.
- Theorem {lit}`Site.lockstep_definitions`: naming all declarations is in lockstep.
- Theorem {lit}`Registry.ofSchema_withSuffix`: keys do not depend on the suffix.
- Theorem {lit}`buildModule_withSuffix`: a module without collisions is there with any suffix.
-/

namespace ElmBinding

open Name

variable {suffix : String} {ledger : Ledger}

/-! ## References -/

/-- The fields of a slot. -/
def Slot.fields : Slot → List Field
  | .plain field => [field]
  | .optional field => [field]
  | .choice _ members => members
  | .stray _ _ => []

/-- The fields of the slots of a message are fields of the message. -/
theorem Message.fields_slots_subset {message : Message} {slot : Slot} {field : Field}
    (hslot : slot ∈ message.slots) (hfield : field ∈ slot.fields) : field ∈ message.fields := by
  rcases mem_slotsFrom hslot with ⟨other, hmem, rfl⟩ | ⟨other, hmem, index, -, -, rfl⟩
  · rw [List.mem_singleton.mp hfield]
    exact hmem
  · unfold oneofSlot at hfield
    split at hfield
    · simp [Slot.fields] at hfield
    · split at hfield
      · rw [List.mem_singleton.mp hfield]
        exact hmem
      · exact (List.mem_filter.mp hfield).1

/-- A site where a field refers to a declared type, if it refers to one. -/
def Site.Knows (site : Site) (field : Field) : Prop :=
  ∀ target, field.kind.target? = some target → site.registry.isRegistered target.fullName = true

/-- A site where all fields and methods refer to declared types. -/
structure Site.KnowsTargets (site : Site) : Prop where
  fields : ∀ message ∈ site.registry.messages, ∀ field ∈ message.fields, site.Knows field
  methods : ∀ service ∈ site.registry.services, ∀ method ∈ service.methods,
    site.registry.isRegistered method.input.fullName = true ∧
      site.registry.isRegistered method.output.fullName = true

/-- The site of a linked schema knows its targets. -/
theorem Schema.Linked.knowsTargets {settings : Settings} {package : String} {schema : Schema}
    {site : Site} (hlinked : schema.Linked)
    (hregistry : Registry.ofSchema settings package schema = .ok site.registry) :
    site.KnowsTargets := by
  have hcatalog := Registry.ofSchema_eq_ok_iff.mp hregistry
  constructor
  · intro message hmessage field hfield target htarget
    rw [hcatalog] at hmessage
    have hmem := (schema.catalog_messages_perm settings package).mem_iff.mp hmessage
    exact Registry.isRegistered_of_declaresType hregistry
      (hlinked.fields message hmem field hfield target htarget)
  · intro service hservice method hmethod
    rw [hcatalog, schema.catalog_services] at hservice
    rcases hlinked.methods service hservice method hmethod with ⟨hinput, houtput⟩
    exact ⟨Registry.isRegistered_of_declaresType hregistry hinput,
      Registry.isRegistered_of_declaresType hregistry houtput⟩

namespace Site

variable {site : Site}

/-! ## Types -/

/-- The type of a single value is in lockstep. -/
theorem lockstep_element {field : Field} (hknows : site.Knows field) :
    Lockstep suffix ledger (site.element field) ((site.withSuffix suffix).element field) Eq := by
  unfold Site.element
  cases hkind : field.kind with
  | scalar wire =>
      cases hprimitive : wire.primitive? with
      | none => simp only [hprimitive]; exact lockstep_throw
      | some primitive => simp only [hprimitive]; exact lockstep_pure rfl
  | enumeration target | message target =>
      have hregistered := hknows target (by rw [hkind]; rfl)
      apply lockstep_bind (lockstep_reference hregistered)
      rintro binding _ _ rfl
      exact lockstep_pure rfl
  | group target => exact lockstep_throw

/-- The type of a map field is in lockstep. -/
theorem lockstep_mapType {field : Field} {entry : Message}
    (hknows : ∀ field ∈ entry.fields, site.Knows field) :
    Lockstep suffix ledger (site.mapType field entry)
      ((site.withSuffix suffix).mapType field entry) Eq := by
  unfold Site.mapType
  split
  · rename_i keyField valueField rest hfields
    rw [hfields] at hknows
    rcases List.forall_mem_cons.mp hknows with ⟨hkey, hknows⟩
    apply lockstep_bind (lockstep_element hkey)
    rintro key _ _ rfl
    split
    · apply lockstep_bind (lockstep_element (hknows valueField List.mem_cons_self))
      rintro value _ _ rfl
      exact lockstep_pure rfl
    · exact lockstep_throw
  · exact lockstep_throw

/-- The type of a field is in lockstep. -/
theorem lockstep_fieldType {field : Field} (htargets : site.KnowsTargets)
    (hknows : site.Knows field) :
    Lockstep suffix ledger (site.fieldType field)
      ((site.withSuffix suffix).fieldType field) Eq := by
  have hsame : Site.mapEntry? (site.withSuffix suffix) field = site.mapEntry? field := rfl
  unfold Site.fieldType
  rw [hsame]
  split
  · cases hentry : site.mapEntry? field with
    | none =>
        apply lockstep_bind (lockstep_element hknows)
        rintro element _ _ rfl
        exact lockstep_pure rfl
    | some entry =>
        have hmem : entry ∈ site.registry.messages := by
          unfold Site.mapEntry? at hentry
          split at hentry
          · exact List.mem_of_find?_eq_some (Option.filter_eq_some_iff.mp hentry).1
          · contradiction
        exact lockstep_mapType (htargets.fields entry hmem)
  · apply lockstep_bind (lockstep_element hknows)
    rintro element _ _ rfl
    exact lockstep_pure rfl

/-! ## Records -/

/-- A result with the labels behind it, and the same result with labels that have a suffix. -/
def SameLabels {α : Type} (suffix : String) (made made' : α × Namespace) : Prop :=
  made.2.suffix = "" ∧ made' = (made.1, made.2.withSuffix suffix)

/-- Labels are claimed in lockstep. -/
theorem lockstep_claimLabel {labels : Namespace} (hempty : labels.suffix = "")
    (name fullName : String) :
    Lockstep suffix ledger (claimLabel labels name fullName)
      (claimLabel (labels.withSuffix suffix) name fullName) (SameLabels suffix) := by
  unfold claimLabel
  cases hclaim : labels.claim (labelCandidate name) with
  | error refused => exact lockstep_throw
  | ok claimed =>
      rcases claimed with ⟨label, after⟩
      rw [Namespace.claim_withSuffix hempty hclaim suffix]
      refine lockstep_pure ⟨?_, rfl⟩
      rw [(Namespace.eq_insert_of_claim hclaim).2.2, Namespace.suffix_insert, hempty]

/-- A field with a label is in lockstep. -/
theorem lockstep_labelledField {label : String} {field : Field} (htargets : site.KnowsTargets)
    (hknows : site.Knows field) :
    Lockstep suffix ledger (site.labelledField label field)
      ((site.withSuffix suffix).labelledField label field) Eq := by
  unfold Site.labelledField
  apply lockstep_bind (lockstep_fieldType htargets hknows)
  rintro type _ _ rfl
  exact lockstep_pure rfl

/-- The variants of a choice are in lockstep. -/
theorem lockstep_choiceVariants {labels : Namespace} {members : List Field}
    (htargets : site.KnowsTargets) (hknows : ∀ member ∈ members, site.Knows member)
    (hempty : labels.suffix = "") :
    Lockstep suffix ledger (site.choiceVariants labels members)
      ((site.withSuffix suffix).choiceVariants (labels.withSuffix suffix) members) Eq := by
  induction members generalizing ledger labels with
  | nil => exact lockstep_pure rfl
  | cons member rest ih =>
      unfold Site.choiceVariants
      rcases List.forall_mem_cons.mp hknows with ⟨hmember, hrest⟩
      apply lockstep_bind lockstep_typeId
      rintro id _ _ rfl
      apply lockstep_bind (lockstep_claimLabel hempty member.name member.fullName)
      rintro ⟨label, labels'⟩ _ _ ⟨hempty', rfl⟩
      apply lockstep_bind (lockstep_labelledField htargets hmember)
      rintro field _ _ rfl
      apply lockstep_bind (ih hrest hempty')
      rintro variants _ _ rfl
      exact lockstep_pure rfl

/-- A choice is in lockstep. -/
theorem lockstep_choice {oneof : Oneof} {members : List Field} (htargets : site.KnowsTargets)
    (hknows : ∀ member ∈ members, site.Knows member)
    (hempty : site.settings.collisionSuffix = "") :
    Lockstep suffix ledger (site.choice oneof members)
      ((site.withSuffix suffix).choice oneof members) Eq := by
  unfold Site.choice
  apply lockstep_bind lockstep_binding
  rintro binding _ _ rfl
  apply lockstep_bind (lockstep_choiceVariants htargets hknows hempty)
  rintro variants _ _ rfl
  exact lockstep_pure rfl

/-- A slot is in lockstep. -/
theorem lockstep_slotField {labels : Namespace} {slot : Slot} (htargets : site.KnowsTargets)
    (hknows : ∀ field ∈ slot.fields, site.Knows field) (hempty : labels.suffix = "")
    (hsite : site.settings.collisionSuffix = "") :
    Lockstep suffix ledger (site.slotField labels slot)
      ((site.withSuffix suffix).slotField (labels.withSuffix suffix) slot)
      (SameLabels suffix) := by
  cases slot with
  | plain field =>
      apply lockstep_bind (lockstep_claimLabel hempty field.name field.fullName)
      rintro ⟨label, labels'⟩ _ _ ⟨hempty', rfl⟩
      apply lockstep_bind (lockstep_labelledField htargets (hknows field List.mem_cons_self))
      rintro recordField _ _ rfl
      exact lockstep_pure ⟨hempty', rfl⟩
  | optional field =>
      apply lockstep_bind (lockstep_claimLabel hempty field.name field.fullName)
      rintro ⟨label, labels'⟩ _ _ ⟨hempty', rfl⟩
      apply lockstep_bind (lockstep_element (hknows field List.mem_cons_self))
      rintro element _ _ rfl
      exact lockstep_pure ⟨hempty', rfl⟩
  | choice oneof members =>
      apply lockstep_bind (lockstep_choice htargets hknows hsite)
      rintro choice _ _ rfl
      apply lockstep_bind (lockstep_claimLabel hempty oneof.name oneof.fullName)
      rintro ⟨label, labels'⟩ _ _ ⟨hempty', rfl⟩
      exact lockstep_pure ⟨hempty', rfl⟩
  | stray index count => exact lockstep_throw

/-- The slots of a message are in lockstep. -/
theorem lockstep_slotFields {labels : Namespace} {slots : List Slot}
    (htargets : site.KnowsTargets)
    (hknows : ∀ slot ∈ slots, ∀ field ∈ slot.fields, site.Knows field)
    (hempty : labels.suffix = "") (hsite : site.settings.collisionSuffix = "") :
    Lockstep suffix ledger (site.slotFields labels slots)
      ((site.withSuffix suffix).slotFields (labels.withSuffix suffix) slots) Eq := by
  induction slots generalizing ledger labels with
  | nil => exact lockstep_pure rfl
  | cons slot rest ih =>
      unfold Site.slotFields
      rcases List.forall_mem_cons.mp hknows with ⟨hslot, hrest⟩
      apply lockstep_bind (lockstep_slotField htargets hslot hempty hsite)
      rintro ⟨field, labels'⟩ _ _ ⟨hempty', rfl⟩
      apply lockstep_bind (ih hrest hempty')
      rintro fields _ _ rfl
      exact lockstep_pure rfl

/-- A record is in lockstep. -/
theorem lockstep_record {message : Message} (htargets : site.KnowsTargets)
    (hmessage : message ∈ site.registry.messages)
    (hsite : site.settings.collisionSuffix = "") :
    Lockstep suffix ledger (site.record message)
      ((site.withSuffix suffix).record message) Eq := by
  have hknows : ∀ slot ∈ message.slots, ∀ field ∈ slot.fields, site.Knows field := by
    intro slot hslot field hfield
    exact htargets.fields message hmessage field (Message.fields_slots_subset hslot hfield)
  unfold Site.record
  apply lockstep_bind lockstep_binding
  rintro binding _ _ rfl
  apply lockstep_bind (lockstep_slotFields htargets hknows hsite hsite)
  rintro fields _ _ rfl
  exact lockstep_pure rfl

/-! ## Definitions -/

/-- A value of an enumeration is in lockstep. -/
theorem lockstep_unionPart (placed : EnumValue × Option Nat) :
    Lockstep suffix ledger (site.unionPart placed)
      ((site.withSuffix suffix).unionPart placed) Eq := by
  rcases placed with ⟨value, place?⟩
  cases place? with
  | none =>
      apply lockstep_bind lockstep_typeId
      rintro id _ _ rfl
      exact lockstep_pure rfl
  | some place =>
      apply lockstep_bind lockstep_valueId
      rintro id _ _ rfl
      exact lockstep_pure rfl

/-- A union is in lockstep. -/
theorem lockstep_union (enumeration : Enumeration) :
    Lockstep suffix ledger (site.union enumeration)
      ((site.withSuffix suffix).union enumeration) Eq := by
  unfold Site.union
  split
  · exact lockstep_throw
  · apply lockstep_bind lockstep_binding
    rintro binding _ _ rfl
    apply lockstep_bind (lockstep_mapM fun placed _ _ => lockstep_unionPart placed)
    rintro parts _ _ rfl
    exact lockstep_pure rfl

/-- A procedure is in lockstep. -/
theorem lockstep_procedure {service : String} {method : Method}
    (hinput : site.registry.isRegistered method.input.fullName = true)
    (houtput : site.registry.isRegistered method.output.fullName = true) :
    Lockstep suffix ledger (site.procedure service method)
      ((site.withSuffix suffix).procedure service method) Eq := by
  unfold Site.procedure
  apply lockstep_bind lockstep_valueId
  rintro id _ _ rfl
  apply lockstep_bind (lockstep_reference hinput)
  rintro input _ _ rfl
  apply lockstep_bind (lockstep_reference houtput)
  rintro output _ _ rfl
  exact lockstep_pure rfl

/-- The procedures of a service are in lockstep. -/
theorem lockstep_procedureGroup {service : Service} (htargets : site.KnowsTargets)
    (hservice : service ∈ site.registry.services) :
    Lockstep suffix ledger (site.procedureGroup service)
      ((site.withSuffix suffix).procedureGroup service) Eq := by
  unfold Site.procedureGroup
  have hmethods : ∀ method ∈ service.methods, ∀ ledger,
      Lockstep suffix ledger (site.procedure service.fullName method)
        ((site.withSuffix suffix).procedure service.fullName method) Eq := by
    intro method hmethod ledger
    rcases htargets.methods service hservice method hmethod with ⟨hinput, houtput⟩
    exact lockstep_procedure hinput houtput
  apply lockstep_bind (lockstep_mapM hmethods)
  rintro procedures _ _ rfl
  exact lockstep_pure rfl

/-- The definitions of a site without a suffix are in lockstep. -/
theorem lockstep_definitions (htargets : site.KnowsTargets)
    (hsite : site.settings.collisionSuffix = "") :
    Lockstep suffix ledger site.definitions (site.withSuffix suffix).definitions Eq := by
  have hrecords : ∀ message ∈ site.registry.recordMessages, ∀ ledger,
      Lockstep suffix ledger (site.record message)
        ((site.withSuffix suffix).record message) Eq := by
    intro message hmem ledger
    have hfiltered := (Sequence.sortedBy_perm _ _).mem_iff.mp hmem
    exact lockstep_record htargets (List.mem_filter.mp hfiltered).1 hsite
  have hservices : ∀ service ∈ Sequence.sortedBy Service.fullName site.registry.services,
      ∀ ledger, Lockstep suffix ledger (site.procedureGroup service)
        ((site.withSuffix suffix).procedureGroup service) Eq := by
    intro service hmem ledger
    exact lockstep_procedureGroup htargets ((Sequence.sortedBy_perm _ _).mem_iff.mp hmem)
  unfold Site.definitions
  apply lockstep_bind (lockstep_mapM fun enumeration _ _ => lockstep_union enumeration)
  rintro unions _ _ rfl
  apply lockstep_bind (lockstep_mapM hrecords)
  rintro records _ _ rfl
  apply lockstep_bind (lockstep_mapM hservices)
  rintro services _ _ rfl
  exact lockstep_pure rfl

/-- A module that a site without a suffix has is there with any suffix. -/
theorem build_withSuffix {package : String} {module : Module} (htargets : site.KnowsTargets)
    (hsite : site.settings.collisionSuffix = "") (h : site.build package = .ok module)
    (suffix : String) : (site.withSuffix suffix).build package = .ok module := by
  unfold Site.build at h
  cases hrun : site.definitions.run (.blank site.settings) with
  | error error after =>
      rw [hrun] at h
      contradiction
  | ok definitions after =>
      rw [hrun] at h
      rcases lockstep_definitions htargets hsite hsite definitions after hrun with
        ⟨-, _, rfl, hrun'⟩
      have hblank : (Ledger.blank site.settings).withSuffix suffix =
          .blank (site.withSuffix suffix).settings := rfl
      rw [hblank] at hrun'
      rw [Site.build, hrun', ← h]
      rfl

end Site

/-! ## Schemas -/

variable {settings : Settings}

/-- The keys of messages do not depend on the suffix. -/
theorem messagesCatalog_withSuffix (package : String) (messages : List Message) :
    messagesCatalog { settings with collisionSuffix := suffix } package messages =
      messagesCatalog settings package messages := by
  induction messages using forest_induction with
  | nil => simp
  | cons message rest hinner hrest =>
      rw [messagesCatalog_cons, messagesCatalog_cons, hinner, hrest]
      rfl

/-- The keys of a schema do not depend on the suffix. -/
theorem Registry.ofSchema_withSuffix (package : String) (schema : Schema) :
    Registry.ofSchema { settings with collisionSuffix := suffix } package schema =
      Registry.ofSchema settings package schema := by
  have hcatalog : schema.catalog { settings with collisionSuffix := suffix } package =
      schema.catalog settings package := by
    rw [Schema.catalog, messagesCatalog_withSuffix]
    rfl
  rw [Registry.ofSchema, Registry.ofSchema, hcatalog]

/-- Legal settings stay legal with a suffix that fits into identifiers. -/
theorem check_withSuffix (hcheck : settings.check = .ok ()) (hsuffix : isFragment suffix = true) :
    ({ settings with collisionSuffix := suffix } : Settings).check = .ok () := by
  have hfragment := (isFragment_of_check hcheck).2
  unfold Settings.check at hcheck ⊢
  rw [hfragment] at hcheck
  simp only [hsuffix]
  exact hcheck

/--
If the schema of a text has a module without a collision suffix, it has the same module with
any suffix of letters, numbers and underscores.
-/
theorem buildModule_withSuffix {source : String} {schema : Schema} {module : Module}
    {suffix : String} (hschema : Source.schemaOfText source = .ok schema)
    (hempty : settings.collisionSuffix = "") (hmodule : buildModule settings schema = .ok module)
    (hsuffix : isFragment suffix = true) :
    buildModule { settings with collisionSuffix := suffix } schema = .ok module := by
  rcases buildModule_eq_ok_iff.mp hmodule with ⟨hcheck, registry, hregistry, hbuild⟩
  have hlinked := Source.linked_of_schemaOfText hschema
  have htargets : Site.KnowsTargets ⟨registry, settings, schema.moduleName settings⟩ :=
    hlinked.knowsTargets hregistry
  rw [buildModule_eq_ok_iff]
  refine ⟨check_withSuffix hcheck hsuffix, registry, ?_, ?_⟩
  · rw [Registry.ofSchema_withSuffix]
    exact hregistry
  · exact Site.build_withSuffix htargets hempty hbuild suffix

/-- A text with a choice and a map. -/
def ferryText : String :=
  "message M \x7b oneof way \x7b M a = 1; \x7d map<string, M> b = 2; \x7d"

/-- The ferry has one module, whatever suffix there is. -/
theorem buildModule_ferryText :
    ∃ schema module, Source.schemaOfText ferryText = .ok schema ∧
      ({} : Settings).collisionSuffix = "" ∧ buildModule {} schema = .ok module ∧
      isFragment "_2" = true ∧ buildModule { collisionSuffix := "_2" } schema = .ok module := by
  have hsuffix : isFragment "_2" = true := by decide +kernel
  have hok : (Source.schemaOfText ferryText).toOption.any
      (fun schema => (buildModule {} schema).isOk) = true := by
    decide +kernel
  cases hschema : Source.schemaOfText ferryText with
  | error error => simp [hschema, Except.toOption] at hok
  | ok schema =>
      cases hmodule : buildModule {} schema with
      | error error =>
          simp [hschema, hmodule, Except.toOption, Except.isOk, Except.toBool] at hok
      | ok module =>
          have hsame : buildModule { collisionSuffix := "_2" } schema = .ok module :=
            buildModule_withSuffix hschema rfl hmodule hsuffix
          exact ⟨schema, module, rfl, rfl, hmodule, hsuffix, hsame⟩

end ElmBinding
