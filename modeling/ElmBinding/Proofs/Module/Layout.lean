import ElmBinding.Proofs.Module.Definitions
import ElmBinding.Proofs.Module.Leads
import ElmBinding.Proofs.Naming.Rearrangement
import ElmBinding.Proofs.Sequence.Pairing

/-!
# Which definition stands for which declaration

A module lists its definitions by identifier and does not say where they come from.  The
layout of a schema does: it is read off the run that builds the module, before the definitions
are sorted, and sets every definition beside the declaration that it was made from.  It
accounts for the whole module, and each pair in it matches in the ledger in which naming ends.

Main results:

- Definition {lit}`Layout`: definitions beside their declarations.
- Definition {lit}`layoutOf`: the layout of a schema.
- Definition {lit}`Layout.Lists`: layouts that account for a schema and a module.
- Definition {lit}`Layout.Stems`: layouts whose pairs match at a site in a ledger.
- Theorem {lit}`exists_layout`: a module that can be built has a layout.
-/

namespace ElmBinding

/-! ## Layouts -/

/-- A message with the record and the choices that it becomes. -/
structure RecordLayout where
  message : Message
  record : Record
  choices : List Choice

/-- Definitions beside the declarations that they come from. -/
structure Layout where
  unions : List (Enumeration × Union)
  records : List RecordLayout
  services : List (Service × ProcedureGroup)

/-- The definitions of a site beside the declarations of its registry. -/
def Site.layout (site : Site) (definitions : Definitions) : Layout where
  unions := (Sequence.sortedBy Enumeration.fullName site.registry.enums).zip definitions.unions
  records := (site.registry.recordMessages.zip definitions.records).map fun pair =>
    ⟨pair.1, pair.2.1, pair.2.2⟩
  services :=
    (Sequence.sortedBy Service.fullName site.registry.services).zip definitions.services

/-- The layout of a schema, from the run that builds its module. -/
def layoutOf (settings : Settings) (schema : Schema) : Except BindingError Layout := do
  settings.check.mapError .settings
  let site ← (siteOf settings schema).mapError .breach
  match site.definitions.run (.blank site.settings) with
  | .ok definitions _ => .ok (site.layout definitions)
  | .error error _ => .error error

/-! ## What layouts account for -/

/-- The fields of a module that hold values. -/
def Module.valueFields (module : Module) : List RecordField :=
  module.records.flatMap Record.valueFields ++ module.choices.flatMap Choice.fields

/-- The messages of a schema at every depth that are no entries of maps. -/
def Schema.recordMessages (schema : Schema) : List Message :=
  schema.allMessages.filter fun message => !message.mapEntry

namespace RecordLayout

/-- The declared oneofs of a message beside their choices. -/
def choicePairs (entry : RecordLayout) : List ((Oneof × List Field) × Choice) :=
  entry.message.choices.zip entry.choices

/-- The fields of a message beside the fields that they become, in the record or a choice. -/
def fieldPairs (entry : RecordLayout) : List (Field × RecordField) :=
  entry.message.ownFields.zip entry.record.valueFields ++
    entry.choicePairs.flatMap fun pair => pair.1.2.zip pair.2.fields

end RecordLayout

namespace Layout

/-- The messages beside their records. -/
def recordPairs (layout : Layout) : List (Message × Record) :=
  layout.records.map fun entry => (entry.message, entry.record)

/-- The declared oneofs beside their choices. -/
def choicePairs (layout : Layout) : List ((Oneof × List Field) × Choice) :=
  layout.records.flatMap RecordLayout.choicePairs

/-- The fields of messages beside the fields that they become. -/
def fieldPairs (layout : Layout) : List (Field × RecordField) :=
  layout.records.flatMap RecordLayout.fieldPairs

/-- A layout that accounts one to one for the declarations of a schema and for a module. -/
structure Lists (layout : Layout) (schema : Schema) (module : Module) : Prop where
  unions : Pairing schema.allEnums module.unions layout.unions
  records : Pairing schema.recordMessages module.records layout.recordPairs
  choices : Pairing (schema.recordMessages.flatMap Message.declaredChoices) module.choices
    layout.choicePairs
  services : Pairing schema.services module.services layout.services
  fields : Pairing (schema.recordMessages.flatMap Message.placedFields) module.valueFields
    layout.fieldPairs

/-- A layout in which every definition matches its declaration in a ledger. -/
structure Stems (layout : Layout) (site : Site) (ledger : Ledger) : Prop where
  unions : ∀ pair ∈ layout.unions, Site.HasUnion ledger pair.1 pair.2
  records : ∀ entry ∈ layout.records,
    site.HasRecord ledger entry.message (entry.record, entry.choices)
  services : ∀ pair ∈ layout.services, site.HasGroup ledger pair.1 pair.2

end Layout

namespace RecordLayout

variable {site : Site} {ledger : Ledger} {entry : RecordLayout}

/-- A record and its choices are made of what the leaders of the message lead to. -/
theorem exists_leads
    (h : site.HasRecord ledger entry.message (entry.record, entry.choices)) :
    ∃ fields, List.Forall₂ (site.HasLead ledger entry.message) entry.message.leaders fields ∧
      entry.record.fields = fields.map Prod.fst ∧ entry.choices = fields.filterMap Prod.snd :=
  h.leads

/-- The declared oneofs of a message match its choices. -/
theorem forall₂_choices
    (h : site.HasRecord ledger entry.message (entry.record, entry.choices)) :
    List.Forall₂ (fun source choice => (∃ field, entry.message.choiceOf? field = some source) ∧
        site.HasChoice ledger source.1 source.2 choice)
      entry.message.choices entry.choices := by
  rcases exists_leads h with ⟨fields, hleads, -, hchoices⟩
  rw [hchoices]
  exact Site.forall₂_choices hleads

/-- The leaders of a message without a declared oneof match the value fields of its record. -/
theorem forall₂_own
    (h : site.HasRecord ledger entry.message (entry.record, entry.choices)) :
    List.Forall₂ (site.HasPlace ledger entry.message)
      entry.message.ownFields entry.record.valueFields := by
  rcases exists_leads h with ⟨fields, hleads, hfields, -⟩
  rw [Record.valueFields, hfields]
  exact Site.forall₂_own hleads

/-- A choice stands beside a declared oneof that it matches. -/
theorem hasChoice_of_mem
    (h : site.HasRecord ledger entry.message (entry.record, entry.choices))
    {pair : (Oneof × List Field) × Choice} (hpair : pair ∈ entry.choicePairs) :
    (∃ field, entry.message.choiceOf? field = some pair.1) ∧
      site.HasChoice ledger pair.1.1 pair.1.2 pair.2 :=
  (List.forall₂_iff_zip.mp (forall₂_choices h)).2 hpair

/-- A field stands beside the field that holds its values. -/
theorem hasPlace_of_mem
    (h : site.HasRecord ledger entry.message (entry.record, entry.choices))
    {pair : Field × RecordField} (hpair : pair ∈ entry.fieldPairs) :
    site.HasPlace ledger entry.message pair.1 pair.2 := by
  rcases List.mem_append.mp hpair with hown | hmember
  · exact (List.forall₂_iff_zip.mp (forall₂_own h)).2 hown
  · rcases List.mem_flatMap.mp hmember with ⟨source, hsource, hpair⟩
    rcases hasChoice_of_mem h hsource with ⟨⟨field, hfield⟩, hchoice⟩
    exact (List.forall₂_iff_zip.mp (hchoice.forall₂_fields hfield)).2 hpair

/-- The declared oneofs of a message match its choices one to one. -/
theorem pairing_choices
    (h : site.HasRecord ledger entry.message (entry.record, entry.choices)) :
    Pairing entry.message.choices entry.choices entry.choicePairs :=
  .of_forall₂ (forall₂_choices h)

/-- The placed fields of a message match the fields that hold values one to one. -/
theorem pairing_fields
    (h : site.HasRecord ledger entry.message (entry.record, entry.choices)) :
    Pairing entry.message.placedFields
      (entry.record.valueFields ++ entry.choices.flatMap Choice.fields) entry.fieldPairs := by
  have hmembers : ∀ pair ∈ entry.choicePairs,
      Pairing pair.1.2 pair.2.fields (pair.1.2.zip pair.2.fields) := by
    intro pair hpair
    rcases hasChoice_of_mem h hpair with ⟨⟨field, hfield⟩, hchoice⟩
    exact .of_forall₂ (hchoice.forall₂_fields hfield)
  have hchoices := Pairing.flatMap hmembers
  have hlength := (forall₂_choices h).length_eq
  have hsources : entry.choicePairs.flatMap (fun pair => pair.1.2) =
      entry.message.choices.flatMap Prod.snd := by
    rw [← List.map_fst_zip (Nat.le_of_eq hlength), List.flatMap_map]
    rfl
  have hitems : entry.choicePairs.flatMap (fun pair => pair.2.fields) =
      entry.choices.flatMap Choice.fields := by
    rw [← List.map_snd_zip (Nat.le_of_eq hlength.symm), List.flatMap_map]
    rfl
  rw [hsources, hitems] at hchoices
  exact (Pairing.of_forall₂ (forall₂_own h)).append hchoices

end RecordLayout

/-! ## Entries of a layout -/

namespace Layout.Lists

variable {layout : Layout} {schema : Schema} {module : Module} {entry : RecordLayout}

/-- The message of an entry has a record. -/
theorem message_mem (h : layout.Lists schema module) (hentry : entry ∈ layout.records) :
    entry.message ∈ schema.recordMessages :=
  h.records.sources.mem_iff.mp (List.mem_map_of_mem (List.mem_map_of_mem hentry))

/-- A message that has a record has an entry. -/
theorem exists_entry_of_message (h : layout.Lists schema module) {message : Message}
    (hmessage : message ∈ schema.recordMessages) :
    ∃ entry ∈ layout.records, entry.message = message := by
  rcases h.records.exists_of_source hmessage with ⟨record, -, hpair⟩
  rcases List.mem_map.mp hpair with ⟨entry, hentry, heq⟩
  exact ⟨entry, hentry, (Prod.mk.inj heq).1⟩

/-- A record has an entry. -/
theorem exists_entry_of_record (h : layout.Lists schema module) {record : Record}
    (hrecord : record ∈ module.records) : ∃ entry ∈ layout.records, entry.record = record := by
  rcases h.records.exists_of_item hrecord with ⟨message, -, hpair⟩
  rcases List.mem_map.mp hpair with ⟨entry, hentry, heq⟩
  exact ⟨entry, hentry, (Prod.mk.inj heq).2⟩

/-- A choice stands beside a declared oneof in an entry. -/
theorem exists_entry_of_choice (h : layout.Lists schema module) {choice : Choice}
    (hchoice : choice ∈ module.choices) :
    ∃ entry ∈ layout.records, ∃ source ∈ schema.recordMessages.flatMap Message.declaredChoices,
      (source, choice) ∈ entry.choicePairs := by
  rcases h.choices.exists_of_item hchoice with ⟨source, hsource, hpair⟩
  rcases List.mem_flatMap.mp hpair with ⟨entry, hentry, hpair⟩
  exact ⟨entry, hentry, source, hsource, hpair⟩

/-- The field that holds the values of a field in an entry is a field of the module. -/
theorem mem_valueFields (h : layout.Lists schema module) (hentry : entry ∈ layout.records)
    {pair : Field × RecordField} (hpair : pair ∈ entry.fieldPairs) :
    pair.2 ∈ module.valueFields :=
  h.fields.items.mem_iff.mp (List.mem_map_of_mem (List.mem_flatMap.mpr ⟨entry, hentry, hpair⟩))

/-- The choices in an entry are choices of the module. -/
theorem mem_choices (h : layout.Lists schema module) (hentry : entry ∈ layout.records)
    {pair : (Oneof × List Field) × Choice} (hpair : pair ∈ entry.choicePairs) :
    pair.2 ∈ module.choices :=
  h.choices.items.mem_iff.mp (List.mem_map_of_mem (List.mem_flatMap.mpr ⟨entry, hentry, hpair⟩))

end Layout.Lists

/-! ## Layouts of modules -/

namespace Site

variable {site : Site} {ledger : Ledger} {definitions : Definitions}

/-- The methods of a service match its procedures one to one. -/
theorem HasGroup.exists_pairing {service : Service} {group : ProcedureGroup}
    (h : site.HasGroup ledger service group) :
    ∃ pairs, Pairing service.methods group.procedures pairs ∧
      ∀ pair ∈ pairs, site.HasProcedure ledger service.fullName pair.1 pair.2 := by
  rcases h.procedures with ⟨procedures, hprocedures, hsorted⟩
  refine ⟨service.methods.zip procedures, ?_, fun _ => (List.forall₂_iff_zip.mp hprocedures).2⟩
  rw [hsorted]
  exact (Pairing.of_forall₂ hprocedures).perm (List.Perm.refl _)
    (Sequence.sortedBy_perm _ _).symm

/-- The layout of definitions has the messages that become records. -/
theorem HasDefinitions.messages_layout (h : site.HasDefinitions ledger definitions) :
    (site.layout definitions).records.map RecordLayout.message =
      site.registry.recordMessages := by
  rw [layout, List.map_map]
  exact List.map_fst_zip (Nat.le_of_eq h.records.length_eq)

/-- The layout of definitions has the records with their choices. -/
theorem HasDefinitions.records_layout (h : site.HasDefinitions ledger definitions) :
    (site.layout definitions).records.map (fun entry => (entry.record, entry.choices)) =
      definitions.records := by
  rw [layout, List.map_map]
  exact List.map_snd_zip (Nat.le_of_eq h.records.length_eq.symm)

/-- The pairs in the layout of definitions match. -/
theorem HasDefinitions.stems (h : site.HasDefinitions ledger definitions) :
    (site.layout definitions).Stems site ledger where
  unions _ hpair := (List.forall₂_iff_zip.mp h.unions).2 hpair
  records entry hentry := by
    rcases List.mem_map.mp hentry with ⟨pair, hpair, rfl⟩
    exact (List.forall₂_iff_zip.mp h.records).2 hpair
  services _ hpair := (List.forall₂_iff_zip.mp h.services).2 hpair

/-- Parts of messages, along the layout of definitions. -/
theorem HasDefinitions.flatMap_messages (h : site.HasDefinitions ledger definitions) {β : Type}
    (parts : Message → List β) :
    ((site.layout definitions).records.flatMap fun entry => parts entry.message) =
      site.registry.recordMessages.flatMap parts := by
  rw [← h.messages_layout, List.flatMap_map]

/-- Parts of records and their choices, along the layout of definitions. -/
theorem HasDefinitions.flatMap_records (h : site.HasDefinitions ledger definitions) {β : Type}
    (parts : Record × List Choice → List β) :
    ((site.layout definitions).records.flatMap fun entry =>
        parts (entry.record, entry.choices)) = definitions.records.flatMap parts := by
  rw [← h.records_layout, List.flatMap_map]

/-- The messages match the records one to one. -/
theorem HasDefinitions.pairing_records (h : site.HasDefinitions ledger definitions) :
    Pairing site.registry.recordMessages (definitions.records.map Prod.fst)
      (site.layout definitions).recordPairs where
  sources := by
    rw [Layout.recordPairs, List.map_map]
    exact List.Perm.of_eq h.messages_layout
  items := by
    rw [Layout.recordPairs, List.map_map, ← h.records_layout, List.map_map]
    exact List.Perm.refl _

/-- The declared oneofs of messages match the choices one to one. -/
theorem HasDefinitions.pairing_choices (h : site.HasDefinitions ledger definitions) :
    Pairing (site.registry.recordMessages.flatMap Message.declaredChoices)
      (definitions.records.flatMap Prod.snd) (site.layout definitions).choicePairs := by
  have hpairing := Pairing.flatMap fun entry hentry =>
    RecordLayout.pairing_choices (h.stems.records entry hentry)
  apply hpairing.perm
  · rw [← h.flatMap_messages]
    exact List.Perm.flatMap_left _ fun entry _ => entry.message.choices_perm
  · exact List.Perm.of_eq (h.flatMap_records Prod.snd)

/-- The placed fields of messages match the fields that hold values one to one. -/
theorem HasDefinitions.pairing_fields (h : site.HasDefinitions ledger definitions) :
    Pairing (site.registry.recordMessages.flatMap Message.placedFields)
      ((definitions.records.map Prod.fst).flatMap Record.valueFields ++
        (definitions.records.flatMap Prod.snd).flatMap Choice.fields)
      (site.layout definitions).fieldPairs := by
  have hpairing := Pairing.flatMap fun entry hentry =>
    RecordLayout.pairing_fields (h.stems.records entry hentry)
  apply hpairing.perm
  · exact List.Perm.of_eq (h.flatMap_messages Message.placedFields)
  · rw [h.flatMap_records fun made => made.1.valueFields ++ made.2.flatMap Choice.fields,
      List.flatMap_map, List.flatMap_assoc]
    exact (List.flatMap_append_perm _ _ _).symm

/-- The layout of definitions accounts for the schema of the registry and for the module. -/
theorem HasDefinitions.lists (h : site.HasDefinitions ledger definitions) {settings : Settings}
    {package : String} {schema : Schema} (name : String)
    (hregistry : Registry.ofSchema settings package schema = .ok site.registry) :
    (site.layout definitions).Lists schema (definitions.toModule name package) := by
  have hcatalog := Registry.ofSchema_eq_ok_iff.mp hregistry
  have henums : site.registry.enums.Perm schema.allEnums := by
    rw [hcatalog]
    exact schema.catalog_enums_perm settings package
  have hmessages : site.registry.recordMessages.Perm schema.recordMessages := by
    apply (Sequence.sortedBy_perm _ _).trans
    rw [hcatalog]
    exact (schema.catalog_messages_perm settings package).filter _
  have hservices : site.registry.services = schema.services := by
    rw [hcatalog]
    exact schema.catalog_services settings package
  have hrecords : ((definitions.toModule name package).records).Perm
      (definitions.records.map Prod.fst) := Sequence.sortedBy_perm _ _
  have hchoices : ((definitions.toModule name package).choices).Perm
      (definitions.records.flatMap Prod.snd) := Sequence.sortedBy_perm _ _
  exact {
    unions := (Pairing.of_forall₂ h.unions).perm
      ((Sequence.sortedBy_perm _ _).trans henums) (Sequence.sortedBy_perm _ _).symm
    records := h.pairing_records.perm hmessages hrecords.symm
    choices := h.pairing_choices.perm (hmessages.flatMap_right _) hchoices.symm
    services := (Pairing.of_forall₂ h.services).perm
      (hservices ▸ Sequence.sortedBy_perm _ _) (Sequence.sortedBy_perm _ _).symm
    fields := h.pairing_fields.perm (hmessages.flatMap_right _)
      ((hrecords.flatMap_right _).symm.append (hchoices.flatMap_right _).symm) }

end Site

/-- How the module of a schema comes about: a layout, the site where it is made, and a ledger. -/
structure Origination (settings : Settings) (schema : Schema) (module : Module) (layout : Layout)
    (site : Site) (ledger : Ledger) : Prop where
  layout_eq : layoutOf settings schema = .ok layout
  registry : Registry.ofSchema settings schema.packageName schema = .ok site.registry
  settings_eq : site.settings = settings
  name_eq : site.module = schema.moduleName settings
  sound : ledger.Sound site.settings
  stems : layout.Stems site ledger
  lists : layout.Lists schema module

/-- A module that can be built has a layout, whose pairs match at a site in a sound ledger. -/
theorem exists_layout {settings : Settings} {schema : Schema} {module : Module}
    (h : buildModule settings schema = .ok module) :
    ∃ layout site ledger, Origination settings schema module layout site ledger := by
  rcases buildModule_eq_ok_iff.mp h with ⟨hcheck, registry, hregistry, hbuild⟩
  let site : Site := ⟨registry, settings, schema.moduleName settings⟩
  have hensures := Site.definitions_ensures (Ledger.sound_blank settings) site.coversAll_true
  unfold Site.build at hbuild
  unfold Ensures at hensures
  cases hrun : site.definitions.run (.blank settings) with
  | error failed after =>
      rw [hrun] at hbuild
      contradiction
  | ok definitions ledger =>
      rw [hrun] at hbuild hensures
      rw [Except.ok.injEq] at hbuild
      subst hbuild
      have hlayout : layoutOf settings schema = .ok (site.layout definitions) := by
        unfold layoutOf siteOf
        rw [hcheck, hregistry]
        simp only [Except.mapError, Except.map, bind, Except.bind]
        rw [hrun]
      exact ⟨site.layout definitions, site, ledger, hlayout, hregistry, rfl, rfl,
        hensures.1.sound, hensures.2.stems, hensures.2.lists _ hregistry⟩

end ElmBinding
