import ElmBinding.Proofs.Module.Definitions
import ElmBinding.Proofs.Naming.Rearrangement

/-!
# Modules of rearranged schemas

A site is asked for keys, for the entry messages of maps and for its declarations in the
order of their names.  Sites of rearranged schemas give the same answers, but for the types
inside of messages, and no step looks at those.  So every step is the same at both sites, and
the modules are the same, down to suffixes and errors.

Main results:

- Definition {lit}`Site.Alike`: sites that give the same answers.
- Definition {lit}`Site.buildWith`: the module of a site with some services in their turns.
- Theorem {lit}`Site.AlikeTypes.buildWith`: sites with alike types have the same modules.
- Theorem {lit}`buildModule_eq_of_rearranged`: the order of declarations does not matter.
-/

namespace ElmBinding

/-! ## Messages of records -/

namespace Registry

variable {registry registry' : Registry}

/-- The records of alike registries come from messages with the same shells. -/
theorem shells_recordMessages_eq_of_alike (h : registry.toCatalog.Alike registry'.toCatalog)
    (hnames : registry.names.Nodup) :
    registry'.recordMessages.map Message.shell = registry.recordMessages.map Message.shell := by
  have hshells : ∀ registry : Registry, registry.recordMessages.map Message.shell =
      Sequence.sortedBy Message.fullName
        ((registry.messages.map Message.shell).filter fun message => !message.mapEntry) := by
    intro registry
    have hkeep : ∀ message : Message, message.shell.fullName = message.fullName :=
      fun message => rfl
    rw [List.filter_map, Sequence.sortedBy_map Message.shell hkeep]
    rfl
  have hkeys : (((registry.messages.map Message.shell).filter
      fun message => !message.mapEntry).map Message.fullName).Nodup := by
    apply List.Nodup.sublist (List.filter_sublist.map Message.fullName)
    rw [List.map_map]
    exact Catalog.messages_nodup hnames
  rw [hshells, hshells, Sequence.sortedBy_eq_of_perm (h.messages.filter _) hkeys]

end Registry

namespace Site

/-- Sites that give the same answers about names and types, up to what is inside of messages. -/
structure AlikeTypes (site other : Site) : Prop where
  settings : other.settings = site.settings
  module : other.module = site.module
  key? : other.registry.key? = site.registry.key?
  message? : ∀ fullName, (other.registry.message? fullName).map Message.shell =
    (site.registry.message? fullName).map Message.shell
  enums : Sequence.sortedBy Enumeration.fullName other.registry.enums =
    Sequence.sortedBy Enumeration.fullName site.registry.enums
  recordMessages : other.registry.recordMessages.map Message.shell =
    site.registry.recordMessages.map Message.shell

/-- Sites that give the same answers, up to what is inside of messages. -/
structure Alike (site other : Site) : Prop extends AlikeTypes site other where
  services : Sequence.sortedBy Service.fullName other.registry.services =
    Sequence.sortedBy Service.fullName site.registry.services

variable {site other : Site}

/-! ## Identifiers -/

/-- Candidates are the same at alike sites. -/
theorem AlikeTypes.candidate (h : site.AlikeTypes other) : other.candidate = site.candidate := by
  funext role fullName
  simp only [Site.candidate, Site.key, h.key?, h.settings]

/-- Type names are the same at alike sites. -/
theorem AlikeTypes.typeId (h : site.AlikeTypes other) : other.typeId = site.typeId := by
  funext fullName
  simp only [Site.typeId, h.candidate]

/-- Value names are the same at alike sites. -/
theorem AlikeTypes.valueId (h : site.AlikeTypes other) : other.valueId = site.valueId := by
  funext fullName
  simp only [Site.valueId, h.candidate]

/-- Bindings are the same at alike sites. -/
theorem AlikeTypes.binding (h : site.AlikeTypes other) : other.binding = site.binding := by
  funext fullName
  simp only [Site.binding, h.typeId, h.candidate]

/-- References mean the same at alike sites. -/
theorem AlikeTypes.reference (h : site.AlikeTypes other) : other.reference = site.reference := by
  have hregistered : other.registry.isRegistered = site.registry.isRegistered := by
    funext fullName
    rw [Registry.isRegistered, Registry.isRegistered, h.key?]
  funext reference
  unfold Site.reference
  rw [hregistered, h.binding, h.settings, h.module]

/-! ## Records -/

/-- Elements are the same at alike sites. -/
theorem AlikeTypes.element (h : site.AlikeTypes other) : other.element = site.element := by
  funext field
  simp only [Site.element, h.reference]

/-- Entry messages have the same shells at alike sites. -/
theorem AlikeTypes.shell_mapEntry? (h : site.AlikeTypes other) (field : Field) :
    (other.mapEntry? field).map Message.shell = (site.mapEntry? field).map Message.shell := by
  have hfilter : ∀ found : Option Message, (found.filter Message.mapEntry).map Message.shell =
      (found.map Message.shell).filter Message.mapEntry := by
    intro found
    cases found with
    | none => rfl
    | some message =>
        cases hentry : message.mapEntry <;> simp [Option.filter, hentry, Message.shell]
  unfold Site.mapEntry?
  cases field.kind with
  | message target => rw [hfilter, hfilter, h.message?]
  | scalar wire => rfl
  | enumeration target => rfl
  | group target => rfl

/-- Types are the same at alike sites. -/
theorem AlikeTypes.fieldType (h : site.AlikeTypes other) : other.fieldType = site.fieldType := by
  funext field
  have hmap : ∀ entry entry' : Message, entry'.shell = entry.shell →
      other.mapType field entry' = site.mapType field entry := by
    intro entry entry' hshell
    have hfields : entry'.shell.fields = entry.shell.fields := by rw [hshell]
    unfold Site.mapType
    rw [h.element]
    simp only [Message.shell] at hfields
    rw [hfields]
  have hentry := h.shell_mapEntry? field
  unfold Site.fieldType
  rw [h.element]
  cases hfound : site.mapEntry? field with
  | none =>
      rw [hfound, Option.map_none, Option.map_eq_none_iff] at hentry
      rw [hentry]
  | some entry =>
      rw [hfound, Option.map_some, Option.map_eq_some_iff] at hentry
      rcases hentry with ⟨entry', hfound', hshell⟩
      rw [hfound']
      simp only [hmap entry entry' hshell]

/-- Record fields are the same at alike sites. -/
theorem AlikeTypes.labelledField (h : site.AlikeTypes other) :
    other.labelledField = site.labelledField := by
  funext label field
  simp only [Site.labelledField, h.fieldType]

/-- The variants of choices are the same at alike sites. -/
theorem AlikeTypes.choiceVariants (h : site.AlikeTypes other) (labels : Name.Namespace)
    (members : List Field) :
    other.choiceVariants labels members = site.choiceVariants labels members := by
  induction members generalizing labels with
  | nil => rfl
  | cons member rest ih => simp only [Site.choiceVariants, h.typeId, h.labelledField, ih]

/-- Choices are the same at alike sites. -/
theorem AlikeTypes.choice (h : site.AlikeTypes other) : other.choice = site.choice := by
  funext oneof members
  simp only [Site.choice, h.binding, h.choiceVariants, h.settings]

/-- The record fields of slots are the same at alike sites. -/
theorem AlikeTypes.slotField (h : site.AlikeTypes other) (labels : Name.Namespace) (slot : Slot) :
    other.slotField labels slot = site.slotField labels slot := by
  cases slot with
  | plain field => simp only [Site.slotField, h.labelledField]
  | optional field => simp only [Site.slotField, h.element]
  | choice oneof members => simp only [Site.slotField, h.choice]
  | stray index count => rfl

/-- The record fields of all slots are the same at alike sites. -/
theorem AlikeTypes.slotFields (h : site.AlikeTypes other) (labels : Name.Namespace)
    (slots : List Slot) : other.slotFields labels slots = site.slotFields labels slots := by
  induction slots generalizing labels with
  | nil => rfl
  | cons slot rest ih => simp only [Site.slotFields, h.slotField, ih]

/-- Records are the same at alike sites. -/
theorem AlikeTypes.record (h : site.AlikeTypes other) : other.record = site.record := by
  funext message
  simp only [Site.record, h.binding, h.slotFields, h.settings]

/-- The slots of a message do not depend on the types inside it. -/
theorem slots_shell (message : Message) : message.shell.slots = message.slots := by
  have hslots : ∀ opened fields,
      message.shell.slotsFrom opened fields = message.slotsFrom opened fields := by
    intro opened fields
    induction fields generalizing opened with
    | nil => rfl
    | cons field rest ih =>
        unfold Message.slotsFrom
        simp only [ih]
        rfl
  exact hslots [] message.fields

/-- A record does not depend on the types inside of its message. -/
theorem record_shell (site : Site) (message : Message) :
    site.record message.shell = site.record message := by
  unfold Site.record
  rw [slots_shell]
  rfl

/-! ## Definitions -/

/-- The definitions of the types of a site, which are named before any method. -/
def typeDefinitions (site : Site) : Naming Definitions := do
  let unions ← (Sequence.sortedBy Enumeration.fullName site.registry.enums).mapM site.union
  let records ← site.registry.recordMessages.mapM site.record
  return { unions, records, services := [] }

/-- The definitions of a site with some services in their turns. -/
def definitionsWith (site : Site) (services : List Service) : Naming Definitions := do
  let types ← site.typeDefinitions
  let services ← services.mapM site.procedureGroup
  return { types with services }

/-- The module that a site has with some services in their turns. -/
def buildWith (site : Site) (services : List Service) (package : String) :
    Except BindingError Module :=
  match (site.definitionsWith services).run (.blank site.settings) with
  | .ok definitions _ => .ok (definitions.toModule site.module package)
  | .error error _ => .error error

/-- A site has its own services in the order of their names. -/
theorem build_eq_buildWith (site : Site) (package : String) : site.build package =
    site.buildWith (Sequence.sortedBy Service.fullName site.registry.services) package := by
  have hdefinitions : site.definitions =
      site.definitionsWith (Sequence.sortedBy Service.fullName site.registry.services) := by
    simp only [definitions, definitionsWith, typeDefinitions, bind_assoc, pure_bind]
  rw [build, hdefinitions]
  rfl

/-- Unions are the same at alike sites. -/
theorem AlikeTypes.union (h : site.AlikeTypes other) : other.union = site.union := by
  have hpart : other.unionPart = site.unionPart := by
    funext placed
    rcases placed with ⟨value, place?⟩
    cases place? with
    | none => simp only [Site.unionPart, h.typeId]
    | some place => simp only [Site.unionPart, h.valueId]
  funext enumeration
  simp only [Site.union, h.binding, hpart]

/-- The procedures of services are the same at alike sites. -/
theorem AlikeTypes.procedureGroup (h : site.AlikeTypes other) :
    other.procedureGroup = site.procedureGroup := by
  have hprocedure : other.procedure = site.procedure := by
    funext service method
    simp only [Site.procedure, h.valueId, h.reference]
  funext service
  simp only [Site.procedureGroup, hprocedure]

/-- The definitions of types are the same at alike sites. -/
theorem AlikeTypes.typeDefinitions (h : site.AlikeTypes other) :
    other.typeDefinitions = site.typeDefinitions := by
  have hrecords : other.registry.recordMessages.mapM other.record =
      site.registry.recordMessages.mapM site.record := by
    have hshells : ∀ messages : List Message,
        messages.mapM site.record = (messages.map Message.shell).mapM site.record := by
      intro messages
      have hrecord : site.record ∘ Message.shell = site.record := funext site.record_shell
      rw [List.mapM_map, hrecord]
    rw [h.record, hshells, h.recordMessages, ← hshells]
  simp only [Site.typeDefinitions, h.enums, h.union, hrecords]

/-- With the same services, sites with alike types have the same module. -/
theorem AlikeTypes.buildWith (h : site.AlikeTypes other) (services : List Service)
    (package : String) : other.buildWith services package = site.buildWith services package := by
  simp only [Site.buildWith, Site.definitionsWith, h.typeDefinitions, h.procedureGroup, h.settings,
    h.module]

/-- The modules of alike sites are the same. -/
theorem Alike.build (h : site.Alike other) (package : String) :
    other.build package = site.build package := by
  rw [Site.build_eq_buildWith, Site.build_eq_buildWith, h.services, h.toAlikeTypes.buildWith]

/-- Registries of the same declarations make alike sites. -/
theorem alike_of_registry {registry registry' : Registry} {settings : Settings} {module : String}
    (h : registry.toCatalog.Alike registry'.toCatalog) (hnames : registry.names.Nodup) :
    Site.Alike ⟨registry, settings, module⟩ ⟨registry', settings, module⟩ where
  settings := rfl
  module := rfl
  key? := Registry.key?_eq_of_alike h
  message? := Registry.shell_message?_eq_of_alike h hnames
  enums := (Sequence.sortedBy_eq_of_perm h.enums (Catalog.enums_nodup hnames)).symm
  recordMessages := Registry.shells_recordMessages_eq_of_alike h hnames
  services := (Sequence.sortedBy_eq_of_perm h.services (Catalog.services_nodup hnames)).symm

end Site

/-! ## Modules -/

/--
Schemas of one package that name their module alike have the same module, or fail with the same
error, if their registries are alike.
-/
theorem buildModule_eq_of_alike {settings : Settings} {schema other : Schema}
    {registry registry' : Registry}
    (hregistry : Registry.ofSchema settings schema.packageName schema = .ok registry)
    (hregistry' : Registry.ofSchema settings other.packageName other = .ok registry')
    (halike : registry.toCatalog.Alike registry'.toCatalog)
    (hpackage : other.packageName = schema.packageName)
    (hname : other.moduleName settings = schema.moduleName settings) :
    buildModule settings other = buildModule settings schema := by
  have hsite : Site.Alike ⟨registry, settings, schema.moduleName settings⟩
      ⟨registry', settings, schema.moduleName settings⟩ :=
    Site.alike_of_registry halike (Registry.names_nodup_of_ofSchema hregistry)
  cases hcheck : settings.check with
  | error broken => rw [buildModule_of_illegal hcheck, buildModule_of_illegal hcheck]
  | ok checked =>
      rw [buildModule_of_registry hcheck hregistry, buildModule_of_registry hcheck hregistry',
        hname, hpackage, hsite.build]

/--
A schema with distinct names and any rearrangement of it have the same module, or fail with
the same error.
-/
theorem buildModule_eq_of_rearranged {settings : Settings} {schema other : Schema}
    {registry : Registry}
    (hregistry : Registry.ofSchema settings schema.packageName schema = .ok registry)
    (h : schema.Rearranged other) : buildModule settings other = buildModule settings schema := by
  have hpackage : other.packageName = schema.packageName := by
    rw [Schema.packageName, Schema.packageName, h.package]
  have hname : other.moduleName settings = schema.moduleName settings := by
    simp only [Schema.moduleName, Schema.moduleSource, hpackage, h.fileName]
  rcases Registry.exists_alike_of_rearranged hregistry h with ⟨registry', hregistry', halike⟩
  rw [← hpackage] at hregistry'
  exact buildModule_eq_of_alike hregistry hregistry' halike hpackage hname

/-- A schema with two messages that want one name, where the one outside of others is first. -/
def leafFirst : Schema where
  messages := [
    { name := "Leaf", fullName := "Leaf" },
    { name := "Tree", fullName := "Tree"
      messages := [
        { name := "Leaf", fullName := "Tree.Leaf" },
        { name := "Node", fullName := "Tree.Node" }] }]

/-- The same messages from back to front. -/
def leafLast : Schema where
  messages := [
    { name := "Tree", fullName := "Tree"
      messages := [
        { name := "Node", fullName := "Tree.Node" },
        { name := "Leaf", fullName := "Tree.Leaf" }] },
    { name := "Leaf", fullName := "Leaf" }]

/-- The clash is settled alike, whichever of the messages is declared first. -/
theorem buildModule_leafLast :
    ∃ registry, Registry.ofSchema { collisionSuffix := "_" } leafFirst.packageName leafFirst =
        .ok registry ∧
      leafFirst.Rearranged leafLast ∧
      buildModule { collisionSuffix := "_" } leafLast =
        buildModule { collisionSuffix := "_" } leafFirst := by
  have hdistinct : (leafFirst.catalog { collisionSuffix := "_" }
      leafFirst.packageName).fullNames.Nodup := by
    decide +kernel
  have hregistry : Registry.ofSchema { collisionSuffix := "_" } leafFirst.packageName leafFirst =
      .ok ⟨_, hdistinct⟩ := Registry.ofSchema_eq_ok_iff.mpr rfl
  have hinner : leafFirst.Rearranged leafLast := {
    fileName := rfl
    dialect := rfl
    package := rfl
    messages :=
      .trans (rearranged_of_perm (List.Perm.swap _ _ _))
        (.cons rfl (rearranged_of_perm (List.Perm.swap _ _ _)) (List.Perm.refl _)
          (rearranged_refl _))
    enums := List.Perm.refl _
    services := List.Perm.refl _ }
  exact ⟨_, hregistry, hinner, buildModule_eq_of_rearranged hregistry hinner⟩

end ElmBinding
