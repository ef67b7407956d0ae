import ElmBinding.Module.Build
import ElmBinding.Proofs.Module.Placements
import ElmBinding.Proofs.Module.Records
import ElmBinding.Proofs.Sequence.Pairing

/-!
# What definitions are made of

The definitions of a module match the declarations of its registry one by one: a union the
values of its enumeration, a record the slots of its message, the procedures of a service its
methods.  All bindings and identifiers in them stand in the ledger in which naming ends, and
that ledger is sound.

Main results:

- Definition {lit}`Site.HasDefinitions`: how definitions match a registry.
- Definition {lit}`Site.CoversAll`: the errors that naming can end in.
- Theorem {lit}`Site.definitions_ensures`: what naming ensures.
- Theorem {lit}`Site.definitions_of_build`: a module is made of definitions of its site.
- Theorem {lit}`buildModule_eq_ok_iff`: when a schema has a module.
-/

namespace ElmBinding
namespace Site

open Name

variable {site : Site} {ledger after : Ledger} {fail : BindingError → Prop}

/-! ## Matches -/

/-- The part of a union for a value, which is an alias if a place comes with the value. -/
inductive HasPart (ledger : Ledger) : EnumValue × Option Nat → UnionPart → Prop
  | variant {value : EnumValue} {id : String}
      (hid : ledger.typeIds.lookup value.fullName = some id) :
      HasPart ledger (value, none) (.variant
        { id, label := value.name, number := value.number, comments := value.comments })
  | nickname {value : EnumValue} {place : Nat} {id : String}
      (hid : ledger.valueIds.lookup value.fullName = some id) :
      HasPart ledger (value, some place) (.nickname
        { id, label := value.name, number := value.number, variant := place
          comments := value.comments })

/-- The union of an enumeration. -/
structure HasUnion (ledger : Ledger) (enumeration : Enumeration) (union : Union) : Prop where
  nonempty : enumeration.values ≠ []
  binding : ledger.bindings.lookup enumeration.fullName = some union.binding
  parts : ∃ parts, List.Forall₂ (HasPart ledger) (placements enumeration.values) parts ∧
    union.variants = parts.filterMap UnionPart.variant? ∧
    union.aliases = parts.filterMap UnionPart.alias?
  default : union.default = defaultPlace union.variants
  comments : union.comments = enumeration.comments

/-- The procedure of a method of a service. -/
structure HasProcedure (site : Site) (ledger : Ledger) (owner : String) (source : Method)
    (procedure : Procedure) : Prop where
  id : ledger.valueIds.lookup source.fullName = some procedure.id
  method : procedure.method = source.name
  service : procedure.service = owner
  input : site.Means ledger source.input procedure.input
  output : site.Means ledger source.output procedure.output
  clientStreaming : procedure.clientStreaming = source.clientStreaming
  serverStreaming : procedure.serverStreaming = source.serverStreaming
  comments : procedure.comments = source.comments

/-- The procedures of a service. -/
structure HasGroup (site : Site) (ledger : Ledger) (service : Service)
    (group : ProcedureGroup) : Prop where
  label : group.label = service.name
  fullName : group.fullName = service.fullName
  procedures : ∃ procedures,
    List.Forall₂ (site.HasProcedure ledger service.fullName) service.methods procedures ∧
    group.procedures = Sequence.sortedBy Procedure.id procedures
  comments : group.comments = service.comments

/-- The definitions of a site, declaration by declaration. -/
structure HasDefinitions (site : Site) (ledger : Ledger) (definitions : Definitions) :
    Prop where
  unions : List.Forall₂ (HasUnion ledger)
    (Sequence.sortedBy Enumeration.fullName site.registry.enums) definitions.unions
  records : List.Forall₂ (site.HasRecord ledger) site.registry.recordMessages
    definitions.records
  services : List.Forall₂ (site.HasGroup ledger)
    (Sequence.sortedBy Service.fullName site.registry.services) definitions.services

/-! ## Matches in larger ledgers -/

/-- A part still matches in an extension of the ledger. -/
theorem HasPart.extend {placed : EnumValue × Option Nat} {part : UnionPart}
    (hextends : ledger.Extends after) (h : HasPart ledger placed part) :
    HasPart after placed part := by
  cases h with
  | variant hid => exact .variant (hextends.typeId? hid)
  | nickname hid => exact .nickname (hextends.valueId? hid)

/-- A union still matches in an extension of the ledger. -/
theorem HasUnion.extend {enumeration : Enumeration} {union : Union}
    (hextends : ledger.Extends after) (h : HasUnion ledger enumeration union) :
    HasUnion after enumeration union := by
  rcases h.parts with ⟨parts, hparts, hvariants, haliases⟩
  exact { h with
    binding := hextends.binding? h.binding
    parts := ⟨parts, hparts.imp fun _ _ hpart => hpart.extend hextends, hvariants, haliases⟩ }

/-- A procedure still matches in an extension of the ledger. -/
theorem HasProcedure.extend {service : String} {method : Method} {procedure : Procedure}
    (hextends : ledger.Extends after) (h : site.HasProcedure ledger service method procedure) :
    site.HasProcedure after service method procedure :=
  { h with
    id := hextends.valueId? h.id
    input := h.input.extend hextends
    output := h.output.extend hextends }

/-- The procedures of a service still match in an extension of the ledger. -/
theorem HasGroup.extend {service : Service} {group : ProcedureGroup}
    (hextends : ledger.Extends after) (h : site.HasGroup ledger service group) :
    site.HasGroup after service group := by
  rcases h.procedures with ⟨procedures, hprocedures, hsorted⟩
  exact { h with
    procedures :=
      ⟨procedures, hprocedures.imp fun _ _ hprocedure => hprocedure.extend hextends, hsorted⟩ }

/-! ## Faults -/

/-- A class of errors that holds those of an enumeration. -/
structure CoversEnum (site : Site) (fail : BindingError → Prop) (enumeration : Enumeration) :
    Prop where
  name : site.CoversName fail enumeration.fullName
  values : ∀ value ∈ enumeration.values, site.CoversName fail value.fullName
  nonempty : enumeration.values = [] → fail (.emptyEnum enumeration.fullName)

/-- A class of errors that holds those of a service. -/
def CoversService (site : Site) (fail : BindingError → Prop) (service : Service) : Prop :=
  ∀ method ∈ service.methods, site.CoversName fail method.fullName

/-- A class of errors that holds those of all declarations of a site. -/
structure CoversAll (site : Site) (fail : BindingError → Prop) : Prop where
  types : site.CoversTypes fail
  enums : ∀ enumeration ∈ site.registry.enums, site.CoversEnum fail enumeration
  messages : ∀ message ∈ site.registry.messages, message.mapEntry = false →
    site.CoversMessage fail message
  services : ∀ service ∈ site.registry.services, site.CoversService fail service

/-! ## Steps -/

/-- A value becomes a part of the union. -/
theorem unionPart_ensures {placed : EnumValue × Option Nat}
    (hsound : ledger.Sound site.settings) (hname : site.CoversName fail placed.1.fullName) :
    Ensures site.settings (site.unionPart placed) ledger
      (fun part after => HasPart after placed part) fail := by
  rcases placed with ⟨value, place?⟩
  cases place? with
  | none =>
      apply ensures_bind (typeId_ensures hsound hname)
      rintro id after hreached ⟨hid, -⟩
      exact ensures_pure hreached.sound (.variant hid)
  | some place =>
      apply ensures_bind (valueId_ensures hsound hname)
      intro id after hreached hid
      exact ensures_pure hreached.sound (.nickname hid)

/-- An enumeration with values becomes a union. -/
theorem union_ensures {enumeration : Enumeration} (hsound : ledger.Sound site.settings)
    (hcovers : site.CoversEnum fail enumeration) :
    Ensures site.settings (site.union enumeration) ledger
      (fun union after => HasUnion after enumeration union) fail := by
  unfold Site.union
  split
  · rename_i hempty
    exact ensures_throw hsound (hcovers.nonempty (List.isEmpty_iff.mp hempty))
  · rename_i hvalues
    apply ensures_bind (binding_ensures hsound hcovers.name)
    intro binding bound hbound hbinding
    have hparts : ∀ placed ∈ placements enumeration.values, ∀ ledger,
        ledger.Sound site.settings → Ensures site.settings (site.unionPart placed) ledger
          (fun part after => HasPart after placed part) fail := by
      intro placed hplaced ledger hsound
      exact unionPart_ensures hsound (hcovers.values placed.1 (mem_of_mem_placements hplaced))
    apply ensures_bind (ensures_mapM hparts HasPart.extend hbound.sound)
    intro parts after hreached hforall
    exact ensures_pure hreached.sound
      ⟨fun hnil => hvalues (List.isEmpty_iff.mpr hnil), hreached.ext.binding? hbinding,
        ⟨parts, hforall, rfl, rfl⟩, rfl, rfl⟩

/-- A method becomes a procedure. -/
theorem procedure_ensures {service : String} {method : Method}
    (hsound : ledger.Sound site.settings) (htypes : site.CoversTypes fail)
    (hname : site.CoversName fail method.fullName) :
    Ensures site.settings (site.procedure service method) ledger
      (fun procedure after => site.HasProcedure after service method procedure) fail := by
  unfold Site.procedure
  apply ensures_bind (valueId_ensures hsound hname)
  intro id named hnamed hid
  apply ensures_bind (reference_ensures hnamed.sound (htypes method.input.fullName))
  intro input taken htaken hinput
  apply ensures_bind (reference_ensures htaken.sound (htypes method.output.fullName))
  intro output after hreached houtput
  exact ensures_pure hreached.sound
    ⟨(htaken.trans hreached).ext.valueId? hid, rfl, rfl,
      hinput.extend hreached.ext, houtput, rfl, rfl, rfl⟩

/-- The methods of a service become procedures. -/
theorem procedureGroup_ensures {service : Service} (hsound : ledger.Sound site.settings)
    (htypes : site.CoversTypes fail) (hcovers : site.CoversService fail service) :
    Ensures site.settings (site.procedureGroup service) ledger
      (fun group after => site.HasGroup after service group) fail := by
  unfold Site.procedureGroup
  have hmethods : ∀ method ∈ service.methods, ∀ ledger, ledger.Sound site.settings →
      Ensures site.settings (site.procedure service.fullName method) ledger
        (fun procedure after => site.HasProcedure after service.fullName method procedure)
        fail := by
    intro method hmethod ledger hsound
    exact procedure_ensures hsound htypes (hcovers method hmethod)
  apply ensures_bind (ensures_mapM hmethods HasProcedure.extend hsound)
  intro procedures after hreached hforall
  exact ensures_pure hreached.sound ⟨rfl, rfl, ⟨procedures, hforall, rfl⟩, rfl⟩

/-- The declarations of a site become definitions. -/
theorem definitions_ensures (hsound : ledger.Sound site.settings)
    (hcovers : site.CoversAll fail) :
    Ensures site.settings site.definitions ledger
      (fun definitions after => site.HasDefinitions after definitions) fail := by
  unfold Site.definitions
  have hunions : ∀ enumeration ∈ Sequence.sortedBy Enumeration.fullName site.registry.enums,
      ∀ ledger, ledger.Sound site.settings → Ensures site.settings (site.union enumeration) ledger
        (fun union after => HasUnion after enumeration union) fail := by
    intro enumeration hmem ledger hsound
    exact union_ensures hsound
      (hcovers.enums enumeration ((Sequence.sortedBy_perm _ _).mem_iff.mp hmem))
  have hrecords : ∀ message ∈ site.registry.recordMessages, ∀ ledger,
      ledger.Sound site.settings → Ensures site.settings (site.record message) ledger
        (fun made after => site.HasRecord after message made) fail := by
    intro message hmem ledger hsound
    have hfiltered := (Sequence.sortedBy_perm _ _).mem_iff.mp hmem
    rw [List.mem_filter, Bool.not_eq_true'] at hfiltered
    exact record_ensures hsound hcovers.types
      (hcovers.messages message hfiltered.1 hfiltered.2)
  have hservices : ∀ service ∈ Sequence.sortedBy Service.fullName site.registry.services,
      ∀ ledger, ledger.Sound site.settings →
      Ensures site.settings (site.procedureGroup service) ledger
        (fun group after => site.HasGroup after service group) fail := by
    intro service hmem ledger hsound
    exact procedureGroup_ensures hsound hcovers.types
      (hcovers.services service ((Sequence.sortedBy_perm _ _).mem_iff.mp hmem))
  apply ensures_bind (ensures_mapM hunions HasUnion.extend hsound)
  intro unions unioned hunioned hforallUnions
  apply ensures_bind (ensures_mapM hrecords HasRecord.extend hunioned.sound)
  intro records recorded hrecorded hforallRecords
  apply ensures_bind (ensures_mapM hservices HasGroup.extend hrecorded.sound)
  intro services after hreached hforallServices
  refine ensures_pure hreached.sound ⟨?_, ?_, hforallServices⟩
  · exact hforallUnions.imp fun _ _ hunion => hunion.extend (hrecorded.trans hreached).ext
  · exact hforallRecords.imp fun _ _ hrecord => hrecord.extend hreached.ext

end Site

/-! ## Modules -/

/-- A class of errors that holds those of a site holds the one in which building ends. -/
theorem Site.fail_of_build {site : Site} {fail : BindingError → Prop} {package : String}
    {error : BindingError} (hcovers : site.CoversAll fail)
    (h : site.build package = .error error) : fail error := by
  have hensures := Site.definitions_ensures (Ledger.sound_blank site.settings) hcovers
  unfold Site.build at h
  unfold Ensures at hensures
  cases hrun : site.definitions.run (.blank site.settings) with
  | ok definitions after =>
      rw [hrun] at h
      contradiction
  | error failed after =>
      rw [hrun] at h hensures
      rw [Except.error.injEq] at h
      rw [← h]
      exact hensures.2

/-- The class of all errors holds those of a site. -/
theorem Site.coversAll_true (site : Site) : site.CoversAll fun _ => True := by
  have hcovers : ∀ fullName sane,
      Covers site.settings (fun _ => True) fullName sane := by
    intro fullName sane
    exact ⟨fun _ _ => trivial, fun _ _ => trivial⟩
  have hfield : ∀ field, site.CoversField (fun _ => True) field := by
    intro field
    exact ⟨hcovers _ _, fun _ _ _ => trivial⟩
  refine ⟨fun _ _ => hcovers _ _, ?_, ?_, fun _ _ _ _ => hcovers _ _⟩
  · intro enumeration _
    exact ⟨hcovers _ _, fun _ _ => hcovers _ _, fun _ => trivial⟩
  · intro message _ _
    refine ⟨hcovers _ _, ?_⟩
    intro slot _
    cases slot with
    | plain field => exact hfield field
    | optional field => exact ⟨hcovers _ _, fun _ _ _ => trivial⟩
    | choice oneof members =>
        exact ⟨hcovers _ _, hcovers _ _, fun member _ => ⟨hcovers _ _, hfield member⟩⟩
    | stray index count => trivial

/-- A module is made of definitions that match the registry in a sound ledger. -/
theorem Site.definitions_of_build {site : Site} {package : String} {module : Module}
    (h : site.build package = .ok module) :
    ∃ ledger definitions, ledger.Sound site.settings ∧ site.HasDefinitions ledger definitions ∧
      module = definitions.toModule site.module package := by
  have hensures := Site.definitions_ensures (Ledger.sound_blank site.settings)
    site.coversAll_true
  unfold Site.build at h
  unfold Ensures at hensures
  cases hrun : site.definitions.run (.blank site.settings) with
  | ok definitions after =>
      rw [hrun] at h hensures
      rw [Except.ok.injEq] at h
      exact ⟨after, definitions, hensures.1.sound, hensures.2, h.symm⟩
  | error failed after =>
      rw [hrun] at h
      contradiction

/-- Illegal settings are the error of every schema. -/
theorem buildModule_of_illegal {settings : Settings} {schema : Schema} {broken : SettingsError}
    (hcheck : settings.check = .error broken) :
    buildModule settings schema = .error (.settings broken) := by
  unfold buildModule
  rw [hcheck]
  rfl

/-- Legal settings have a separator and a collision suffix that fit into identifiers. -/
theorem isFragment_of_check {settings : Settings} (hcheck : settings.check = .ok ()) :
    Name.isFragment settings.separator = true ∧
      Name.isFragment settings.collisionSuffix = true := by
  unfold Settings.check at hcheck
  cases hseparator : Name.isFragment settings.separator with
  | false => simp [hseparator] at hcheck
  | true =>
      cases hsuffix : Name.isFragment settings.collisionSuffix with
      | false => simp [hseparator, hsuffix] at hcheck
      | true => exact ⟨rfl, rfl⟩

/-- With legal settings, a schema with a registry has the module of its site. -/
theorem buildModule_of_registry {settings : Settings} {schema : Schema} {registry : Registry}
    (hcheck : settings.check = .ok ())
    (hregistry : Registry.ofSchema settings schema.packageName schema = .ok registry) :
    buildModule settings schema =
      Site.build ⟨registry, settings, schema.moduleName settings⟩ schema.packageName := by
  unfold buildModule siteOf
  rw [hcheck, hregistry]
  simp only [Except.mapError, Except.map, bind, Except.bind]

/-- A module is built at a site if the settings are legal and the schema has a registry. -/
theorem buildModule_eq_ok_iff {settings : Settings} {schema : Schema} {module : Module} :
    buildModule settings schema = .ok module ↔
      settings.check = .ok () ∧ ∃ registry,
        Registry.ofSchema settings schema.packageName schema = .ok registry ∧
        Site.build ⟨registry, settings, schema.moduleName settings⟩ schema.packageName =
          .ok module := by
  unfold buildModule siteOf
  cases settings.check with
  | error broken => simp [Except.mapError, bind, Except.bind]
  | ok checked =>
      cases Registry.ofSchema settings schema.packageName schema with
      | error broken => simp [Except.mapError, Except.map, bind, Except.bind]
      | ok registry => simp [Except.mapError, Except.map, bind, Except.bind]

end ElmBinding
