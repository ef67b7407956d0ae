import ElmBinding.Proofs.Module.Rearrangement
import ElmBinding.Proofs.Module.Turns

/-!
# The order of methods

Enumerations, messages and services are named in the order of their full names, but the methods of
a service are named as they are declared, and listed by identifier afterwards.  So a module may
depend on the order in which methods are declared.  It does not if, whenever the turn of a service
comes, no two of its methods would be given the same name, and no two of them would be refused.

Main results:

- Definition {lit}`Schema.ReordersMethods`: schemas that differ in the order of methods only.
- Definition {lit}`Site.Contested`: sites where methods contest a name.
- Theorem {lit}`buildModule_eq_buildWith`: only the services of a reordered schema differ.
- Theorem {lit}`Site.buildWith_of_not_contested`: without a contest, the order does not matter.
-/

namespace ElmBinding

/-- Schemas that differ in the order of the methods of their services only. -/
structure Schema.ReordersMethods (schema other : Schema) : Prop where
  fileName : other.fileName = schema.fileName
  dialect : other.dialect = schema.dialect
  package : other.package = schema.package
  messages : other.messages = schema.messages
  enums : other.enums = schema.enums
  services : List.Forall₂ Service.Reorders schema.services other.services

/-- A service has its methods in its own order. -/
theorem Service.Reorders.refl (service : Service) : service.Reorders service :=
  ⟨rfl, rfl, rfl, .refl _⟩

/-! ## Registries -/

/-- Services with their methods in other orders have the same entries. -/
theorem entries_perm_of_reorders (settings : Settings) (package : String)
    {services services' : List Service} (h : List.Forall₂ Service.Reorders services services') :
    (Catalog.join (services.map (Service.catalog settings package))).entries.Perm
      (Catalog.join (services'.map (Service.catalog settings package))).entries := by
  induction h with
  | nil => exact .refl _
  | @cons service service' rest rest' hservice _ ih =>
      refine List.Perm.append ?_ ih
      simp only [Service.catalog, hservice.name, hservice.fullName]
      exact (hservice.methods.map _).cons _

/-- With its methods in another order, a schema has the same entries in its catalog. -/
theorem Schema.ReordersMethods.catalog_alike {schema other : Schema}
    (h : schema.ReordersMethods other) (settings : Settings) (package : String) :
    (other.catalog settings package).Alike
      { schema.catalog settings package with services := other.services } := by
  have hentries := entries_perm_of_reorders settings package h.services
  refine ⟨?_, ?_, ?_, ?_⟩
  · simp only [Schema.catalog, Catalog.entries_append, h.enums, h.messages]
    exact ((hentries.symm.append_left _).append_left _)
  · simp only [Schema.catalog, Catalog.enums_append, h.enums, h.messages,
      enums_servicesCatalog]
    exact .refl _
  · simp only [Schema.catalog, Catalog.messages_append, h.enums, h.messages,
      messages_servicesCatalog]
    exact .refl _
  · rw [Schema.catalog_services]

/-- The module of a reordered schema is that of the site, with the services of the other schema. -/
theorem buildModule_eq_buildWith {settings : Settings} {schema other : Schema}
    {registry : Registry} (hcheck : settings.check = .ok ())
    (hregistry : Registry.ofSchema settings schema.packageName schema = .ok registry)
    (h : schema.ReordersMethods other) :
    buildModule settings other =
      (⟨registry, settings, schema.moduleName settings⟩ : Site).buildWith
        (Sequence.sortedBy Service.fullName other.services) schema.packageName := by
  have hpackage : other.packageName = schema.packageName := by
    rw [Schema.packageName, Schema.packageName, h.package]
  have hname : other.moduleName settings = schema.moduleName settings := by
    simp only [Schema.moduleName, Schema.moduleSource, hpackage, h.fileName]
  have halike := h.catalog_alike settings schema.packageName
  have hdistinct : (other.catalog settings schema.packageName).fullNames.Nodup := by
    have hkept := registry.distinct
    rw [Registry.ofSchema_eq_ok_iff.mp hregistry] at hkept
    exact (halike.entries.map Entry.fullName).nodup_iff.mpr hkept
  have hother : Registry.ofSchema settings other.packageName other =
      .ok ⟨other.catalog settings schema.packageName, hdistinct⟩ := by
    rw [hpackage]
    exact Registry.ofSchema_eq_ok_iff.mpr rfl
  rw [← Registry.ofSchema_eq_ok_iff.mp hregistry] at halike
  -- In between is the registry of the schema, but with the services of the other one.
  let between : Registry :=
    ⟨{ registry.toCatalog with services := other.services }, registry.distinct⟩
  have hother' : Site.Alike ⟨⟨_, hdistinct⟩, settings, schema.moduleName settings⟩
      ⟨between, settings, schema.moduleName settings⟩ :=
    Site.alike_of_registry halike (Registry.names_nodup_of_ofSchema hother)
  have hschema : Site.AlikeTypes ⟨registry, settings, schema.moduleName settings⟩
      ⟨between, settings, schema.moduleName settings⟩ :=
    ⟨rfl, rfl, rfl, fun _ => rfl, rfl, rfl⟩
  rw [buildModule_of_registry hcheck hother, hname, hpackage, ← hother'.build,
    Site.build_eq_buildWith, hschema.buildWith]

/-! ## Turns of services -/

namespace Site

variable {site : Site} {ledger typed : Ledger} {types : Definitions} {package : String}

/-- Whether the types of methods are defined at a site, as far as they are declared there. -/
def definesTypes (site : Site) : Bool :=
  site.registry.services.all fun service => service.methods.all fun method =>
    [method.input, method.output].all fun target =>
      !site.registry.isRegistered target.fullName ||
        (site.registry.enums.any (fun enumeration => enumeration.fullName = target.fullName) ||
          site.registry.recordMessages.any fun message => message.fullName = target.fullName)

/-- The turns of the services of a site, which come after the definitions of types. -/
def turns (site : Site) : List (Ledger × Service) :=
  match site.typeDefinitions.run (.blank site.settings) with
  | .ok _ typed =>
      site.turnsFrom typed (Sequence.sortedBy Service.fullName site.registry.services)
  | .error _ _ => []

/-- A site where methods of a service contest a name when its turn comes. -/
def Contested (site : Site) : Prop :=
  ∃ turn ∈ site.turns, ¬site.Uncontested turn.1 turn.2.methods

instance (site : Site) : Decidable site.Contested :=
  inferInstanceAs (Decidable (∃ _ ∈ _, _))

/-- After the definitions of types, what the registry has as types is bound. -/
theorem bound_of_typeDefinitions
    (h : site.typeDefinitions.run (.blank site.settings) = .ok types typed) :
    typed.Sound site.settings ∧
      (∀ enumeration ∈ site.registry.enums,
        ∃ binding, typed.bindings.lookup enumeration.fullName = some binding) ∧
      ∀ message ∈ site.registry.recordMessages,
        ∃ binding, typed.bindings.lookup message.fullName = some binding := by
  -- The same site without services has no other definitions.
  let bare : Site :=
    { site with
      registry := ⟨{ site.registry.toCatalog with services := [] }, site.registry.distinct⟩ }
  have halike : site.AlikeTypes bare := ⟨rfl, rfl, rfl, fun _ => rfl, rfl, rfl⟩
  have hdefinitions : bare.definitions = site.typeDefinitions := by
    rw [← halike.typeDefinitions]
    rfl
  have hensures : Ensures site.settings bare.definitions (.blank site.settings)
      (fun definitions after => bare.HasDefinitions after definitions) fun _ => True :=
    definitions_ensures (Ledger.sound_blank bare.settings) bare.coversAll_true
  rw [Ensures, hdefinitions, h] at hensures
  rcases hensures with ⟨hreaches, hunions, hrecords, -⟩
  refine ⟨hreaches.sound, ?_, ?_⟩
  · intro enumeration hmem
    have hsorted := (Sequence.sortedBy_perm Enumeration.fullName _).mem_iff.mpr hmem
    rcases exists_of_forall₂_of_mem hunions.flip hsorted with ⟨union, -, hunion⟩
    exact ⟨union.binding, hunion.binding⟩
  · intro message hmem
    rcases exists_of_forall₂_of_mem hrecords.flip hmem with ⟨made, -, hrecord⟩
    exact ⟨made.1.binding, hrecord.binding⟩

/-- After the definitions of types, the types of methods are bound. -/
theorem bindsTypes_of_typeDefinitions
    (h : site.typeDefinitions.run (.blank site.settings) = .ok types typed)
    (hdefines : site.definesTypes = true) {service : Service}
    (hservice : service ∈ site.registry.services) {method : Method}
    (hmethod : method ∈ service.methods) : site.BindsTypes typed method := by
  rcases bound_of_typeDefinitions h with ⟨-, henums, hmessages⟩
  have hbound : ∀ target ∈ [method.input, method.output],
      ∃ binding, site.Means typed target binding := by
    intro target htarget
    unfold Means
    split
    · rename_i hregistered
      have hdefined := List.all_eq_true.mp (List.all_eq_true.mp
        (List.all_eq_true.mp hdefines service hservice) method hmethod) target htarget
      simp only [hregistered, Bool.not_true, Bool.false_or, Bool.or_eq_true, List.any_eq_true,
        decide_eq_true_eq] at hdefined
      rcases hdefined with ⟨enumeration, hmem, hname⟩ | ⟨message, hmem, hname⟩
      · rw [← hname]
        exact henums enumeration hmem
      · rw [← hname]
        exact hmessages message hmem
    · exact ⟨_, rfl⟩
  exact ⟨hbound method.input (by simp), hbound method.output (by simp)⟩

/-- The methods of a service in a registry have distinct names. -/
theorem methodNames_nodup {registry : Registry} (hnames : registry.names.Nodup)
    {service : Service} (hservice : service ∈ registry.services) :
    (service.methods.map Method.fullName).Nodup := by
  rw [Catalog.names, List.nodup_append', List.nodup_append'] at hnames
  have hown := (List.nodup_flatMap.mp hnames.2.1.2.1).1 service hservice
  exact (List.nodup_cons.mp hown).2

/-- If nothing is contested, the order of methods does not matter. -/
theorem buildWith_of_not_contested {services : List Service} (hnames : site.registry.names.Nodup)
    (hdefines : site.definesTypes = true) (hclear : ¬site.Contested)
    (h : List.Forall₂ Service.Reorders
      (Sequence.sortedBy Service.fullName site.registry.services) services) :
    site.buildWith services package =
      site.buildWith (Sequence.sortedBy Service.fullName site.registry.services) package := by
  have hmem : ∀ service ∈ Sequence.sortedBy Service.fullName site.registry.services,
      service ∈ site.registry.services :=
    fun service hservice => (Sequence.sortedBy_perm _ _).mem_iff.mp hservice
  have hruns : LikeRuns Eq
      ((site.definitionsWith (Sequence.sortedBy Service.fullName site.registry.services)).run
        (.blank site.settings))
      ((site.definitionsWith services).run (.blank site.settings)) := by
    refine (LikeRuns.refl (site.typeDefinitions.run _)).bind ?_
    rintro types _ typed typed' htypes rfl hlike
    refine (procedureGroups_reordered h (bound_of_typeDefinitions htypes).1 hlike ?_ ?_ ?_).bind ?_
    · exact fun service hservice => methodNames_nodup hnames (hmem service hservice)
    · exact fun service hservice method hmethod =>
        bindsTypes_of_typeDefinitions htypes hdefines (hmem service hservice) hmethod
    · intro turn hturn
      by_contra hcontest
      refine hclear ⟨turn, ?_, hcontest⟩
      rw [turns, htypes]
      exact hturn
    · rintro groups _ final final' - rfl hlike
      exact .ok rfl hlike
  unfold buildWith
  generalize (site.definitionsWith (Sequence.sortedBy Service.fullName
    site.registry.services)).run (.blank site.settings) = result,
    (site.definitionsWith services).run (.blank site.settings) = result' at hruns
  cases hruns with
  | ok hsame _ => rw [hsame]
  | error => rfl

end Site

end ElmBinding
