import ElmBinding.Proofs.Module.Closure
import ElmBinding.Proofs.Schema.Packages

/-!
# Modules in front of foreign types

When several files are read together, a module may refer to a type that another module defines.
The name of that module is made of the package of the type alone.  That is where the type is
unless it comes from a file without a package, whose module is called after the file.  A type is
also taken for one of the module at hand if a oneof, a member of one or a method there has its
full name, or if the two modules have the same name.

Main results:

- Theorem {lit}`mem_imports_iff`: which modules a module imports.
- Definition {lit}`Schema.Pinpoints`: when a foreign type is looked for where it is.
- Definition {lit}`Layout.Qualifies`: bindings with the module of their type exactly then.
- Theorem {lit}`qualifies_of_build`: every reference in a module is qualified in this way.
-/

namespace ElmBinding

open Name

/-! ## Imports -/

/-- A module imports what its fields and procedures mention. -/
theorem mem_imports_iff {settings : Settings} {schema : Schema} {module : Module}
    (h : buildModule settings schema = .ok module) {name : String} :
    name ∈ module.imports ↔
      (∃ field ∈ fieldsOf module.records module.choices, name ∈ field.type.imports) ∨
        ∃ procedure ∈ module.services.flatMap ProcedureGroup.procedures,
          name ∈ procedure.imports := by
  rcases buildModule_eq_ok_iff.mp h with ⟨-, registry, -, hbuild⟩
  rcases Site.definitions_of_build hbuild with ⟨ledger, definitions, -, -, rfl⟩
  simp only [Definitions.toModule]
  have hfields : (fieldsOf (Sequence.sortedBy (fun record => record.binding.id)
        (definitions.records.map Prod.fst))
      (Sequence.sortedBy (fun choice => choice.binding.id)
        (definitions.records.flatMap Prod.snd))).Perm
      (fieldsOf (definitions.records.map Prod.fst) (definitions.records.flatMap Prod.snd)) :=
    ((Sequence.sortedBy_perm _ _).flatMap_right _).append
      ((Sequence.sortedBy_perm _ _).flatMap_right _)
  have hservices := (Sequence.sortedBy_perm ProcedureGroup.label definitions.services).flatMap_right
    ProcedureGroup.procedures
  rw [importsOf, Sequence.mem_sortedSet, List.mem_append, List.mem_flatMap, List.mem_flatMap]
  simp only [hfields.mem_iff, hservices.mem_iff]

/-- The module of an element that a type mentions is among its imports. -/
theorem FieldType.mem_imports {type : FieldType} {element : Element} {binding : Binding}
    {home : String} (helement : element ∈ type.elements)
    (hbinding : element.binding? = some binding) (hhome : binding.module = some home) :
    home ∈ type.imports := by
  apply List.mem_append_right
  refine List.mem_flatMap.mpr ⟨element, helement, ?_⟩
  cases element with
  | scalar wire primitive => contradiction
  | named other =>
      obtain rfl := Option.some.inj hbinding
      rw [Element.imports, hhome]
      exact List.mem_singleton_self home

/-- A procedure mentions the homes of its input and output. -/
theorem Procedure.mem_imports_iff {procedure : Procedure} {name : String} :
    name ∈ procedure.imports ↔
      ∃ binding ∈ procedure.bindings, binding.module = some name := by
  simp [imports, bindings]

namespace Origination

variable {settings : Settings} {schema : Schema} {module : Module} {layout : Layout}
  {site : Site} {ledger : Ledger}

/-- What a module defines is in the module itself. -/
theorem module_of_mem_defined (h : Origination settings schema module layout site ledger)
    {binding : Binding} (hmem : binding ∈ module.defined) : binding.module = none := by
  rcases h.exists_name_of_mem_defined hmem with ⟨name, -, hlookup⟩
  exact h.sound.local_of_binding hlookup

/-- A foreign type that a field mentions is an element of its type, for choices are local. -/
theorem named_mem_elements (h : Origination settings schema module layout site ledger)
    {field : RecordField} {binding : Binding} {home : String}
    (hfield : field ∈ fieldsOf module.records module.choices)
    (hbinding : binding ∈ field.type.bindings) (hhome : binding.module = some home) :
    .named binding ∈ field.type.elements := by
  have hchoice : field.type.isChoice = false := by
    rcases h.mem_valueFields_or_choice hfield with hvalue | ⟨choice, hchoice, htype⟩
    · rcases h.exists_placed hvalue with ⟨message, -, source, -, hplace⟩
      exact hplace.isChoice_eq
    · -- A choice is defined here, so its binding is in no other module.
      rw [htype, FieldType.bindings, List.mem_singleton] at hbinding
      have hdefined : binding ∈ module.defined :=
        List.mem_append_right _ (List.mem_map.mpr ⟨choice, hchoice, hbinding.symm⟩)
      rw [h.module_of_mem_defined hdefined] at hhome
      contradiction
  rw [FieldType.bindings_eq hchoice] at hbinding
  rcases List.mem_filterMap.mp hbinding with ⟨element, helement, hbinding⟩
  cases element with
  | scalar wire primitive => contradiction
  | named other =>
      obtain rfl := Option.some.inj hbinding
      exact helement

/-- The home of what a module mentions is an import of a field or a procedure. -/
theorem exists_import_of_mentioned (h : Origination settings schema module layout site ledger)
    {binding : Binding} {home : String} (hmem : binding ∈ module.mentioned)
    (hhome : binding.module = some home) :
    (∃ field ∈ fieldsOf module.records module.choices, home ∈ field.type.imports) ∨
      ∃ procedure ∈ module.services.flatMap ProcedureGroup.procedures,
        home ∈ procedure.imports := by
  rcases List.mem_append.mp hmem with hmem | hmem
  · rcases List.mem_flatMap.mp hmem with ⟨field, hfield, hbinding⟩
    have helement := h.named_mem_elements hfield hbinding hhome
    exact Or.inl ⟨field, hfield, FieldType.mem_imports helement rfl hhome⟩
  · rcases List.mem_flatMap.mp hmem with ⟨procedure, hprocedure, hbinding⟩
    exact Or.inr ⟨procedure, hprocedure, Procedure.mem_imports_iff.mpr ⟨binding, hbinding, hhome⟩⟩

/-- A module imports the modules of all that it mentions. -/
theorem mem_imports (h : Origination settings schema module layout site ledger)
    (hmodule : buildModule settings schema = .ok module)
    {binding : Binding} {home : String} (hmem : binding ∈ module.mentioned)
    (hhome : binding.module = some home) : home ∈ module.imports :=
  (mem_imports_iff hmodule).mpr (h.exists_import_of_mentioned hmem hhome)

end Origination

/-! ## Qualified references -/

/--
The circumstances in which a module looks for a type of another one where it is: nothing in the
module is taken for the type, a type without a package is at home in the module that the empty
package stands for, and the two modules have different names.
-/
structure Schema.Pinpoints (settings : Settings) (schema home : Schema) (fullName : String) :
    Prop where
  unclaimed : fullName ∉ schema.looseNames
  packaged : home.packageName = "" →
    packageModule settings.modulePrefix "" = home.moduleName settings
  apart : home.moduleName settings ≠ schema.moduleName settings

/-- A reference to a type that a module looks for in another one, by the package of the type. -/
structure Schema.LooksAbroad (settings : Settings) (schema : Schema) (target : Reference)
    (home : String) : Prop where
  undeclared : target.fullName ∉ schema.symbolNames
  unclaimed : target.fullName ∉ schema.looseNames
  home_eq : packageModule settings.modulePrefix target.package = home
  apart : home ≠ schema.moduleName settings

/--
A binding for a reference whose module is that of the schema which declares the type, exactly if
the type is looked for where it is.
-/
def Schema.Qualified (settings : Settings) (schemas : List Schema) (schema : Schema)
    (target : Reference) (binding : Binding) : Prop :=
  ∀ home ∈ schemas, home.DeclaresType target.fullName →
    (binding.module = some (home.moduleName settings) ↔
      schema.Pinpoints settings home target.fullName)

/-- A layout in which all that fields and methods refer to is qualified. -/
structure Layout.Qualifies (layout : Layout) (settings : Settings) (schemas : List Schema)
    (schema : Schema) : Prop where
  fields : ∀ pair ∈ layout.fieldPairs,
    List.Forall₂ (schema.Qualified settings schemas) (schema.fieldTargets pair.1)
      pair.2.type.bindings
  methods : ∀ pair ∈ layout.services, ∃ pairs, Pairing pair.1.methods pair.2.procedures pairs ∧
    ∀ made ∈ pairs, made.2.Mirrors pair.1 made.1 ∧
      schema.Qualified settings schemas made.1.input made.2.input ∧
      schema.Qualified settings schemas made.1.output made.2.output

/-- Without another name in the settings, the module of a package is called after the package. -/
theorem packageModule_eq_moduleName_iff {settings : Settings} {home : Schema}
    (hname : settings.moduleName = none) :
    packageModule settings.modulePrefix home.packageName = home.moduleName settings ↔
      (home.packageName = "" →
        packageModule settings.modulePrefix "" = home.moduleName settings) := by
  by_cases hempty : home.packageName = ""
  · simp [hempty]
  · simp [hempty, Schema.moduleName_eq_packageModule hname hempty]

namespace Origination

variable {settings : Settings} {schemas : List Schema} {schema : Schema} {module : Module}
  {layout : Layout} {site : Site} {ledger : Ledger} {target : Reference} {binding : Binding}

/-- What a reference means is in another module if nothing here has the name of the type. -/
theorem module_eq_some_iff (h : Origination settings schema module layout site ledger)
    (hmeans : site.Means ledger target binding) {name : String} :
    binding.module = some name ↔ schema.LooksAbroad settings target name := by
  have hregistered : site.registry.isRegistered target.fullName = true ↔
      target.fullName ∈ schema.symbolNames ∨ target.fullName ∈ schema.looseNames := by
    rw [Registry.isRegistered_iff, Registry.ofSchema_eq_ok_iff.mp h.registry,
      (schema.fullNames_catalog_perm settings schema.packageName).mem_iff, List.mem_append]
  rw [Site.Means] at hmeans
  by_cases hlocal : site.registry.isRegistered target.fullName = true
  · rw [if_pos hlocal] at hmeans
    rw [h.sound.local_of_binding hmeans]
    constructor
    · intro hsome
      contradiction
    · intro habroad
      rcases hregistered.mp hlocal with hmem | hmem
      · exact absurd hmem habroad.undeclared
      · exact absurd hmem habroad.unclaimed
  · rw [if_neg hlocal] at hmeans
    rw [hregistered, not_or] at hlocal
    subst hmeans
    simp only [foreignBinding, bindingOf, h.settings_eq, h.name_eq]
    constructor
    · intro hsome
      split at hsome
      · contradiction
      · rename_i hother
        obtain rfl := Option.some.inj hsome
        exact ⟨hlocal.1, hlocal.2, rfl, hother⟩
    · rintro ⟨-, -, rfl, hother⟩
      rw [if_neg hother]

/-- What a reference means is qualified. -/
theorem qualified (h : Origination settings schema module layout site ledger)
    (htogether : LinkedTogether schemas) (hschema : schema ∈ schemas)
    (hname : settings.moduleName = none)
    (htarget : target.IsIn (schemas.flatMap Schema.symbols))
    (hmeans : site.Means ledger target binding) :
    schema.Qualified settings schemas target binding := by
  intro home hhome hdeclared
  have hforeign : home.moduleName settings ≠ schema.moduleName settings →
      target.fullName ∉ schema.symbolNames := by
    intro hapart hsymbol
    rcases Schema.exists_symbol_of_declaresType hdeclared with ⟨symbol, hmem, hsame, -⟩
    have hhomeSymbol : target.fullName ∈ home.symbolNames :=
      List.mem_map.mpr ⟨symbol, hmem, hsame⟩
    rw [htogether.eq_of_symbolNames hhome hschema hhomeSymbol hsymbol] at hapart
    exact hapart rfl
  have hpackage := htogether.package_eq hhome htarget hdeclared
  rw [h.module_eq_some_iff hmeans]
  constructor
  · intro habroad
    have hhome := habroad.home_eq
    rw [hpackage, packageModule_eq_moduleName_iff hname] at hhome
    exact ⟨habroad.unclaimed, hhome, habroad.apart⟩
  · intro hpinpoints
    refine ⟨hforeign hpinpoints.apart, hpinpoints.unclaimed, ?_, hpinpoints.apart⟩
    rw [hpackage, packageModule_eq_moduleName_iff hname]
    exact hpinpoints.packaged

/-- What the type of a field mentions is qualified, in the order of what the field refers to. -/
theorem qualified_bindings (h : Origination settings schema module layout site ledger)
    (hqualified : ∀ target ∈ schema.targets, ∀ binding, site.Means ledger target binding →
      schema.Qualified settings schemas target binding)
    (htidy : schema.Tidy) {message : Message} {field : Field} {recordField : RecordField}
    (hmessage : message ∈ schema.recordMessages) (hfield : field ∈ message.fields)
    (hplace : site.HasPlace ledger message field recordField) :
    List.Forall₂ (schema.Qualified settings schemas) (schema.fieldTargets field)
      recordField.type.bindings := by
  have htidyMessage := htidy.of_mem_recordMessages hmessage
  rcases List.forall₂_iff_zip.mp (h.forall₂_means htidyMessage hfield hplace) with
    ⟨hlength, hmeans⟩
  refine List.forall₂_iff_zip.mpr ⟨hlength, ?_⟩
  intro target binding hpair
  apply hqualified target _ binding (hmeans hpair)
  apply List.mem_append_left
  exact List.mem_flatMap.mpr ⟨field, List.mem_flatMap.mpr ⟨message, hmessage, hfield⟩,
    (List.of_mem_zip hpair).1⟩

end Origination

/-- Two schemas of one package are tidy together. -/
theorem Schema.Tidy.extend {schema other : Schema} (h : schema.Tidy) (hother : other.Tidy) :
    (schema.extend other).Tidy := by
  unfold Schema.Tidy
  rw [Schema.allMessages_extend, List.forall_mem_append]
  exact ⟨h, hother⟩

/--
In the module of one of several files, or of the files of one package, every type that a field or
a method refers to and that one of the files declares is bound in the module of that file, or of
its package, exactly if the type is looked for where it is.  The module imports all modules that
it mentions.
-/
theorem qualifies_of_build {tree : Source.SourceTree} {paths : List String}
    {schemas : List Schema} {settings : Settings} {schema : Schema} {module : Module}
    (hschemas : Source.schemasOfFiles tree paths = .ok schemas)
    (hname : settings.moduleName = none) (hschema : schema ∈ mergePackages schemas)
    (hmodule : buildModule settings schema = .ok module) :
    ∃ layout, layoutOf settings schema = .ok layout ∧ layout.Lists schema module ∧
      layout.Qualifies settings (mergePackages schemas) schema ∧
      ∀ binding ∈ module.mentioned, ∀ home, binding.module = some home →
        home ∈ module.imports := by
  rcases exists_layout hmodule with ⟨layout, site, ledger, horigin⟩
  have htogether : LinkedTogether (mergePackages schemas) := by
    rcases bind_eq_ok_iff.mp hschemas with ⟨unlinked, -, hlink⟩
    exact (linkedTogether_of_link hlink).merge
  have htidy : schema.Tidy :=
    forall_mergePackages (fun _ => Schema.Tidy.extend) (Source.tidy_of_schemasOfFiles hschemas)
      schema hschema
  have hlinked := htogether.linked schema hschema
  have hqualified : ∀ target ∈ schema.targets, ∀ binding, site.Means ledger target binding →
      schema.Qualified settings (mergePackages schemas) target binding := by
    intro target htarget binding hmeans
    have hin := Schema.forall_targets hlinked.fields hlinked.methods target htarget
    exact horigin.qualified htogether hschema hname hin hmeans
  refine ⟨layout, horigin.layout_eq, horigin.lists, ⟨?_, ?_⟩, ?_⟩
  · intro pair hpair
    rcases List.mem_flatMap.mp hpair with ⟨entry, hentry, hpair⟩
    have hmessage := horigin.lists.message_mem hentry
    have hrecord := horigin.stems.records entry hentry
    have htidyMessage := htidy.of_mem_recordMessages hmessage
    exact horigin.qualified_bindings hqualified htidy hmessage
      (RecordLayout.mem_fields_of_mem htidyMessage hrecord hpair)
      (RecordLayout.hasPlace_of_mem hrecord hpair)
  · intro pair hpair
    rcases (horigin.stems.services pair hpair).exists_pairing with ⟨pairs, hpairing, hmade⟩
    refine ⟨pairs, hpairing, ?_⟩
    intro made hmem
    have hprocedure := hmade made hmem
    have htargets : ∀ target ∈ [made.1.input, made.1.output], target ∈ schema.targets := by
      intro target htarget
      have hservice : pair.1 ∈ schema.services :=
        horigin.lists.services.sources.mem_iff.mp (List.mem_map_of_mem hpair)
      have hmethod : made.1 ∈ pair.1.methods :=
        hpairing.sources.mem_iff.mp (List.mem_map_of_mem hmem)
      apply List.mem_append_right
      exact List.mem_flatMap.mpr
        ⟨made.1, List.mem_flatMap.mpr ⟨pair.1, hservice, hmethod⟩, htarget⟩
    exact ⟨hprocedure.mirrors, hqualified _ (htargets _ (by simp)) _ hprocedure.input,
      hqualified _ (htargets _ (by simp)) _ hprocedure.output⟩
  · intro binding hmem home hhome
    exact horigin.mem_imports hmodule hmem hhome

/-- Two files, of which the first has no package and the second refers to its type. -/
def strayFiles : Source.SourceTree := [
  ("a.proto", .text "message T \x7b \x7d"),
  ("b.proto", .text "package b; message M \x7b optional T t = 1; \x7d")]

/-- The type is defined in a module that is called after its file, and looked for elsewhere. -/
theorem qualifies_strayFiles :
    ∃ (schemas : List Schema) (home schema : Schema) (module : Module),
      Source.schemasOfFiles strayFiles ["a.proto", "b.proto"] = .ok schemas ∧
      ({} : Settings).moduleName = none ∧ schema ∈ mergePackages schemas ∧
      buildModule {} schema = .ok module ∧
      (∃ layout, layoutOf {} schema = .ok layout ∧ layout.Lists schema module ∧
        layout.Qualifies {} (mergePackages schemas) schema ∧
        ∀ binding ∈ module.mentioned, ∀ name, binding.module = some name →
          name ∈ module.imports) ∧
      home ∈ mergePackages schemas ∧ home.DeclaresType "T" ∧ home.moduleName {} = "A" ∧
      module.imports = ["X"] := by
  have hok : (Source.schemasOfFiles strayFiles ["a.proto", "b.proto"]).toOption.any (fun schemas =>
      ((mergePackages schemas).any fun home =>
        home.allMessages.any (fun message => message.fullName = "T") &&
          home.moduleName {} = "A") &&
      (mergePackages schemas).any fun schema =>
        (buildModule {} schema).toOption.any fun module => module.imports = ["X"]) = true := by
    decide +kernel
  cases hschemas : Source.schemasOfFiles strayFiles ["a.proto", "b.proto"] with
  | error error => simp [hschemas, Except.toOption] at hok
  | ok schemas =>
      simp only [hschemas, Except.toOption, Option.any_some, Bool.and_eq_true,
        List.any_eq_true, decide_eq_true_eq] at hok
      rcases hok with ⟨⟨home, hhomeMem, ⟨message, hmessage, hfullName⟩, hhome⟩,
        schema, hschemaMem, hbuilds⟩
      have hdeclared : home.DeclaresType "T" := Or.inr ⟨message, hmessage, hfullName⟩
      cases hmodule : buildModule {} schema with
      | error error => simp [hmodule] at hbuilds
      | ok module =>
          have hqualifies := qualifies_of_build hschemas rfl hschemaMem hmodule
          have himports : module.imports = ["X"] := by simpa [hmodule] using hbuilds
          exact ⟨schemas, home, schema, module, rfl, rfl, hschemaMem, hmodule, hqualifies,
            hhomeMem, hdeclared, hhome, himports⟩

end ElmBinding
