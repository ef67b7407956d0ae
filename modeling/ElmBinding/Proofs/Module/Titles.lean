import ElmBinding.Proofs.Module.FileOrder
import ElmBinding.Proofs.Name.ModuleNames
import ElmBinding.Proofs.Schema.Packages
import ElmBinding.Proofs.Source.Names

/-!
# Names of modules

A module whose name comes from the settings or from a package has a legal name, since settings
are checked and packages are plain.  A file without a package gives its module a name of its own,
and a path may hold any character.  That name is legal if the path makes legible segments.

Main results:

- Definition {lit}`Schema.HasLegibleTitle`: schemas whose file, if it counts, makes a legal name.
- Theorem {lit}`Schema.isModuleName_moduleName_iff`: which schemas have a legal module name.
- Theorem {lit}`names_of_buildModules`: which modules of several files have a legal name.
-/

namespace ElmBinding

open Name Text

/-! ## Settings -/

/-- Legal settings have a legal module name and a legal prefix of modules, or none. -/
theorem isModuleName_of_check {settings : Settings} (hcheck : settings.check = .ok ()) :
    (∀ name, settings.moduleName = some name → isModuleName name = true) ∧
      (settings.modulePrefix = "" ∨ isModuleName settings.modulePrefix = true) := by
  rcases isFragment_of_check hcheck with ⟨hseparator, hsuffix⟩
  unfold Settings.check at hcheck
  simp only [hseparator, hsuffix, Bool.not_true, Bool.false_eq_true, if_false] at hcheck
  cases hname : settings.moduleNameLegal with
  | false => simp [hname] at hcheck
  | true =>
      cases hfront : settings.modulePrefixLegal with
      | false => simp [hname, hfront] at hcheck
      | true =>
          refine ⟨?_, by simpa [Settings.modulePrefixLegal] using hfront⟩
          intro name hsome
          rw [Settings.moduleNameLegal, hsome] at hname
          exact hname

/-- A module is called what its schema says. -/
theorem name_of_buildModule {settings : Settings} {schema : Schema} {module : Module}
    (h : buildModule settings schema = .ok module) : module.name = schema.moduleName settings := by
  rcases buildModule_eq_ok_iff.mp h with ⟨-, registry, -, hbuild⟩
  rcases Site.definitions_of_build hbuild with ⟨ledger, definitions, -, -, rfl⟩
  rfl

namespace Schema

/-! ## Sources of names -/

/--
A schema that makes a legal name: if neither the settings nor a package names its module, the
path of its file has legible segments, or nothing is left of it.
-/
def HasLegibleTitle (settings : Settings) (schema : Schema) : Prop :=
  settings.moduleName = none → schema.packageName = "" →
    ∀ stem, schema.fileName.bind fileStem? = some stem →
      ∀ segment ∈ splitAtChar '.' stem.toList, Legible segment

/-- The source of a module name is legible if the file is, unless there is a package. -/
theorem legible_moduleSource_iff {schema : Schema}
    (hplain : Name.isPlain schema.packageName = true) :
    (∀ segment ∈ splitAtChar '.' schema.moduleSource.toList, Legible segment) ↔
      (schema.packageName = "" → ∀ stem, schema.fileName.bind fileStem? = some stem →
        ∀ segment ∈ splitAtChar '.' stem.toList, Legible segment) := by
  by_cases hpackage : schema.packageName = ""
  · have hplaceholder : Name.isPlain "X" = true := by decide
    rw [moduleSource, if_pos hpackage]
    cases schema.fileName.bind fileStem? with
    | none => simpa [hpackage] using fun segment => legible_of_isPlain hplaceholder
    | some stem => simp [hpackage]
  · rw [moduleSource, if_neg hpackage]
    constructor
    · intro _ hnone
      exact absurd hnone hpackage
    · intro _ segment
      exact legible_of_isPlain hplain

/-- With legal settings, the module of a plain package has a legal name if the title is legible. -/
theorem isModuleName_moduleName_iff {settings : Settings} {schema : Schema}
    (hcheck : settings.check = .ok ()) (hplain : Name.isPlain schema.packageName = true) :
    isModuleName (schema.moduleName settings) = true ↔ schema.HasLegibleTitle settings := by
  rcases isModuleName_of_check hcheck with ⟨hname, hfront⟩
  unfold moduleName HasLegibleTitle
  cases hsettings : settings.moduleName with
  | some name => simp [hname name hsettings]
  | none =>
      rw [isModuleName_packageModule_iff hfront, legible_moduleSource_iff hplain]
      exact (imp_iff_right rfl).symm

end Schema

/-! ## Modules of files -/

/--
The modules that are built from several files, one for each package and each file without one,
have legal names exactly if their titles are legible.
-/
theorem names_of_buildModules {tree : Source.SourceTree} {paths : List String}
    {schemas : List Schema} {settings : Settings} {results : List (Except BindingError Module)}
    (hschemas : Source.schemasOfFiles tree paths = .ok schemas)
    (hresults : buildModules settings schemas = .ok results) :
    List.Forall₂ (fun schema result => ∀ module, result = .ok module →
      (isModuleName module.name = true ↔ schema.HasLegibleTitle settings))
      (mergePackages schemas) results := by
  have hplain : ∀ schema ∈ mergePackages schemas, isPlain schema.packageName = true := by
    apply forall_mergePackages
    · -- What is merged keeps the package of its first file.
      intro schema other _ hschema _
      exact hschema
    · intro schema hschema
      exact (Source.Parsed.files hschemas hschema).proper.package
  have hbuilt : results = (mergePackages schemas).map (buildModule settings) := by
    rw [(buildModules_eq_ok_iff.mp hresults).1, resultsOf, List.map_map]
    rfl
  rw [hbuilt, List.forall₂_map_right_iff, List.forall₂_same]
  intro schema hschema module hmodule
  rw [name_of_buildModule hmodule]
  exact Schema.isModuleName_moduleName_iff (buildModule_eq_ok_iff.mp hmodule).1
    (hplain schema hschema)

/-- A file without a package whose name has a hyphen, and one with a package. -/
def hyphenFiles : Source.SourceTree := [
  ("sea-chart.proto", .text "message Reef \x7b \x7d"),
  ("tide-table.proto", .text "package tide.table; message Tide \x7b \x7d")]

/-- The module of the first file gets the hyphen, the other one is called after its package. -/
theorem names_of_hyphenFiles :
    ∃ schemas results,
      Source.schemasOfFiles hyphenFiles ["sea-chart.proto", "tide-table.proto"] = .ok schemas ∧
      buildModules {} schemas = .ok results ∧
      List.Forall₂ (fun schema result => ∀ module, result = .ok module →
        (isModuleName module.name = true ↔ schema.HasLegibleTitle {}))
        (mergePackages schemas) results ∧
      results.map (fun result => result.toOption.map Module.name) =
        [some "Sea-chart", some "Tide.Table"] ∧
      isModuleName "Sea-chart" = false ∧ isModuleName "Tide.Table" = true := by
  have hok : (Source.schemasOfFiles hyphenFiles ["sea-chart.proto",
      "tide-table.proto"]).toOption.any (fun schemas =>
        (buildModules {} schemas).toOption.any fun results =>
          results.map (fun result => result.toOption.map Module.name) =
            [some "Sea-chart", some "Tide.Table"]) = true := by
    decide +kernel
  cases hschemas : Source.schemasOfFiles hyphenFiles ["sea-chart.proto", "tide-table.proto"] with
  | error error => simp [hschemas, Except.toOption] at hok
  | ok schemas =>
      cases hresults : buildModules {} schemas with
      | error breach => simp [hschemas, hresults, Except.toOption] at hok
      | ok results =>
          rw [hschemas, Except.toOption, Option.any_some, hresults] at hok
          exact ⟨schemas, results, rfl, hresults, names_of_buildModules hschemas hresults,
            of_decide_eq_true hok, by decide +kernel, by decide +kernel⟩

end ElmBinding
