import ElmBinding.Module.Record
import ElmBinding.Module.Service
import ElmBinding.Module.Title
import ElmBinding.Module.Union
import ElmBinding.Module.Views
import ElmBinding.Schema.Merge
import ElmBinding.Source.Schemas

/-!
# Building modules

A module is built from a schema: first the unions, then the records with their choices,
then the services.  Each kind is visited in the order of full names, so that the order of
declarations does not decide which of two clashing names gets a suffix.  The finished
definitions are listed by identifier.

Main definitions:

- Definition {lit}`Site.definitions`: the definitions of a module.
- Definition {lit}`buildModule`: the module of a schema.
- Definition {lit}`buildModules`: the modules of several schemas, one a package.
- Definitions {lit}`moduleOfFile` and {lit}`modulesOfFiles`: modules of files.
-/

namespace ElmBinding

/-- The definitions of a module, in the order in which they were named. -/
structure Definitions where
  unions : List Union
  records : List (Record × List Choice)
  services : List ProcedureGroup
deriving DecidableEq, Repr

/-- The messages that become records, in the order of full names. -/
def Registry.recordMessages (registry : Registry) : List Message :=
  Sequence.sortedBy Message.fullName
    (registry.messages.filter fun message => !message.mapEntry)

/-- The definitions of the module of a site. -/
def Site.definitions (site : Site) : Naming Definitions := do
  let unions ← (Sequence.sortedBy Enumeration.fullName site.registry.enums).mapM site.union
  let records ← site.registry.recordMessages.mapM site.record
  let services ←
    (Sequence.sortedBy Service.fullName site.registry.services).mapM site.procedureGroup
  return { unions, records, services }

/-- The module with some definitions, each kind listed by identifier. -/
def Definitions.toModule (definitions : Definitions) (name package : String) : Module :=
  let records := definitions.records.map Prod.fst
  let choices := definitions.records.flatMap Prod.snd
  { name
    path := Name.modulePath name
    package
    imports := importsOf records choices definitions.services
    unions := Sequence.sortedBy (fun union => union.binding.id) definitions.unions
    choices := Sequence.sortedBy (fun choice => choice.binding.id) choices
    records := Sequence.sortedBy (fun record => record.binding.id) records
    services := Sequence.sortedBy ProcedureGroup.label definitions.services }

/-- The site of the module of a schema. -/
def siteOf (settings : Settings) (schema : Schema) : Except Breach Site :=
  (Registry.ofSchema settings schema.packageName schema).map fun registry =>
    ⟨registry, settings, schema.moduleName settings⟩

/-- The module that a site has, if nothing has been named there yet. -/
def Site.build (site : Site) (package : String) : Except BindingError Module :=
  match site.definitions.run (.blank site.settings) with
  | .ok definitions _ => .ok (definitions.toModule site.module package)
  | .error error _ => .error error

/-- The module of a schema. -/
def buildModule (settings : Settings) (schema : Schema) : Except BindingError Module := do
  settings.check.mapError .settings
  let site ← (siteOf settings schema).mapError .breach
  site.build schema.packageName

/-- The breach behind a result, if it is one. -/
def breachOf? : Except BindingError Module → Option Breach
  | .ok _ => none
  | .error error => error.breach?

/-- The modules of schemas, one a package; an error that is no breach stays with its package. -/
def buildModules (settings : Settings) (schemas : List Schema) :
    Except Breach (List (Except BindingError Module)) :=
  let results := (mergePackages schemas).map (buildModule settings)
  match results.findSome? breachOf? with
  | some breach => .error breach
  | none => .ok results

/-! ## Files -/

/-- The module of a text. -/
def moduleOfText (settings : Settings) (source : String) : Except BindingError Module := do
  let schema ← (Source.schemaOfText source).mapError .schema
  buildModule settings schema

/-- The module of a file; the settings are looked at first. -/
def moduleOfFile (settings : Settings) (tree : Source.SourceTree) (path : String) :
    Except BindingError Module := do
  settings.check.mapError .settings
  let schema ← (Source.schemaOfFile tree path).mapError .schema
  buildModule settings schema

/-- The modules of files, one a package; the settings are looked at first. -/
def modulesOfFiles (settings : Settings) (tree : Source.SourceTree) (paths : List String) :
    Except BindingError (List (Except BindingError Module)) := do
  settings.check.mapError .settings
  let schemas ← (Source.schemasOfFiles tree paths).mapError .schema
  (buildModules settings schemas).mapError .breach

end ElmBinding
