import ElmBinding.Name.ModuleName
import ElmBinding.Schema.Basic
import ElmBinding.Settings

/-!
# The name of a schema's module

A module is named by the settings, else after the package of its schema, else after the
file of its schema.

Main definitions:

- Definition {lit}`Schema.moduleSource`: the dotted name that the module name is made of.
- Definition {lit}`Schema.moduleName`: the name of the module.
-/

namespace ElmBinding
namespace Schema

open Name

/-- The dotted name behind a module name: the package, else the file, else a placeholder. -/
def moduleSource (schema : Schema) : String :=
  if schema.packageName = "" then
    (schema.fileName.bind fileStem?).getD "X"
  else
    schema.packageName

/-- The name of the module of a schema. -/
def moduleName (settings : Settings) (schema : Schema) : String :=
  match settings.moduleName with
  | some name => name
  | none => packageModule settings.modulePrefix schema.moduleSource

/-- Unless the settings say otherwise, a schema with a package has the module of its package. -/
theorem moduleName_eq_packageModule {settings : Settings} {schema : Schema}
    (hname : settings.moduleName = none) (hpackage : schema.packageName ≠ "") :
    schema.moduleName settings = packageModule settings.modulePrefix schema.packageName := by
  rw [moduleName, hname, moduleSource, if_neg hpackage]

end Schema
end ElmBinding
