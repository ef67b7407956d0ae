import ElmBinding.Name.Legal

/-!
# Settings

The switches that govern how schema names become identifiers and modules.  Some of them
are pieces of identifiers, so they have to be legal there.

Main definitions:

- Definition {lit}`Settings`: the switches.
- Definition {lit}`Settings.check`: the first setting that is not legal, if there is one.
- Definition {lit}`SettingsError.message`: what to tell the user about it.
-/

namespace ElmBinding

open Name

/-- The switches that govern generated names. -/
structure Settings where
  /-- Name a nested type after its whole path and not after itself alone. -/
  qualifyNested : Bool := false
  /-- Joins the segments of a qualified name. -/
  separator : String := ""
  /-- Add the name of the enumeration or oneof to the names of its variants. -/
  variantSuffixes : Bool := false
  /-- Appended to a taken identifier until it is free; empty to refuse it. -/
  collisionSuffix : String := ""
  /-- Replaces the name of the module. -/
  moduleName : Option String := none
  /-- Goes before module names that come from packages and files; empty for none. -/
  modulePrefix : String := ""
deriving DecidableEq, Repr

/-- A setting that cannot be part of the names it is meant for. -/
inductive SettingsError where
  /-- The separator does not fit into an identifier. -/
  | separator (text : String)
  /-- The collision suffix does not fit into an identifier. -/
  | collisionSuffix (text : String)
  /-- The module name is not a list of type names. -/
  | moduleName (text : String)
  /-- The module prefix is not a list of type names. -/
  | modulePrefix (text : String)
deriving DecidableEq, Repr

/-- The report of an illegal setting. -/
def SettingsError.message : SettingsError → String
  | .separator text =>
      "qualified separator must be a valid Elm identifier fragment, got `" ++ text ++ "`"
  | .collisionSuffix text =>
      "collision suffix must be a valid Elm identifier fragment, got `" ++ text ++ "`"
  | .moduleName text =>
      "module name must be a dotted list of Elm type names, got `" ++ text ++ "`"
  | .modulePrefix text =>
      "module prefix must be a dotted list of Elm type names, got `" ++ text ++ "`"

namespace Settings

/-- Whether the module name is legal; an absent one is. -/
def moduleNameLegal (settings : Settings) : Bool :=
  settings.moduleName.all isModuleName

/-- Whether the module prefix is legal; an empty one is. -/
def modulePrefixLegal (settings : Settings) : Bool :=
  settings.modulePrefix = "" || isModuleName settings.modulePrefix

/-- Refuse the first illegal setting, in the order of the fields. -/
def check (settings : Settings) : Except SettingsError Unit :=
  if !isFragment settings.separator then
    .error (.separator settings.separator)
  else if !isFragment settings.collisionSuffix then
    .error (.collisionSuffix settings.collisionSuffix)
  else if !settings.moduleNameLegal then
    .error (.moduleName (settings.moduleName.getD ""))
  else if !settings.modulePrefixLegal then
    .error (.modulePrefix settings.modulePrefix)
  else
    .ok ()

end Settings

end ElmBinding
