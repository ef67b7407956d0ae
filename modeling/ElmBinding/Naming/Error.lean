import ElmBinding.Schema.Error
import ElmBinding.Settings

/-!
# Errors in bindings

Why a schema has no module.  Some errors lie in the schema or the settings and are reported
for one module.  A breach means that a schema was put together in a way that naming relies
on not to happen; it stops all work.

Main definitions:

- Definition {lit}`Breach`: a broken assumption about a schema.
- Definition {lit}`BindingError`: why there is no module.
- Definition {lit}`BindingError.message`: what to tell the user about it.
-/

namespace ElmBinding

/-- A broken assumption about a schema. -/
inductive Breach where
  /-- Two declarations have one full name. -/
  | duplicateName (fullName : String)
  /-- A name is wanted for something that is not declared. -/
  | unregisteredName (fullName : String)
  /-- A text that is no identifier is wanted as one. -/
  | illegalIdentifier (id : String)
  /-- A field belongs to a oneof that its message, with fewer oneofs, does not have. -/
  | strayIndex (index count : Nat)
deriving DecidableEq, Repr

/-- The report of a breach. -/
def Breach.message : Breach → String
  | .duplicateName fullName => "duplicate schema name `" ++ fullName ++ "`"
  | .unregisteredName fullName => "unregistered schema name `" ++ fullName ++ "`"
  | .illegalIdentifier id => "illegal Elm identifier `" ++ id ++ "`"
  | .strayIndex index count =>
      "index out of bounds: the len is " ++ Nat.repr count ++ " but the index is " ++
        Nat.repr index

/-- Why a schema has no module. -/
inductive BindingError where
  /-- The files do not make up a schema. -/
  | schema (error : SchemaError)
  /-- A setting is not legal. -/
  | settings (error : SettingsError)
  /-- The identifier of a declaration is taken. -/
  | collision (fullName candidate : String)
  /-- The values of a field have no counterpart. -/
  | unsupported (fullName kind : String)
  /-- An enumeration has no values. -/
  | emptyEnum (fullName : String)
  /-- Naming cannot go on. -/
  | breach (breach : Breach)
deriving DecidableEq, Repr

namespace BindingError

/-- The report of an error. -/
def message : BindingError → String
  | schema error => error.message
  | settings error => "invalid configuration: " ++ error.message
  | collision fullName candidate =>
      "`" ++ fullName ++ "` generates the Elm identifier `" ++ candidate ++
        "` which is already taken; rename it or configure a collision suffix"
  | unsupported fullName kind =>
      "field `" ++ fullName ++ "` has type `" ++ kind ++ "` which has no Elm representation"
  | emptyEnum fullName => "enum `" ++ fullName ++ "` has no values"
  | breach broken => broken.message

/-- The breach behind an error, if there is one. -/
def breach? : BindingError → Option Breach
  | breach broken => some broken
  | _ => none

end BindingError

end ElmBinding
