import ElmBinding.Name.ModuleName
import ElmBinding.Name.Reserved
import ElmBinding.Schema.Basic
import ElmBinding.Schema.Scope
import ElmBinding.Settings

/-!
# Bindings of types

A schema type is bound to five definitions: the type itself, its zero value, a decoder, an
encoder and a fuzzer.  A type of another module is named the way that module names it if
nothing clashes there.

Main definitions:

- Definition {lit}`Binding`: the five names and the module where they are defined.
- Definition {lit}`foreignBinding`: the names of a type by its reference alone.
-/

namespace ElmBinding

open Name

/-- The names of the definitions for a schema type. -/
structure Binding where
  /-- The module of the definitions; none for the module at hand. -/
  module : Option String
  /-- The type. -/
  id : String
  /-- Its zero value. -/
  zero : String
  decoder : String
  encoder : String
  fuzzer : String
deriving DecidableEq, Repr

namespace Binding

/-- The five names. -/
def names (binding : Binding) : List String :=
  [binding.id, binding.zero, binding.decoder, binding.encoder, binding.fuzzer]

/-- Whether the definitions are in the module at hand. -/
def isLocal (binding : Binding) : Bool :=
  binding.module.isNone

/-- A name of the binding as the module at hand writes it. -/
def qualified (binding : Binding) (name : String) : String :=
  match binding.module with
  | some home => home ++ "." ++ name
  | none => name

end Binding

/-! ## Derived names -/

/-- The name of the zero value of a type. -/
def zeroName (id : String) : String :=
  "empty" ++ id

/-- The name of a decoder, from the value name of its type. -/
def decoderName (stem : String) : String :=
  stem ++ "Decoder"

/-- The name of an encoder, from the value name of its type. -/
def encoderName (stem : String) : String :=
  stem ++ "Encoder"

/-- The name of a fuzzer, from the value name of its type. -/
def fuzzerName (stem : String) : String :=
  stem ++ "Fuzzer"

/-- The names of a type, from its type name and its value name. -/
def bindingOf (module : Option String) (id stem : String) : Binding :=
  ⟨module, id, zeroName id, decoderName stem, encoderName stem, fuzzerName stem⟩

/-! ## Types of other modules -/

/-- The key of a type of another module, by its reference alone. -/
def foreignKey (settings : Settings) (reference : Reference) : String :=
  let name := dropQualifier reference.package reference.fullName
  if settings.qualifyNested then name else lastSegment name

/-- The type name for a key, moved away from reserved words. -/
def unreservedId (settings : Settings) (key : String) : String :=
  let id := casing .type settings.separator key
  if isReserved id then id ++ settings.collisionSuffix else id

/-- The names of a type, by its reference alone, as the module {lit}`here` sees them. -/
def foreignBinding (settings : Settings) (here : String) (reference : Reference) : Binding :=
  let home := packageModule settings.modulePrefix reference.package
  let key := foreignKey settings reference
  bindingOf (if home = here then none else some home)
    (unreservedId settings key) (casing .value settings.separator key)

end ElmBinding
