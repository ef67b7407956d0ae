import ElmBinding.Name.Namespace
import ElmBinding.Naming.Binding
import ElmBinding.Naming.Registry

/-!
# Giving out identifiers

Identifiers are claimed when they are first needed and written into a ledger, so that a
declaration has the same identifier wherever it is referred to.  What a failed step has
claimed stays claimed.

Main definitions:

- Definition {lit}`Ledger`: the identifiers given out.
- Definition {lit}`Naming`: steps that read and extend the ledger and may fail.
- Definition {lit}`Site`: the module for which identifiers are given out.
- Definitions {lit}`Site.typeId`, {lit}`Site.valueId`, {lit}`Site.binding`: identifiers of
  declarations.
- Definition {lit}`Site.reference`: the binding that a reference means.
-/

namespace ElmBinding

open Name

/-- The identifiers given out in a module. -/
structure Ledger where
  /-- The identifiers that are taken. -/
  taken : Namespace
  /-- The type names of declarations, by full name. -/
  typeIds : List (String × String) := []
  /-- The value names of declarations, by full name. -/
  valueIds : List (String × String) := []
  /-- The bindings of types, by full name. -/
  bindings : List (String × Binding) := []
deriving DecidableEq, Repr

/-- The ledger in which nothing has been given out and the reserved words are taken. -/
def Ledger.blank (settings : Settings) : Ledger where
  taken := .ofReserved settings.collisionSuffix

/-- Steps that read and extend the ledger and may fail; a failure keeps what was claimed. -/
abbrev Naming := EStateM BindingError Ledger

/-- The error of a declaration whose identifier is refused. -/
def refusal (fullName : String) : Refusal → BindingError
  | .taken candidate => .collision fullName candidate
  | .illegal id => .breach (.illegalIdentifier id)

/-- Claim the first free identifier for a candidate, on behalf of a declaration. -/
def claim (fullName candidate : String) : Naming String := fun ledger =>
  match ledger.taken.claim candidate with
  | .ok (id, taken) => .ok id { ledger with taken }
  | .error refused => .error (refusal fullName refused) ledger

/-- The module for which identifiers are given out. -/
structure Site where
  /-- The declarations of the module. -/
  registry : Registry
  settings : Settings
  /-- The name of the module. -/
  module : String

namespace Site

/-- The key of a declaration. -/
def key (site : Site) (fullName : String) : Naming String :=
  match site.registry.key? fullName with
  | some key => pure key
  | none => throw (.breach (.unregisteredName fullName))

/-- The identifier that a declaration would have if nothing clashed. -/
def candidate (site : Site) (role : Role) (fullName : String) : Naming String := do
  let key ← site.key fullName
  return casing role site.settings.separator key

/-- The type name of a declaration. -/
def typeId (site : Site) (fullName : String) : Naming String := do
  match (← get).typeIds.lookup fullName with
  | some id => return id
  | none =>
      let wanted ← site.candidate .type fullName
      let id ← claim fullName wanted
      modify fun ledger => { ledger with typeIds := (fullName, id) :: ledger.typeIds }
      return id

/-- The value name of a declaration. -/
def valueId (site : Site) (fullName : String) : Naming String := do
  match (← get).valueIds.lookup fullName with
  | some id => return id
  | none =>
      let wanted ← site.candidate .value fullName
      let id ← claim fullName wanted
      modify fun ledger => { ledger with valueIds := (fullName, id) :: ledger.valueIds }
      return id

/-- The binding of a declared type: its type name and the names derived from it. -/
def binding (site : Site) (fullName : String) : Naming Binding := do
  match (← get).bindings.lookup fullName with
  | some binding => return binding
  | none =>
      let id ← site.typeId fullName
      let zero ← claim fullName (zeroName id)
      let stem ← site.candidate .value fullName
      let decoder ← claim fullName (decoderName stem)
      let encoder ← claim fullName (encoderName stem)
      let fuzzer ← claim fullName (fuzzerName stem)
      let binding : Binding := ⟨none, id, zero, decoder, encoder, fuzzer⟩
      modify fun ledger => { ledger with bindings := (fullName, binding) :: ledger.bindings }
      return binding

/-- The binding that a reference means: a declared type, or else one of another module. -/
def reference (site : Site) (reference : Reference) : Naming Binding :=
  if site.registry.isRegistered reference.fullName then
    site.binding reference.fullName
  else
    return foreignBinding site.settings site.module reference

end Site

end ElmBinding
