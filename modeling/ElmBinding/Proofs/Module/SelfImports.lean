import ElmBinding.Proofs.Module.Imports
import ElmBinding.Proofs.Module.Titles

/-!
# Modules that import themselves

A type of the module at hand is never qualified, so no reference to a type makes a module import
itself.  The libraries of dictionaries and of bytes are imported under fixed names, whatever the
module at hand is called.  A module imports itself exactly if it has the name of one of these
libraries and has need of the library.

Main results:

- Definition {lit}`Schema.ShadowsLibrary`: schemas whose module is called like a library it needs.
- Theorem {lit}`Schema.requires_moduleName_iff`: which schemas require their own module.
- Theorem {lit}`name_mem_imports_iff`: which modules import themselves.
-/

namespace ElmBinding

namespace Schema

variable {settings : Settings} {schema : Schema}

/-- A schema with a map field that has a place in the module. -/
def HoldsDictionary (schema : Schema) : Prop :=
  ∃ message ∈ schema.recordMessages, ∃ field ∈ message.placedFields,
    message.isOptional field = false ∧ field.cardinality = .repeated ∧
      ∃ entry, schema.mapEntry? field = some entry

/-- A schema with a field of bytes, or of maps to bytes, that has a place in the module. -/
def HoldsBytes (schema : Schema) : Prop :=
  ∃ source ∈ schema.heldSources, source.kind = .scalar .bytes

/-- A schema whose module has the name of a library and has need of that library. -/
def ShadowsLibrary (settings : Settings) (schema : Schema) : Prop :=
  (schema.moduleName settings = dictModule ∧ schema.HoldsDictionary) ∨
    (schema.moduleName settings = bytesModule ∧ schema.HoldsBytes)

/-- A schema requires its own module exactly if the module shadows a library. -/
theorem requires_moduleName_iff :
    schema.Requires settings (schema.moduleName settings) ↔ schema.ShadowsLibrary settings := by
  constructor
  · intro hrequires
    generalize hname : schema.moduleName settings = name at hrequires
    cases hrequires with
    | value _ _ habroad => exact absurd hname.symm habroad.apart
    | method _ _ _ habroad => exact absurd hname.symm habroad.apart
    | dictionary hmessage hfield hpresent hrepeated hentry =>
        exact Or.inl ⟨hname, _, hmessage, _, hfield, hpresent, hrepeated, _, hentry⟩
    | bytes hsource hkind => exact Or.inr ⟨hname, _, hsource, hkind⟩
  · rintro (⟨hname, message, hmessage, field, hfield, hpresent, hrepeated, entry, hentry⟩ |
      ⟨hname, source, hsource, hkind⟩)
    · rw [hname]
      exact .dictionary hmessage hfield hpresent hrepeated hentry
    · rw [hname]
      exact .bytes hsource hkind

end Schema

/-- A module imports itself exactly if it has the name of a library that its schema needs. -/
theorem name_mem_imports_iff {settings : Settings} {schema : Schema} {module : Module}
    (h : buildModule settings schema = .ok module) :
    module.name ∈ module.imports ↔ schema.ShadowsLibrary settings := by
  rcases exists_layout h with ⟨layout, site, ledger, horigin⟩
  rw [name_of_buildModule h, mem_imports_iff h, ← horigin.requires_iff]
  exact Schema.requires_moduleName_iff

/-- A text whose package has the name of the library that its field needs. -/
def bytesPackageText : String :=
  "syntax = \"proto3\"; package bytes; message Blob \x7b bytes data = 1; \x7d"

/-- The module of the package is called like the library, and imports itself. -/
theorem name_mem_imports_bytesPackage :
    ∃ schema module, Source.schemaOfText bytesPackageText = .ok schema ∧
      buildModule {} schema = .ok module ∧
      module.name = "Bytes" ∧ module.imports = ["Bytes"] ∧
      (module.name ∈ module.imports ↔ schema.ShadowsLibrary {}) := by
  have hok : (Source.schemaOfText bytesPackageText).toOption.any (fun schema =>
      (buildModule {} schema).toOption.any fun module =>
        module.name = "Bytes" ∧ module.imports = ["Bytes"]) = true := by
    decide +kernel
  cases hschema : Source.schemaOfText bytesPackageText with
  | error error => simp [hschema, Except.toOption] at hok
  | ok schema =>
      cases hmodule : buildModule {} schema with
      | error error => simp [hschema, hmodule, Except.toOption] at hok
      | ok module =>
          simp only [hschema, hmodule, Except.toOption, Option.any_some, decide_eq_true_eq] at hok
          exact ⟨schema, module, rfl, hmodule, hok.1, hok.2, name_mem_imports_iff hmodule⟩

end ElmBinding
