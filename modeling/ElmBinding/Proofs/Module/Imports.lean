import ElmBinding.Proofs.Module.Qualifiers

/-!
# Imports are exact

A module imports the home of every foreign type that its fields and procedures mention, the
library of dictionaries if one of its fields is a dictionary, and the library of bytes if one of
its fields holds bytes.  It imports nothing else.  The same list can be read off the schema, from
the fields that have a place in the module and the methods of its services.  Two of these
reasons may ask for one name, which is then imported once, and imports ascend.

Main results:

- Definition {lit}`Module.Needs`: the reasons for an import in what a module defines.
- Definition {lit}`Schema.Requires`: the reasons for an import in a schema.
- Theorem {lit}`Origination.needs_iff`: reasons in a module, by what it mentions.
- Theorem {lit}`Origination.requires_iff`: reasons in a schema, by what its module mentions.
- Theorem {lit}`imports_exact`: imports ascend, and each has a reason of either kind.
-/

namespace ElmBinding

/-! ## Reasons for imports -/

/-- What a module defines has need of another module. -/
inductive Module.Needs (module : Module) : String → Prop
  | foreign {binding : Binding} {home : String} (hmentioned : binding ∈ module.mentioned)
      (hhome : binding.module = some home) : Needs module home
  | dictionary {field : RecordField} {key value : Element}
      (hfield : field ∈ fieldsOf module.records module.choices)
      (htype : field.type = .map key value) : Needs module dictModule
  | bytes {field : RecordField} {wire : Scalar}
      (hfield : field ∈ fieldsOf module.records module.choices)
      (helement : .scalar wire .bytes ∈ field.type.elements) : Needs module bytesModule

/-- The fields whose values the module of a schema holds. -/
def Schema.heldSources (schema : Schema) : List Field :=
  schema.recordMessages.flatMap fun message =>
    message.placedFields.flatMap (schema.heldFields message)

/-- The module of a schema requires another module. -/
inductive Schema.Requires (settings : Settings) (schema : Schema) : String → Prop
  | value {source : Field} {target : Reference} {home : String}
      (hsource : source ∈ schema.heldSources) (htarget : source.kind.target? = some target)
      (habroad : schema.LooksAbroad settings target home) : Requires settings schema home
  | method {service : Service} {method : Method} {target : Reference} {home : String}
      (hservice : service ∈ schema.services) (hmethod : method ∈ service.methods)
      (htarget : target = method.input ∨ target = method.output)
      (habroad : schema.LooksAbroad settings target home) : Requires settings schema home
  | dictionary {message entry : Message} {field : Field}
      (hmessage : message ∈ schema.recordMessages) (hfield : field ∈ message.placedFields)
      (hpresent : message.isOptional field = false) (hrepeated : field.cardinality = .repeated)
      (hentry : schema.mapEntry? field = some entry) : Requires settings schema dictModule
  | bytes {source : Field} (hsource : source ∈ schema.heldSources)
      (hkind : source.kind = .scalar .bytes) : Requires settings schema bytesModule

/-! ## What types mention -/

/-- A scalar type is that of bytes if its values are bytes. -/
theorem Scalar.primitive?_eq_bytes_iff {wire : Scalar} :
    wire.primitive? = some .bytes ↔ wire = .bytes := by
  cases wire <;> simp [Scalar.primitive?]

/-- A type mentions the library of dictionaries or what one of its elements mentions. -/
theorem FieldType.mem_imports_iff {type : FieldType} {name : String} :
    name ∈ type.imports ↔ (type.isMap = true ∧ name = dictModule) ∨
      ∃ element ∈ type.elements, name ∈ element.imports := by
  rw [imports, List.mem_append, List.mem_flatMap]
  cases type.isMap <;> simp

/-- An element mentions the library of bytes or the home of its type. -/
theorem Element.mem_imports_iff {element : Element} {name : String} :
    name ∈ element.imports ↔ (∃ wire, element = .scalar wire .bytes ∧ name = bytesModule) ∨
      ∃ binding, element = .named binding ∧ binding.module = some name := by
  cases element with
  | scalar wire primitive => cases primitive <;> simp [imports]
  | named binding => simp [imports]

/-- A named element of a type is a binding that the type mentions. -/
theorem FieldType.mem_bindings_of_named {type : FieldType} {binding : Binding}
    (h : .named binding ∈ type.elements) : binding ∈ type.bindings := by
  have hchoice : type.isChoice = false := by
    cases type with
    | choice other => contradiction
    | _ => rfl
  rw [FieldType.bindings_eq hchoice]
  exact List.mem_filterMap.mpr ⟨.named binding, h, rfl⟩

namespace Origination

variable {settings : Settings} {schema : Schema} {module : Module} {layout : Layout}
  {site : Site} {ledger : Ledger} {name : String}

/-! ## Reasons in modules -/

/-- A module has need of what its fields and procedures mention. -/
theorem needs_iff (h : Origination settings schema module layout site ledger) :
    module.Needs name ↔
      (∃ field ∈ fieldsOf module.records module.choices, name ∈ field.type.imports) ∨
        ∃ procedure ∈ module.services.flatMap ProcedureGroup.procedures,
          name ∈ procedure.imports := by
  constructor
  · intro hneeds
    cases hneeds with
    | foreign hmentioned hhome => exact h.exists_import_of_mentioned hmentioned hhome
    | @dictionary field key value hfield htype =>
        refine Or.inl ⟨field, hfield, FieldType.mem_imports_iff.mpr (Or.inl ⟨?_, rfl⟩)⟩
        rw [htype]
        rfl
    | @bytes field wire hfield helement =>
        refine Or.inl ⟨field, hfield, FieldType.mem_imports_iff.mpr (Or.inr ⟨_, helement, ?_⟩)⟩
        exact Element.mem_imports_iff.mpr (Or.inl ⟨wire, rfl, rfl⟩)
  · rintro (⟨field, hfield, hname⟩ | ⟨procedure, hprocedure, hname⟩)
    · rcases FieldType.mem_imports_iff.mp hname with ⟨hmap, rfl⟩ | ⟨element, helement, hname⟩
      · cases htype : field.type with
        | map key value => exact .dictionary hfield htype
        | _ =>
            rw [htype] at hmap
            contradiction
      · rcases Element.mem_imports_iff.mp hname with ⟨wire, rfl, rfl⟩ | ⟨binding, rfl, hhome⟩
        · exact .bytes hfield helement
        · have hbinding := FieldType.mem_bindings_of_named helement
          refine .foreign (List.mem_append_left _ ?_) hhome
          exact List.mem_flatMap.mpr ⟨field, hfield, hbinding⟩
    · rcases Procedure.mem_imports_iff.mp hname with ⟨binding, hbinding, hhome⟩
      refine .foreign (List.mem_append_right _ ?_) hhome
      exact List.mem_flatMap.mpr ⟨procedure, hprocedure, hbinding⟩

/-! ## Reasons in schemas -/

/-- What the element for a field mentions, by the kind of the field. -/
theorem mem_element_imports_iff (h : Origination settings schema module layout site ledger)
    {source : Field} {element : Element} (helement : site.HasElement ledger source element) :
    name ∈ element.imports ↔ (source.kind = .scalar .bytes ∧ name = bytesModule) ∨
      ∃ target, source.kind.target? = some target ∧
        schema.LooksAbroad settings target name := by
  rw [Element.mem_imports_iff]
  cases helement with
  | @scalar wire primitive hkind hprimitive =>
      have hbytes : primitive = .bytes ↔ wire = .bytes := by
        rw [← Scalar.primitive?_eq_bytes_iff, hprimitive, Option.some.injEq]
      simp [hkind, hbytes, FieldKind.target?]
  | enumeration hkind hmeans | message hkind hmeans =>
      simp [hkind, FieldKind.target?, h.module_eq_some_iff hmeans]

/-- The type of a placed field is a dictionary if the field is repeated and has an entry. -/
theorem isMap_iff (h : Origination settings schema module layout site ledger)
    {message : Message} {field : Field} {recordField : RecordField}
    (hplace : site.HasPlace ledger message field recordField) :
    recordField.type.isMap = true ↔ message.isOptional field = false ∧
      field.cardinality = .repeated ∧ ∃ entry, schema.mapEntry? field = some entry := by
  rw [← h.mapEntry?_eq]
  cases hplace with
  | optional hoptional helement => simp [FieldType.isMap, hoptional]
  | plain hplain hmade =>
      have htype := hmade.type
      revert htype
      generalize recordField.type = type
      intro htype
      cases htype with
      | single hsingle helement => simp [FieldType.isMap, hsingle]
      | list hrepeated hentry helement => simp [FieldType.isMap, hentry]
      | map hrepeated hentry hfields hkey hmapKey hvalue =>
          simp [FieldType.isMap, hplain, hrepeated, hentry]

/-- What the type of a placed field mentions, by what the field holds. -/
theorem mem_type_imports_iff (h : Origination settings schema module layout site ledger)
    {message : Message} {field : Field} {recordField : RecordField}
    (hplace : site.HasPlace ledger message field recordField) :
    name ∈ recordField.type.imports ↔
      ((message.isOptional field = false ∧ field.cardinality = .repeated ∧
        ∃ entry, schema.mapEntry? field = some entry) ∧ name = dictModule) ∨
      ∃ source ∈ schema.heldFields message field,
        (source.kind = .scalar .bytes ∧ name = bytesModule) ∨
          ∃ target, source.kind.target? = some target ∧
            schema.LooksAbroad settings target name := by
  have hheld := h.forall₂_heldFields hplace
  rw [FieldType.mem_imports_iff, h.isMap_iff hplace]
  constructor
  · rintro (hmap | ⟨element, helement, hname⟩)
    · exact Or.inl hmap
    · rcases exists_of_forall₂_of_mem hheld helement with ⟨source, hsource, hmade⟩
      exact Or.inr ⟨source, hsource, (h.mem_element_imports_iff hmade).mp hname⟩
  · rintro (hmap | ⟨source, hsource, hreason⟩)
    · exact Or.inl hmap
    · rcases exists_of_forall₂_of_mem hheld.flip hsource with ⟨element, helement, hmade⟩
      exact Or.inr ⟨element, helement, (h.mem_element_imports_iff hmade).mpr hreason⟩

/-- What a procedure mentions, by the method that it stands for. -/
theorem mem_procedure_imports_iff (h : Origination settings schema module layout site ledger)
    {owner : String} {method : Method} {procedure : Procedure}
    (hprocedure : site.HasProcedure ledger owner method procedure) :
    name ∈ procedure.imports ↔ ∃ target, (target = method.input ∨ target = method.output) ∧
      schema.LooksAbroad settings target name := by
  rw [Procedure.mem_imports_iff]
  simp [Procedure.bindings, h.module_eq_some_iff hprocedure.input,
    h.module_eq_some_iff hprocedure.output]

/-- A type without elements that is no dictionary mentions nothing, so choices may be left out. -/
theorem exists_field_iff (h : Origination settings schema module layout site ledger) :
    (∃ field ∈ fieldsOf module.records module.choices, name ∈ field.type.imports) ↔
      ∃ field ∈ module.valueFields, name ∈ field.type.imports := by
  constructor
  · rintro ⟨field, hfield, hname⟩
    rcases h.mem_valueFields_or_choice hfield with hvalue | ⟨choice, -, htype⟩
    · exact ⟨field, hvalue, hname⟩
    · rw [htype] at hname
      contradiction
  · rintro ⟨field, hfield, hname⟩
    exact ⟨field, module.valueFields_subset hfield, hname⟩

/-- A schema requires what the fields and procedures of its module mention. -/
theorem requires_iff (h : Origination settings schema module layout site ledger) :
    schema.Requires settings name ↔
      (∃ field ∈ fieldsOf module.records module.choices, name ∈ field.type.imports) ∨
        ∃ procedure ∈ module.services.flatMap ProcedureGroup.procedures,
          name ∈ procedure.imports := by
  rw [h.exists_field_iff]
  have hheld : ∀ {source : Field}, source ∈ schema.heldSources →
      ((source.kind = .scalar .bytes ∧ name = bytesModule) ∨
        ∃ target, source.kind.target? = some target ∧
          schema.LooksAbroad settings target name) →
      ∃ field ∈ module.valueFields, name ∈ field.type.imports := by
    intro source hsource hreason
    rcases List.mem_flatMap.mp hsource with ⟨message, hmessage, hsource⟩
    rcases List.mem_flatMap.mp hsource with ⟨field, hfield, hsource⟩
    rcases h.exists_place_of_placed hmessage hfield with ⟨recordField, hmem, hplace⟩
    exact ⟨recordField, hmem,
      (h.mem_type_imports_iff hplace).mpr (Or.inr ⟨source, hsource, hreason⟩)⟩
  constructor
  · intro hrequires
    cases hrequires with
    | value hsource htarget habroad => exact Or.inl (hheld hsource (Or.inr ⟨_, htarget, habroad⟩))
    | bytes hsource hkind => exact Or.inl (hheld hsource (Or.inl ⟨hkind, rfl⟩))
    | dictionary hmessage hfield hpresent hrepeated hentry =>
        rcases h.exists_place_of_placed hmessage hfield with ⟨recordField, hmem, hplace⟩
        exact Or.inl ⟨recordField, hmem, (h.mem_type_imports_iff hplace).mpr
          (Or.inl ⟨⟨hpresent, hrepeated, _, hentry⟩, rfl⟩)⟩
    | method hservice hmethod htarget habroad =>
        rcases h.exists_procedure hservice hmethod with ⟨procedure, hmem, hprocedure⟩
        exact Or.inr ⟨procedure, hmem,
          (h.mem_procedure_imports_iff hprocedure).mpr ⟨_, htarget, habroad⟩⟩
  · rintro (⟨recordField, hmem, hname⟩ | ⟨procedure, hmem, hname⟩)
    · rcases h.exists_placed hmem with ⟨message, hmessage, field, hfield, hplace⟩
      rcases (h.mem_type_imports_iff hplace).mp hname with
        ⟨⟨hpresent, hrepeated, entry, hentry⟩, rfl⟩ | ⟨source, hsource, hreason⟩
      · exact .dictionary hmessage hfield hpresent hrepeated hentry
      · have hmem : source ∈ schema.heldSources :=
          List.mem_flatMap.mpr ⟨message, hmessage, List.mem_flatMap.mpr ⟨field, hfield, hsource⟩⟩
        rcases hreason with ⟨hkind, rfl⟩ | ⟨target, htarget, habroad⟩
        · exact .bytes hmem hkind
        · exact .value hmem htarget habroad
    · rcases h.exists_method hmem with ⟨service, hservice, method, hmethod, hprocedure⟩
      rcases (h.mem_procedure_imports_iff hprocedure).mp hname with ⟨target, htarget, habroad⟩
      exact .method hservice hmethod htarget habroad

end Origination

/-! ## Modules -/

/-- Imports ascend without repeats. -/
theorem pairwise_imports {settings : Settings} {schema : Schema} {module : Module}
    (h : buildModule settings schema = .ok module) : module.imports.Pairwise (· < ·) := by
  rcases buildModule_eq_ok_iff.mp h with ⟨-, registry, -, hbuild⟩
  rcases Site.definitions_of_build hbuild with ⟨ledger, definitions, -, -, rfl⟩
  exact Sequence.pairwise_sortedSet _

/--
The imports of a module ascend without repeats.  They are the modules that its definitions have
need of, and the modules that its schema requires.
-/
theorem imports_exact {settings : Settings} {schema : Schema} {module : Module}
    (h : buildModule settings schema = .ok module) :
    module.imports.Pairwise (· < ·) ∧
      ∀ name, (name ∈ module.imports ↔ module.Needs name) ∧
        (name ∈ module.imports ↔ schema.Requires settings name) := by
  rcases exists_layout h with ⟨layout, site, ledger, horigin⟩
  refine ⟨pairwise_imports h, ?_⟩
  intro name
  rw [horigin.needs_iff, horigin.requires_iff, mem_imports_iff h]
  exact ⟨Iff.rfl, Iff.rfl⟩

/-- A schema with a dictionary of bytes and with types of other packages, one of them local. -/
def harborSchema : Schema where
  package := some "harbor"
  messages := [{
    name := "Ship", fullName := "harbor.Ship"
    fields := [
      { name := "cargo", fullName := "harbor.Ship.cargo", number := 1, cardinality := .repeated
        kind := .message { fullName := "harbor.Ship.CargoEntry", package := "harbor" } },
      { name := "flag", fullName := "harbor.Ship.flag", number := 2, oneof := some 0
        kind := .enumeration { fullName := "atlas.Country", package := "atlas" } },
      { name := "consort", fullName := "harbor.Ship.consort", number := 3
        kind := .message { fullName := "harbor.Ship", package := "harbor" } }]
    oneofs := [{ name := "identity", fullName := "harbor.Ship.identity" }]
    messages := [{
      name := "CargoEntry", fullName := "harbor.Ship.CargoEntry", mapEntry := true
      fields := [
        { name := "key", fullName := "harbor.Ship.CargoEntry.key", number := 1
          kind := .scalar .string },
        { name := "value", fullName := "harbor.Ship.CargoEntry.value", number := 2
          kind := .scalar .bytes }] }] }]
  services := [{
    name := "Pilot", fullName := "harbor.Pilot"
    methods := [{
      name := "Guide", fullName := "harbor.Pilot.Guide"
      input := { fullName := "harbor.Ship", package := "harbor" }
      output := { fullName := "quay.Berth", package := "quay" } }] }]

/-- The imports of the harbor are exact. -/
theorem imports_harborSchema :
    ∃ module, buildModule {} harborSchema = .ok module ∧
      module.imports = ["Atlas", "Bytes", "Dict", "Quay"] ∧
      module.imports.Pairwise (· < ·) ∧
      ∀ name, (name ∈ module.imports ↔ module.Needs name) ∧
        (name ∈ module.imports ↔ harborSchema.Requires {} name) := by
  have hok : (buildModule {} harborSchema).toOption.any (fun module =>
      module.imports = ["Atlas", "Bytes", "Dict", "Quay"]) = true := by
    decide +kernel
  cases hmodule : buildModule {} harborSchema with
  | error error => simp [hmodule, Except.toOption] at hok
  | ok module =>
      simp only [hmodule, Except.toOption, Option.any_some, decide_eq_true_eq] at hok
      exact ⟨module, rfl, hok, imports_exact hmodule⟩

end ElmBinding
