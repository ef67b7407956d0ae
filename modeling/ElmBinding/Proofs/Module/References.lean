import ElmBinding.Proofs.Module.Completeness
import ElmBinding.Proofs.Schema.Targets

/-!
# References meet definitions

A field, a value of a map and the input and output of a method refer to types by full name.
Where the schema declares such a type, the binding in the module is that of the union or the
record that the module defines for it, no matter which of the two was named first and how
many places refer to it.

Main results:

- Definition {lit}`Layout.Binds`: bindings of the definitions for a full name.
- Definition {lit}`Layout.TypeFits`: types that bind what a field refers to.
- Theorem {lit}`Origination.binds`: what a reference means is what the module defines.
- Theorem {lit}`references_bound`: every reference in a module is to the right definition.
-/

namespace ElmBinding

/-- The entry of a map in a schema that a field refers to. -/
def Schema.mapEntry? (schema : Schema) (field : Field) : Option Message :=
  match field.kind with
  | .message target => (schema.findMessage? target.fullName).filter Message.mapEntry
  | _ => none

/-- A field has an entry of a map if it refers to a message that is one. -/
theorem Schema.mapEntry?_eq_some_iff {schema : Schema} {field : Field} {entry : Message} :
    schema.mapEntry? field = some entry ↔ ∃ target, field.kind = .message target ∧
      schema.findMessage? target.fullName = some entry ∧ entry.mapEntry = true := by
  unfold Schema.mapEntry?
  cases hkind : field.kind with
  | message target => simp [Option.filter_eq_some_iff]
  | _ => simp

/-- A site with the registry of a schema finds the entries of maps in the schema. -/
theorem Site.mapEntry?_eq_of_registry {settings : Settings} {package : String} {schema : Schema}
    {site : Site} (hregistry : Registry.ofSchema settings package schema = .ok site.registry)
    (field : Field) : site.mapEntry? field = schema.mapEntry? field := by
  unfold Site.mapEntry? Schema.mapEntry?
  cases field.kind with
  | message target => simp only [Registry.message?_eq hregistry]
  | _ => rfl

namespace Layout

/-- A binding that the union or record for every declaration with a full name has. -/
structure Binds (layout : Layout) (fullName : String) (binding : Binding) : Prop where
  union : ∀ pair ∈ layout.unions, pair.1.fullName = fullName → binding = pair.2.binding
  record : ∀ pair ∈ layout.recordPairs, pair.1.fullName = fullName → binding = pair.2.binding

/-- A type of single values that binds what a kind refers to. -/
inductive ElementFits (layout : Layout) (kind : FieldKind) : Element → Prop
  | scalar {wire : Scalar} {primitive : Primitive} (hkind : kind = .scalar wire) :
      ElementFits layout kind (.scalar wire primitive)
  | named {target : Reference} {binding : Binding} (htarget : kind.target? = some target)
      (hbinds : layout.Binds target.fullName binding) :
      ElementFits layout kind (.named binding)

/-- A type that binds what a field refers to, or the entry of a map that it refers to. -/
inductive TypeFits (layout : Layout) (schema : Schema) (field : Field) : FieldType → Prop
  | single {element : Element} (helement : layout.ElementFits field.kind element) :
      TypeFits layout schema field (.single element)
  | list {element : Element} (helement : layout.ElementFits field.kind element) :
      TypeFits layout schema field (.list element)
  | maybe {element : Element} (helement : layout.ElementFits field.kind element) :
      TypeFits layout schema field (.maybe element)
  | map {entry : Message} {keyField valueField : Field} {rest : List Field}
      {key value : Element} (hentry : schema.mapEntry? field = some entry)
      (hfields : entry.fields = keyField :: valueField :: rest)
      (hkey : layout.ElementFits keyField.kind key)
      (hvalue : layout.ElementFits valueField.kind value) :
      TypeFits layout schema field (.map key value)

/-- Procedures that stand for the methods of a service and bind what the methods refer to. -/
def GroupFits (layout : Layout) (service : Service) (group : ProcedureGroup) : Prop :=
  ∃ pairs, Pairing service.methods group.procedures pairs ∧
    ∀ pair ∈ pairs, pair.2.Mirrors service pair.1 ∧
      layout.Binds pair.1.input.fullName pair.2.input ∧
      layout.Binds pair.1.output.fullName pair.2.output

end Layout

namespace Origination

variable {settings : Settings} {schema : Schema} {module : Module} {layout : Layout}
  {site : Site} {ledger : Ledger}

/-! ## References -/

/-- What a reference means is bound by the definitions for its name. -/
theorem binds (h : Origination settings schema module layout site ledger)
    {reference : Reference} {binding : Binding} (hmeans : site.Means ledger reference binding) :
    layout.Binds reference.fullName binding where
  union := by
    intro pair hpair hname
    have hmem := h.lists.unions.sources.mem_iff.mp (List.mem_map_of_mem hpair)
    have hregistered := Registry.isRegistered_of_enum h.registry hmem
    rw [hname] at hregistered
    rw [Site.Means, if_pos hregistered, ← hname, (h.stems.unions pair hpair).binding] at hmeans
    exact (Option.some.inj hmeans).symm
  record := by
    intro pair hpair hname
    have hmem := h.lists.records.sources.mem_iff.mp (List.mem_map_of_mem hpair)
    have hregistered := Registry.isRegistered_of_message h.registry (List.mem_filter.mp hmem).1
    rcases List.mem_map.mp hpair with ⟨entry, hentry, rfl⟩
    rw [hname] at hregistered
    rw [Site.Means, if_pos hregistered, ← hname, (h.stems.records entry hentry).binding] at hmeans
    exact (Option.some.inj hmeans).symm

/-- The type of a single value binds what its field refers to. -/
theorem elementFits (h : Origination settings schema module layout site ledger) {field : Field}
    {element : Element} (helement : site.HasElement ledger field element) :
    layout.ElementFits field.kind element := by
  cases helement with
  | scalar hkind hprimitive => exact .scalar hkind
  | enumeration hkind hmeans => exact .named (congrArg FieldKind.target? hkind) (h.binds hmeans)
  | message hkind hmeans => exact .named (congrArg FieldKind.target? hkind) (h.binds hmeans)

/-- The site of a module finds the entries of maps in the schema. -/
theorem mapEntry?_eq (h : Origination settings schema module layout site ledger) (field : Field) :
    site.mapEntry? field = schema.mapEntry? field :=
  Site.mapEntry?_eq_of_registry h.registry field

/-- The type of the field that holds the values of a field binds what the field refers to. -/
theorem typeFits (h : Origination settings schema module layout site ledger) {message : Message}
    {field : Field} {recordField : RecordField}
    (hplace : site.HasPlace ledger message field recordField) :
    layout.TypeFits schema field recordField.type := by
  cases hplace with
  | optional hoptional helement => exact .maybe (h.elementFits helement)
  | plain hplain hfield =>
      have htype := hfield.type
      revert htype
      generalize recordField.type = type
      intro htype
      cases htype with
      | single hsingle helement => exact .single (h.elementFits helement)
      | list hrepeated hentry helement => exact .list (h.elementFits helement)
      | map hrepeated hentry hfields hkey hmapKey hvalue =>
          rw [h.mapEntry?_eq] at hentry
          exact .map hentry hfields (h.elementFits hkey) (h.elementFits hvalue)

/-- The procedures of a service bind what its methods refer to. -/
theorem groupFits (h : Origination settings schema module layout site ledger) {service : Service}
    {group : ProcedureGroup} (hgroup : site.HasGroup ledger service group) :
    layout.GroupFits service group := by
  rcases hgroup.exists_pairing with ⟨pairs, hpairing, hprocedures⟩
  refine ⟨pairs, hpairing, ?_⟩
  intro pair hpair
  have hprocedure := hprocedures pair hpair
  exact ⟨hprocedure.mirrors, h.binds hprocedure.input, h.binds hprocedure.output⟩

end Origination

/--
Every field of a module that holds values, and every procedure, binds what the field or method
behind it refers to: the union or record that the module defines for that name.
-/
theorem references_bound {settings : Settings} {schema : Schema} {module : Module}
    (h : buildModule settings schema = .ok module) :
    ∃ layout, layoutOf settings schema = .ok layout ∧ layout.Lists schema module ∧
      (∀ pair ∈ layout.fieldPairs, layout.TypeFits schema pair.1 pair.2.type) ∧
      ∀ pair ∈ layout.services, layout.GroupFits pair.1 pair.2 := by
  rcases exists_layout h with ⟨layout, site, ledger, horigin⟩
  refine ⟨layout, horigin.layout_eq, horigin.lists, ?_, ?_⟩
  · intro pair hpair
    rcases List.mem_flatMap.mp hpair with ⟨entry, hentry, hpair⟩
    have hrecord := horigin.stems.records entry hentry
    exact horigin.typeFits (RecordLayout.hasPlace_of_mem hrecord hpair)
  · intro pair hpair
    exact horigin.groupFits (horigin.stems.services pair hpair)

/-- The references in the orchard are bound, to definitions before and behind them. -/
theorem references_orchardSchema :
    ∃ module, buildModule { collisionSuffix := "_" } orchardSchema = .ok module ∧
      ∃ layout, layoutOf { collisionSuffix := "_" } orchardSchema = .ok layout ∧
        layout.Lists orchardSchema module ∧
        (∀ pair ∈ layout.fieldPairs, layout.TypeFits orchardSchema pair.1 pair.2.type) ∧
        ∀ pair ∈ layout.services, layout.GroupFits pair.1 pair.2 := by
  rcases exists_module_orchardSchema with ⟨module, hmodule⟩
  exact ⟨module, hmodule, references_bound hmodule⟩

end ElmBinding
