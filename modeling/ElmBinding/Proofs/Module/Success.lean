import ElmBinding.Proofs.Module.Closure
import ElmBinding.Proofs.Module.Safety
import ElmBinding.Proofs.Source.Names

/-!
# When a schema has a module

With a collision suffix, only two things can keep the schema of a text from having a module:
an enumeration without values, and a field whose values have no counterpart.  A field is
without one if it is a group or a 64-bit integer, or if it is a map whose keys are neither
`Int` nor `String` or whose values are 64-bit integers.  No such enumeration and no such field
is ever passed over.

Main results:

- Definition {lit}`Schema.Supports`: fields whose values have a counterpart.
- Definition {lit}`Schema.IsSupported`: schemas without fault.
- Theorem {lit}`Site.supports_iff`: what a site supports, in terms of the schema.
- Theorem {lit}`Origination.isSupported`: a schema that has a module is without fault.
- Theorem {lit}`buildModule_ok_iff`: when the schema of a text has a module.
-/

namespace ElmBinding

/-! ## Supported schemas -/

/-- Whether a scalar type is an integer type of 64 bits. -/
def Scalar.isWide : Scalar → Bool
  | int64 | uint64 | sint64 | fixed64 | sfixed64 => true
  | _ => false

/-- Whether the values of a kind are integers of 64 bits. -/
def FieldKind.isWide : FieldKind → Bool
  | .scalar type => type.isWide
  | _ => false

/-- A field that is no group and no 64-bit integer, and if a map, a supported one. -/
structure Schema.Supports (schema : Schema) (field : Field) : Prop where
  noGroup : ∀ target, field.kind ≠ .group target
  narrow : field.kind.isWide = false
  entry : field.cardinality = .repeated → ∀ entry, schema.mapEntry? field = some entry →
    ∃ key value, entry.fields = [key, value] ∧ key.kind.isMapKey = true ∧
      value.kind.isWide = false

/-- A schema whose enumerations have values and whose fields are supported. -/
structure Schema.IsSupported (schema : Schema) : Prop where
  enums : ∀ enumeration ∈ schema.allEnums, enumeration.values ≠ []
  fields : ∀ message ∈ schema.recordMessages, ∀ field ∈ message.fields, schema.Supports field

/-- The scalar types with a counterpart are those that are not wide. -/
theorem Scalar.isSome_primitive? (type : Scalar) : type.primitive?.isSome = !type.isWide := by
  cases type <;> rfl

/-- A kind has a counterpart for single values if it is neither a group nor wide. -/
theorem FieldKind.hasElement_iff {kind : FieldKind} :
    kind.hasElement = true ↔ (∀ target, kind ≠ .group target) ∧ kind.isWide = false := by
  cases kind with
  | scalar type => simp [hasElement, isWide, Scalar.isSome_primitive?]
  | enumeration target | message target => simp [hasElement, isWide]
  | group target => simp [hasElement]

/-- What a message holds as the entry of a map makes a dictionary unless one part is at fault. -/
theorem Message.HoldsEntry.isDictionary_iff {entry : Message} (h : entry.HoldsEntry) :
    entry.isDictionary = true ↔ ∃ key value, entry.fields = [key, value] ∧
      key.kind.isMapKey = true ∧ value.kind.isWide = false := by
  rcases h with ⟨key, value, type, hfields, -, hvalue⟩
  have hdictionary : entry.isDictionary = (key.kind.isMapKey && value.kind.hasElement) := by
    rw [Message.isDictionary, hfields]
  rw [hdictionary, Bool.and_eq_true, FieldKind.hasElement_iff]
  constructor
  · rintro ⟨hkey, -, hnarrow⟩
    exact ⟨key, value, hfields, hkey, hnarrow⟩
  · rintro ⟨key', value', hfields', hkey, hnarrow⟩
    rw [hfields] at hfields'
    simp only [List.cons.injEq, and_true] at hfields'
    rw [hfields'.1, hfields'.2]
    exact ⟨hkey, hfields'.2 ▸ hvalue, hnarrow⟩

variable {settings : Settings} {schema : Schema} {site : Site} {ledger : Ledger}

/-- The entry of a map that a field refers to is a message that holds one. -/
theorem Schema.WellFormed.holdsEntry (h : schema.WellFormed) {field : Field} {entry : Message}
    (hentry : schema.mapEntry? field = some entry) : entry.HoldsEntry := by
  have hmem := Schema.mem_of_mapEntry? hentry
  rcases Schema.mapEntry?_eq_some_iff.mp hentry with ⟨target, -, -, hmap⟩
  exact (h.messages entry hmem).entry hmap

namespace Site

/-- What a site supports are the supported fields of its schema. -/
theorem supports_iff {package : String} (hformed : schema.WellFormed)
    (hregistry : Registry.ofSchema settings package schema = .ok site.registry) {field : Field} :
    site.supports field = true ↔ schema.Supports field := by
  unfold Site.supports
  rw [mapEntry?_eq_of_registry hregistry]
  by_cases hrepeated : field.cardinality = .repeated
  · rw [if_pos hrepeated]
    cases hentry : schema.mapEntry? field with
    | none =>
        simp only [FieldKind.hasElement_iff]
        constructor
        · rintro ⟨hgroup, hnarrow⟩
          refine ⟨hgroup, hnarrow, fun _ entry hsome => ?_⟩
          rw [hentry] at hsome
          contradiction
        · exact fun h => ⟨h.noGroup, h.narrow⟩
    | some entry =>
        rcases Schema.mapEntry?_eq_some_iff.mp hentry with ⟨target, hkind, -, -⟩
        simp only [(hformed.holdsEntry hentry).isDictionary_iff]
        constructor
        · intro hmap
          refine ⟨by simp [hkind], by simp [hkind, FieldKind.isWide], fun _ other hsome => ?_⟩
          rw [hentry, Option.some.injEq] at hsome
          rw [← hsome]
          exact hmap
        · exact fun h => h.entry hrepeated entry hentry
  · rw [if_neg hrepeated, FieldKind.hasElement_iff]
    constructor
    · rintro ⟨hgroup, hnarrow⟩
      exact ⟨hgroup, hnarrow, fun h => absurd h hrepeated⟩
    · exact fun h => ⟨h.noGroup, h.narrow⟩

/-! ## Modules are of supported schemas -/

/-- A field whose single values have a type is of a kind with a counterpart. -/
theorem HasElement.hasElement {field : Field} {element : Element}
    (h : site.HasElement ledger field element) : field.kind.hasElement = true := by
  cases h with
  | scalar hkind hprimitive => simp [hkind, FieldKind.hasElement, hprimitive]
  | enumeration hkind hmeans => simp [hkind, FieldKind.hasElement]
  | message hkind hmeans => simp [hkind, FieldKind.hasElement]

/-- A field that has a type is supported. -/
theorem HasType.supports {field : Field} {type : FieldType}
    (h : site.HasType ledger field type) : site.supports field = true := by
  unfold Site.supports
  cases h with
  | single hsingle helement =>
      rw [if_neg hsingle]
      exact helement.hasElement
  | list hrepeated hentry helement =>
      rw [if_pos hrepeated, hentry]
      exact helement.hasElement
  | map hrepeated hentry hfields hkey hmapKey hvalue =>
      rw [if_pos hrepeated, hentry]
      simp only [Message.isDictionary, hfields]
      rw [← hkey.isMapKey_eq, hmapKey, hvalue.hasElement]
      rfl

/-- A field of a tidy message whose values have a place is supported. -/
theorem HasPlace.supports {message : Message} {field : Field} {recordField : RecordField}
    (htidy : message.Tidy) (hfield : field ∈ message.fields)
    (h : site.HasPlace ledger message field recordField) : site.supports field = true := by
  cases h with
  | plain hplain hmade => exact hmade.type.supports
  | optional hoptional helement =>
      have hsingle : field.cardinality ≠ .repeated := by
        rw [htidy.single_of_isOptional hfield hoptional]
        decide
      rw [Site.supports, if_neg hsingle]
      exact helement.hasElement

end Site

/-- A schema that has a module is supported. -/
theorem Origination.isSupported {module : Module} {layout : Layout}
    (h : Origination settings schema module layout site ledger) (htidy : schema.Tidy)
    (hformed : schema.WellFormed) : schema.IsSupported where
  enums := by
    intro enumeration hmem
    rcases h.lists.unions.exists_of_source hmem with ⟨union, -, hpair⟩
    exact (h.stems.unions _ hpair).nonempty
  fields := by
    intro message hmessage field hfield
    rcases h.exists_place htidy hmessage hfield with ⟨recordField, -, hplace⟩
    have htidyMessage := htidy.of_mem_recordMessages hmessage
    exact (Site.supports_iff hformed h.registry).mp (hplace.supports htidyMessage hfield)

/-! ## Supported schemas have modules -/

/-- The errors of schemas at fault: of an empty enumeration, or of an unsupported field. -/
inductive Schema.Fault (schema : Schema) : BindingError → Prop
  | empty {enumeration : Enumeration} (hmem : enumeration ∈ schema.allEnums)
      (hvalues : enumeration.values = []) : Fault schema (.emptyEnum enumeration.fullName)
  | unsupported {message : Message} {field : Field} {fullName kind : String}
      (hmessage : message ∈ schema.recordMessages) (hfield : field ∈ message.fields)
      (hunsupported : ¬schema.Supports field) : Fault schema (.unsupported fullName kind)

/-- A supported schema has no fault. -/
theorem Schema.IsSupported.not_fault (h : schema.IsSupported) {error : BindingError} :
    ¬schema.Fault error := by
  intro hfault
  cases hfault with
  | empty hmem hvalues => exact h.enums _ hmem hvalues
  | unsupported hmessage hfield hunsupported =>
      exact hunsupported (h.fields _ hmessage _ hfield)

/-- With a suffix, faults are the only errors of the schema at a site. -/
theorem Site.coversFaults_fault {package : String} (htidy : schema.Tidy)
    (hformed : schema.WellFormed)
    (hregistry : Registry.ofSchema settings package schema = .ok site.registry)
    (hsuffix : site.settings.collisionSuffix ≠ "") :
    site.CoversFaults schema.Fault schema where
  claims := fun _ _ hsane =>
    ⟨fun hinsane => absurd hsane hinsane, fun hempty => absurd hempty hsuffix⟩
  empty := fun _ hmem hvalues => .empty hmem hvalues
  values := by
    intro message hmessage hentry field hfield
    have hrecord : message ∈ schema.recordMessages :=
      List.mem_filter.mpr ⟨hmessage, by simp [hentry]⟩
    have hvalues : CoversValues schema.Fault (site.supports field) := by
      intro hunsupported fullName kind
      rw [Bool.eq_false_iff, Ne, Site.supports_iff hformed hregistry] at hunsupported
      exact .unsupported hrecord hfield hunsupported
    refine ⟨hvalues, fun honeof => ?_⟩
    have hsingle : field.cardinality ≠ .repeated := by
      rw [(htidy message hmessage).single field hfield honeof]
      decide
    rw [Site.supports, if_neg hsingle] at hvalues
    exact hvalues

/-- The fields of a tidy schema are in oneofs that are there. -/
theorem Schema.Tidy.inRange (h : schema.Tidy) : schema.inRange = true := by
  simp only [Schema.inRange, Message.inRange, List.all_eq_true]
  intro message hmessage field hfield
  cases hindex : field.oneof with
  | none => rfl
  | some index => simpa using (h message hmessage).inRange field hfield index hindex

/--
With legal settings and a collision suffix, the schema of a text that can be registered has a
module if and only if its enumerations have values and its fields are supported.  Otherwise
the error is that of an enumeration without values or of an unsupported field.
-/
theorem buildModule_ok_iff {source : String} {registry : Registry}
    (hschema : Source.schemaOfText source = .ok schema) (hcheck : settings.check = .ok ())
    (hsuffix : settings.collisionSuffix ≠ "")
    (hregistry : Registry.ofSchema settings schema.packageName schema = .ok registry) :
    ((∃ module, buildModule settings schema = .ok module) ↔ schema.IsSupported) ∧
      ∀ error, buildModule settings schema = .error error →
        (∃ fullName, error = .emptyEnum fullName) ∨
          ∃ fullName kind, error = .unsupported fullName kind := by
  have htidy := Source.tidy_of_schemaOfText hschema
  have hformed := (Source.Parsed.text hschema).wellFormed
  rcases isFragment_of_check hcheck with ⟨hseparator, hfragment⟩
  have hcovers : Site.CoversAll ⟨registry, settings, schema.moduleName settings⟩ schema.Fault :=
    (Site.coversFaults_fault htidy hformed hregistry hsuffix).coversAll hregistry
      hformed.isPlain htidy.inRange hseparator hfragment
  have hfault : ∀ error, buildModule settings schema = .error error → schema.Fault error := by
    intro error h
    rw [buildModule_of_registry hcheck hregistry] at h
    exact Site.fail_of_build hcovers h
  refine ⟨⟨?_, ?_⟩, ?_⟩
  · rintro ⟨module, hmodule⟩
    rcases exists_layout hmodule with ⟨layout, site, ledger, horigin⟩
    exact horigin.isSupported htidy hformed
  · intro hsupported
    cases hresult : buildModule settings schema with
    | ok module => exact ⟨module, rfl⟩
    | error error => exact absurd (hfault error hresult) hsupported.not_fault
  · intro error h
    cases hfault error h with
    | empty hmem hvalues => exact Or.inl ⟨_, rfl⟩
    | unsupported hmessage hfield hunsupported => exact Or.inr ⟨_, _, rfl⟩

/-- A text with a map whose keys cannot be the keys of a dictionary. -/
def tallyText : String :=
  "enum E \x7b A = 0; \x7d message M \x7b map<bool, E> tally = 1; \x7d"

/-- The tally has no module, because of its map. -/
theorem buildModule_tallyText :
    ∃ schema registry, Source.schemaOfText tallyText = .ok schema ∧
      ({ collisionSuffix := "_" } : Settings).check = .ok () ∧
      ({ collisionSuffix := "_" } : Settings).collisionSuffix ≠ "" ∧
      Registry.ofSchema { collisionSuffix := "_" } schema.packageName schema = .ok registry ∧
      (((∃ module, buildModule { collisionSuffix := "_" } schema = .ok module) ↔
          schema.IsSupported) ∧
        ∀ error, buildModule { collisionSuffix := "_" } schema = .error error →
          (∃ fullName, error = .emptyEnum fullName) ∨
            ∃ fullName kind, error = .unsupported fullName kind) ∧
      ¬schema.IsSupported := by
  have hcheck : ({ collisionSuffix := "_" } : Settings).check = .ok () := by decide +kernel
  have hsuffix : ({ collisionSuffix := "_" } : Settings).collisionSuffix ≠ "" := by decide
  have hok : (Source.schemaOfText tallyText).toOption.any (fun schema =>
      (Registry.ofSchema { collisionSuffix := "_" } schema.packageName schema).isOk &&
        !(buildModule { collisionSuffix := "_" } schema).isOk) = true := by
    decide +kernel
  cases hschema : Source.schemaOfText tallyText with
  | error error =>
      simp [hschema, Except.toOption] at hok
  | ok schema =>
      simp only [hschema, Except.toOption, Option.any_some, Bool.and_eq_true] at hok
      cases hregistry : Registry.ofSchema { collisionSuffix := "_" } schema.packageName schema with
      | error broken => simp [hregistry, Except.isOk, Except.toBool] at hok
      | ok registry =>
          have hresult := buildModule_ok_iff hschema hcheck hsuffix hregistry
          refine ⟨schema, registry, rfl, hcheck, hsuffix, hregistry, hresult, ?_⟩
          intro hsupported
          rcases hresult.1.mpr hsupported with ⟨module, hmodule⟩
          simp [hmodule, Except.isOk, Except.toBool] at hok

end ElmBinding
