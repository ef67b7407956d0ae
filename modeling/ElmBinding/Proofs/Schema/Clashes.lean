import ElmBinding.Proofs.Schema.Linking
import ElmBinding.Source.Schemas

/-!
# Names that linking does not check

A schema is linked only if its symbols are distinct: the names of messages, enumerations,
values and services.  A registry needs more names to be distinct: those of oneofs, of their
members and of methods, which are no symbols.  So a text that makes up a schema may yet have
no registry, because a oneof, a member or a method has a name of its own scope twice.

Main results:

- Definition {lit}`Schema.looseNames`: the names that a registry needs but linking ignores.
- Theorem {lit}`Schema.fullNames_catalog_perm`: a registry is for symbols and loose names.
- Theorem {lit}`Source.registry_iff_looseNames`: which texts have a registry, and what stands
  in the way of the others.
-/

namespace ElmBinding

/-! ## Loose names -/

/-- The names of the oneofs of a message and their members. -/
def Message.looseNames (message : Message) : List String :=
  message.oneofs.zipIdx.flatMap fun (oneof, index) => message.oneofNames oneof index

/-- The names of the methods of a service. -/
def Service.looseNames (service : Service) : List String :=
  service.methods.map Method.fullName

namespace Schema

/-- The names of the symbols of a schema. -/
def symbolNames (schema : Schema) : List String :=
  schema.symbols.map Symbol.name

/-- The names of a schema that a registry is for and that are no symbols. -/
def looseNames (schema : Schema) : List String :=
  schema.allMessages.flatMap Message.looseNames ++ schema.services.flatMap Service.looseNames

/-- The symbols of a schema, declaration by declaration. -/
theorem symbolNames_eq (schema : Schema) :
    schema.symbolNames = schema.enums.flatMap Enumeration.names ++
      schema.allMessages.flatMap
        (fun message => message.fullName :: message.enums.flatMap Enumeration.names) ++
      schema.services.map Service.fullName := by
  have henumeration : ∀ (package : String) (enumeration : Enumeration),
      (enumeration.symbols package).map Symbol.name = enumeration.names := by
    intro package enumeration
    simp [Enumeration.symbols, Enumeration.names, Function.comp_def]
  have hmessage : ∀ (package : String) (message : Message),
      (message.ownSymbols package).map Symbol.name =
        message.fullName :: message.enums.flatMap Enumeration.names := by
    intro package message
    simp only [Message.ownSymbols, List.map_cons, List.map_flatMap, henumeration]
  simp only [symbolNames, symbols, List.map_append, List.map_flatMap, henumeration, hmessage,
    List.map_map]
  rfl

/-- The registry of a schema is for its symbols and its loose names. -/
theorem fullNames_catalog_perm (settings : Settings) (package : String) (schema : Schema) :
    (schema.catalog settings package).fullNames.Perm
      (schema.symbolNames ++ schema.looseNames) := by
  have hregistry := (schema.catalog_listed settings package).fullNames_perm
  have henums := (schema.catalog_enums_perm settings package).flatMap_right Enumeration.names
  have hmessages := (schema.catalog_messages_perm settings package).flatMap_right Message.names
  rw [Catalog.names, catalog_services] at hregistry
  rw [allEnums, List.flatMap_append, List.flatMap_assoc] at henums
  -- Each message stands before its oneofs in the registry, and before its types in the symbols.
  have houter : (schema.allMessages.map Message.fullName ++
      schema.allMessages.flatMap Message.looseNames).Perm
        (schema.allMessages.flatMap Message.names) :=
    List.map_append_flatMap_perm _ _ _
  have hinner := List.map_append_flatMap_perm schema.allMessages Message.fullName
    fun message => message.enums.flatMap Enumeration.names
  have hservices : (schema.services.map Service.fullName ++
      schema.services.flatMap Service.looseNames).Perm
        (schema.services.flatMap Service.names) :=
    List.map_append_flatMap_perm _ _ _
  rw [symbolNames_eq, looseNames]
  apply List.perm_iff_count.mpr
  intro name
  have hcountRegistry := hregistry.count_eq name
  have hcountEnums := henums.count_eq name
  have hcountMessages := hmessages.count_eq name
  have hcountOuter := houter.count_eq name
  have hcountInner := hinner.count_eq name
  have hcountServices := hservices.count_eq name
  simp only [List.count_append] at *
  omega

end Schema

/-! ## Texts with a registry -/

/--
A text makes up a schema only if its symbols are distinct.  It has a registry exactly if its
loose names are distinct as well and no symbols, and otherwise a loose name is in the way.
-/
theorem Source.registry_iff_looseNames {source : String} {schema : Schema}
    (h : schemaOfText source = .ok schema) (settings : Settings) :
    schema.symbolNames.Nodup ∧
      ((∃ registry, Registry.ofSchema settings schema.packageName schema = .ok registry) ↔
        schema.looseNames.Nodup ∧ ∀ name ∈ schema.looseNames, name ∉ schema.symbolNames) ∧
      ∀ broken, Registry.ofSchema settings schema.packageName schema = .error broken →
        ∃ name ∈ schema.looseNames, broken = .duplicateName name := by
  have hsymbols : schema.symbolNames.Nodup := by
    unfold schemaOfText schemaOfChars at h
    rcases bind_eq_ok_iff.mp h with ⟨unlinked, -, hlinked⟩
    exact symbols_nodup_of_linkAlone hlinked
  have hperm := schema.fullNames_catalog_perm settings schema.packageName
  refine ⟨hsymbols, ?_, ?_⟩
  · have hexists : (∃ registry, Registry.ofSchema settings schema.packageName schema =
        .ok registry) ↔ (schema.symbolNames ++ schema.looseNames).Nodup := by
      rw [← hperm.nodup_iff]
      constructor
      · rintro ⟨registry, hregistry⟩
        rw [← Registry.ofSchema_eq_ok_iff.mp hregistry]
        exact registry.distinct
      · intro hdistinct
        exact ⟨⟨_, hdistinct⟩, Registry.ofSchema_eq_ok_iff.mpr rfl⟩
    rw [hexists, List.nodup_append']
    constructor
    · rintro ⟨-, hloose, hdisjoint⟩
      exact ⟨hloose, fun name hname hsymbol => hdisjoint hsymbol hname⟩
    · rintro ⟨hloose, hdisjoint⟩
      exact ⟨hsymbols, hloose, fun name hsymbol hname => hdisjoint name hname hsymbol⟩
  · intro broken hbroken
    rcases Registry.ofCatalog_eq_error_iff.mp hbroken with ⟨name, hrepeat, rfl⟩
    refine ⟨name, ?_, rfl⟩
    -- The name occurs twice, and at most one of the two is a symbol.
    have htwice := Sequence.count_of_firstRepeat? hrepeat
    have honce := List.nodup_iff_count_le_one.mp hsymbols name
    rw [hperm.count_eq, List.count_append] at htwice
    exact List.count_pos_iff.mp (by omega)

/-- A text in which a oneof and a message inside one message have the same name. -/
def oneofBesideMessage : String :=
  "syntax = \"proto3\"; message M \x7b oneof N \x7b int32 b = 1; \x7d message N \x7b\x7d \x7d"

/-- The oneof is no symbol, so the text makes up a schema, and it is in the way of a registry. -/
theorem registry_oneofBesideMessage :
    ∃ schema, Source.schemaOfText oneofBesideMessage = .ok schema ∧
      Registry.ofSchema {} schema.packageName schema = .error (.duplicateName "M.N") ∧
      schema.symbolNames.Nodup ∧
      ((∃ registry, Registry.ofSchema {} schema.packageName schema = .ok registry) ↔
        schema.looseNames.Nodup ∧ ∀ name ∈ schema.looseNames, name ∉ schema.symbolNames) ∧
      ∀ broken, Registry.ofSchema {} schema.packageName schema = .error broken →
        ∃ name ∈ schema.looseNames, broken = .duplicateName name := by
  have hrepeat : (Source.schemaOfText oneofBesideMessage).toOption.bind (fun schema =>
      Sequence.firstRepeat? (schema.catalog {} schema.packageName).fullNames) = some "M.N" := by
    decide +kernel
  cases hschema : Source.schemaOfText oneofBesideMessage with
  | error error =>
      rw [hschema] at hrepeat
      contradiction
  | ok schema =>
      rw [hschema] at hrepeat
      exact ⟨schema, rfl, Registry.ofCatalog_eq_error_iff.mpr ⟨_, hrepeat, rfl⟩,
        Source.registry_iff_looseNames hschema {}⟩

end ElmBinding
