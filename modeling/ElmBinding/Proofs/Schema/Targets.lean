import ElmBinding.Proofs.Schema.Linking
import ElmBinding.Proofs.Sequence.Pairing
import ElmBinding.Source.Schemas

/-!
# Linked references have targets

Linking looks up every type name among the symbols of the schema and takes types only.  So
each field and each method of a linked schema refers to an enumeration or a message that the
schema declares.

Main results:

- Definition {lit}`FieldKind.target?`: the type that a kind refers to.
- Definition {lit}`Schema.Linked`: schemas whose references have targets.
- Theorem {lit}`linkedIn_of_linkSchema`: linked references are to symbols of the table.
- Theorem {lit}`linked_of_linkAlone`: a schema that is linked on its own is linked.
- Theorem {lit}`Source.linked_of_schemaOfText`: the schema of a text is linked.
-/

namespace ElmBinding

variable {table : List Symbol} {schema : Schema}

/-! ## Targets -/

/-- The type that the values of a kind have, if it has a name. -/
def FieldKind.target? : FieldKind → Option Reference
  | .scalar _ => none
  | .enumeration target => some target
  | .message target => some target
  | .group target => some target

/-- A schema that declares a type with a full name. -/
def Schema.DeclaresType (schema : Schema) (fullName : String) : Prop :=
  (∃ enumeration ∈ schema.allEnums, enumeration.fullName = fullName) ∨
    ∃ message ∈ schema.allMessages, message.fullName = fullName

/-- The types that a schema declares are registered. -/
theorem Registry.isRegistered_of_declaresType {settings : Settings} {package fullName : String}
    {registry : Registry} (hregistry : ofSchema settings package schema = .ok registry)
    (h : schema.DeclaresType fullName) : registry.isRegistered fullName = true := by
  rcases h with ⟨enumeration, hmem, rfl⟩ | ⟨message, hmem, rfl⟩
  · exact isRegistered_of_enum hregistry hmem
  · exact isRegistered_of_message hregistry hmem

/-- A schema that declares all types that its fields and methods refer to. -/
structure Schema.Linked (schema : Schema) : Prop where
  fields : ∀ message ∈ schema.allMessages, ∀ field ∈ message.fields, ∀ target,
    field.kind.target? = some target → schema.DeclaresType target.fullName
  methods : ∀ service ∈ schema.services, ∀ method ∈ service.methods,
    schema.DeclaresType method.input.fullName ∧ schema.DeclaresType method.output.fullName

/-! ## Symbols of types -/

/-- A symbol of an enumeration that is a type is the enumeration itself. -/
theorem name_of_mem_enumSymbols {package : String} {enumeration : Enumeration} {symbol : Symbol}
    (hmem : symbol ∈ enumeration.symbols package) (htype : symbol.isType = true) :
    symbol.name = enumeration.fullName := by
  rcases List.mem_cons.mp hmem with rfl | hvalue
  · rfl
  · rcases List.mem_map.mp hvalue with ⟨value, -, rfl⟩
    contradiction

/-- A symbol that is a type stands for an enumeration or a message. -/
theorem Schema.declaresType_of_symbol {symbol : Symbol} (hmem : symbol ∈ schema.symbols)
    (htype : symbol.isType = true) : schema.DeclaresType symbol.name := by
  unfold Schema.symbols at hmem
  rcases List.mem_append.mp hmem with hmem | hservice
  · rcases List.mem_append.mp hmem with henum | hown
    · rcases List.mem_flatMap.mp henum with ⟨enumeration, henumeration, hsymbol⟩
      have hname := name_of_mem_enumSymbols hsymbol htype
      exact Or.inl ⟨enumeration, List.mem_append_left _ henumeration, hname.symm⟩
    · rcases List.mem_flatMap.mp hown with ⟨message, hmessage, hsymbol⟩
      rcases List.mem_cons.mp hsymbol with rfl | hinner
      · exact Or.inr ⟨message, hmessage, rfl⟩
      · rcases List.mem_flatMap.mp hinner with ⟨enumeration, henumeration, hsymbol⟩
        have hname := name_of_mem_enumSymbols hsymbol htype
        have hdeep := List.mem_flatMap.mpr ⟨message, hmessage, henumeration⟩
        exact Or.inl ⟨enumeration, List.mem_append_right _ hdeep, hname.symm⟩
  · rcases List.mem_map.mp hservice with ⟨service, -, rfl⟩
    contradiction

/-- The symbol that a name means is in the table. -/
theorem mem_of_lookup? {scope name : String} {symbol : Symbol}
    (h : lookup? table scope name = some symbol) : symbol ∈ table := by
  unfold lookup? at h
  split at h
  · exact List.mem_of_find?_eq_some h
  · rcases List.exists_of_findSome?_eq_some h with ⟨outer, -, hfound⟩
    exact List.mem_of_find?_eq_some hfound

/-- A linked reference is to a type in the table. -/
theorem isType_of_linkReference {scope : String} {reference : Reference} {symbol : Symbol}
    (h : linkReference table scope reference = .ok symbol) :
    symbol ∈ table ∧ symbol.isType = true := by
  unfold linkReference at h
  split at h
  · rename_i found hfound
    obtain rfl := Except.ok.inj h
    rcases Option.filter_eq_some_iff.mp hfound with ⟨hlookup, htype⟩
    exact ⟨mem_of_lookup? hlookup, htype⟩
  · contradiction

/-- A reference to a type in a table of symbols. -/
def Reference.IsIn (table : List Symbol) (reference : Reference) : Prop :=
  ∃ symbol ∈ table, symbol.isType = true ∧ symbol.reference = reference

/-- The type that a linked field refers to is in the table. -/
theorem isIn_of_linkField {scope : String} {field linked : Field}
    (h : linkField table scope field = .ok linked) {target : Reference}
    (htarget : linked.kind.target? = some target) : target.IsIn table := by
  have hkind : ∀ symbol : Symbol, symbol.fieldKind.target? = some symbol.reference := by
    intro symbol
    unfold Symbol.fieldKind
    split <;> rfl
  rcases map_eq_ok_iff.mp h with ⟨kind, hlink, rfl⟩
  cases hfield : field.kind with
  | scalar type =>
      rw [hfield] at hlink
      obtain rfl := Except.ok.inj hlink
      contradiction
  | group reference =>
      rw [hfield] at hlink
      rcases map_eq_ok_iff.mp hlink with ⟨symbol, hsymbol, rfl⟩
      obtain rfl := Option.some.inj htarget
      rcases isType_of_linkReference hsymbol with ⟨hmem, htype⟩
      exact ⟨symbol, hmem, htype, rfl⟩
  | enumeration reference | message reference =>
      rw [hfield] at hlink
      rcases map_eq_ok_iff.mp hlink with ⟨symbol, hsymbol, rfl⟩
      obtain rfl := Option.some.inj ((hkind symbol).symm.trans htarget)
      rcases isType_of_linkReference hsymbol with ⟨hmem, htype⟩
      exact ⟨symbol, hmem, htype, rfl⟩

/-! ## Linked schemas -/

/-- A schema whose fields and methods refer to types in a table of symbols. -/
structure Schema.LinkedIn (table : List Symbol) (schema : Schema) : Prop where
  fields : ∀ message ∈ schema.allMessages, ∀ field ∈ message.fields, ∀ target,
    field.kind.target? = some target → target.IsIn table
  methods : ∀ service ∈ schema.services, ∀ method ∈ service.methods,
    method.input.IsIn table ∧ method.output.IsIn table

/-- A linked schema refers to types in the table that it is linked with. -/
theorem linkedIn_of_linkSchema {unlinked : Schema} (h : linkSchema table unlinked = .ok schema) :
    schema.LinkedIn table := by
  rcases linkSchema_eq_ok_iff.mp h with ⟨messages, services, hmessages, hservices, rfl⟩
  constructor
  · intro message hmessage field hfield target htarget
    rcases exists_of_forall₂_of_mem (forall₂_linkMessages hmessages) hmessage with ⟨_, -, hmade⟩
    rcases exists_of_forall₂_of_mem hmade.fields hfield with ⟨_, -, hlink⟩
    exact isIn_of_linkField hlink htarget
  · intro service hservice method hmethod
    rcases exists_of_forall₂_of_mem (forall₂_of_mapM hservices) hservice with ⟨_, -, hmade⟩
    rcases map_eq_ok_iff.mp hmade with ⟨methods, hmethods, rfl⟩
    rcases exists_of_forall₂_of_mem (forall₂_of_mapM hmethods) hmethod with ⟨_, -, hlink⟩
    rcases bind_eq_ok_iff.mp hlink with ⟨input, hinput, hlink⟩
    rcases bind_eq_ok_iff.mp hlink with ⟨output, houtput, hlink⟩
    rw [← Except.ok.inj hlink]
    rcases isType_of_linkReference hinput with ⟨hmemInput, htypeInput⟩
    rcases isType_of_linkReference houtput with ⟨hmemOutput, htypeOutput⟩
    exact ⟨⟨input, hmemInput, htypeInput, rfl⟩, ⟨output, hmemOutput, htypeOutput, rfl⟩⟩

/-- A schema that is linked on its own declares all types that it refers to. -/
theorem linked_of_linkAlone {unlinked : Schema} (h : linkAlone unlinked = .ok schema) :
    schema.Linked := by
  rcases bind_eq_ok_iff.mp h with ⟨table, htable, hlinked⟩
  have hsymbols : table = schema.symbols := by
    rw [symbols_linkSchema hlinked, (symbolTable_eq_ok_iff.mp htable).1, List.flatMap_singleton]
  have hdeclares : ∀ {target : Reference}, target.IsIn table →
      schema.DeclaresType target.fullName := by
    rintro _ ⟨symbol, hmem, htype, rfl⟩
    rw [hsymbols] at hmem
    exact Schema.declaresType_of_symbol hmem htype
  have hin := linkedIn_of_linkSchema hlinked
  constructor
  · intro message hmessage field hfield target htarget
    exact hdeclares (hin.fields message hmessage field hfield target htarget)
  · intro service hservice method hmethod
    rcases hin.methods service hservice method hmethod with ⟨hinput, houtput⟩
    exact ⟨hdeclares hinput, hdeclares houtput⟩

/-- The schema of a text is linked. -/
theorem Source.linked_of_schemaOfText {source : String} (h : schemaOfText source = .ok schema) :
    schema.Linked := by
  unfold schemaOfText schemaOfChars at h
  rcases bind_eq_ok_iff.mp h with ⟨unlinked, -, hlinked⟩
  exact linked_of_linkAlone hlinked

end ElmBinding
