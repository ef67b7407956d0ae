import ElmBinding.Proofs.Module.Leaders
import ElmBinding.Proofs.Module.Safety
import ElmBinding.Proofs.Naming.Rearrangement

/-!
# Registration

Every declaration of a schema is registered once, under its full name, with a key that is made of
the declaration, what it is declared in, the package and the settings.  Nothing else is registered,
and it does not matter in which order the top-level declarations are.  Registration breaks off
if two declarations have one full name, and only then.

Main results:

- Definition {lit}`Declaration`: something that gets a name, with what it is declared in.
- Definition {lit}`Declaration.key`: the key of a declaration.
- Theorem {lit}`Schema.entries_perm`: a catalog has one entry for each declaration.
- Definition {lit}`Registry.register`: top-level declarations registered one after the other.
- Theorem {lit}`Registry.register_eq`: which is to register them all at once.
- Theorem {lit}`Registry.ofSchema_records`: what is registered, in any order.
-/

namespace ElmBinding

variable {settings : Settings} {package : String}

/-! ## Declarations -/

/-- Something that gets a name, with what it is declared in. -/
inductive Declaration where
  | enumeration (enumeration : Enumeration)
  | value (owner : Enumeration) (value : EnumValue)
  | message (message : Message)
  | oneof (owner : Message) (index : Nat) (oneof : Oneof)
  | member (owner : Message) (field : Field)
  | service (service : Service)
  | method (owner : Service) (method : Method)

/-- The key of a oneof at an index of a message. -/
def Message.choiceKey (settings : Settings) (package : String) (message : Message) (index : Nat)
    (oneof : Oneof) : String :=
  oneofKey package (typeKey settings package message.name message.fullName) oneof
    (message.members index)

/-- The key of the oneof that a field of a message belongs to. -/
def Message.choiceKeyOf? (settings : Settings) (package : String) (message : Message)
    (field : Field) : Option String :=
  field.oneof.bind fun index =>
    message.oneofs[index]?.map (message.choiceKey settings package index)

namespace Declaration

/-- The full name of a declaration. -/
def fullName : Declaration → String
  | .enumeration declared => declared.fullName
  | .value _ declared => declared.fullName
  | .message declared => declared.fullName
  | .oneof _ _ declared => declared.fullName
  | .member _ declared => declared.fullName
  | .service declared => declared.fullName
  | .method _ declared => declared.fullName

/-- The key of a declaration. -/
def key (settings : Settings) (package : String) : Declaration → String
  | .enumeration declared => typeKey settings package declared.name declared.fullName
  | .value owner declared =>
      variantKey settings declared.name (typeKey settings package owner.name owner.fullName)
  | .message declared => typeKey settings package declared.name declared.fullName
  | .oneof owner index declared => owner.choiceKey settings package index declared
  | .member owner declared =>
      variantKey settings declared.name ((owner.choiceKeyOf? settings package declared).getD "")
  | .service declared => typeKey settings package declared.name declared.fullName
  | .method owner declared =>
      typeKey settings package owner.name owner.fullName ++ "." ++ declared.name

/-- The full name of a declaration with its key. -/
def entry (settings : Settings) (package : String) (declaration : Declaration) : Entry :=
  ⟨declaration.fullName, declaration.key settings package⟩

end Declaration

/-- An enumeration and its values. -/
def Enumeration.declarations (enumeration : Enumeration) : List Declaration :=
  .enumeration enumeration :: enumeration.values.map (.value enumeration)

/-- A message, its oneofs and the fields in a oneof, without the types inside it. -/
def Message.declarations (message : Message) : List Declaration :=
  .message message ::
    (message.oneofs.zipIdx.map (fun (oneof, index) => .oneof message index oneof) ++
      (message.fields.filter fun field => field.oneof.isSome).map (.member message))

/-- A service and its methods. -/
def Service.declarations (service : Service) : List Declaration :=
  .service service :: service.methods.map (.method service)

/-- Everything in a schema that gets a name, at every depth. -/
def Schema.declarations (schema : Schema) : List Declaration :=
  schema.allEnums.flatMap Enumeration.declarations ++
    (schema.allMessages.flatMap Message.declarations ++
      schema.services.flatMap Service.declarations)

/-! ## Entries of declarations -/

/-- The entries of an enumeration are those of its declarations. -/
theorem Enumeration.entries_catalog (enumeration : Enumeration) :
    (enumeration.catalog settings package).entries =
      enumeration.declarations.map (Declaration.entry settings package) := by
  rw [Enumeration.declarations, List.map_cons, List.map_map]
  rfl

/-- The entries of a service are those of its declarations. -/
theorem Service.entries_catalog (service : Service) :
    (service.catalog settings package).entries =
      service.declarations.map (Declaration.entry settings package) := by
  rw [Service.declarations, List.map_cons, List.map_map]
  rfl

namespace Message

/-- The entries of a oneof of a message are those of its declaration and of its members. -/
theorem oneofEntries_eq {message : Message} {index : Nat} {oneof : Oneof}
    (h : message.oneofs[index]? = some oneof) :
    oneofEntries settings package (typeKey settings package message.name message.fullName) oneof
        (message.members index) =
      Declaration.entry settings package (.oneof message index oneof) ::
        (message.members index).map fun field =>
          Declaration.entry settings package (.member message field) := by
  refine congrArg₂ List.cons rfl (List.map_congr_left fun field hfield => ?_)
  have hkey : message.choiceKeyOf? settings package field =
      some (message.choiceKey settings package index oneof) := by
    rw [choiceKeyOf?, (mem_members_iff.mp hfield).2, Option.bind_some, h, Option.map_some]
  rw [Declaration.entry, Declaration.key, hkey]
  rfl

/-- The members of the oneofs of a message are its fields that are in one. -/
theorem members_perm {message : Message} (hrange : message.inRange = true) :
    (message.oneofs.zipIdx.flatMap fun choice => message.members choice.2).Perm
      (message.fields.filter fun field => field.oneof.isSome) := by
  have hindices : message.oneofs.zipIdx.map Prod.snd = List.range' 0 message.oneofs.length :=
    List.zipIdx_map_snd 0 message.oneofs
  rw [← List.flatMap_map, hindices]
  refine flatMap_members_perm List.nodup_range' fun field hfield => ?_
  rw [inRange, List.all_eq_true] at hrange
  have hindex := hrange field hfield
  cases honeof : field.oneof with
  | none => simp
  | some index =>
      rw [honeof, Option.all_some, decide_eq_true_eq] at hindex
      simp [hindex]

/-- A message in range has one entry for each of its declarations. -/
theorem ownEntries_perm {message : Message} (hrange : message.inRange = true) :
    (message.ownEntries settings package).Perm
      (message.declarations.map (Declaration.entry settings package)) := by
  have honeofs : (message.oneofs.zipIdx.flatMap fun (oneof, index) =>
      oneofEntries settings package (typeKey settings package message.name message.fullName) oneof
        (message.members index)) =
      message.oneofs.zipIdx.flatMap fun choice =>
        Declaration.entry settings package (.oneof message choice.2 choice.1) ::
          (message.members choice.2).map fun field =>
            Declaration.entry settings package (.member message field) := by
    refine List.flatMap_congr fun choice hchoice => ?_
    exact oneofEntries_eq (List.mem_zipIdx_iff_getElem?.mp hchoice)
  rw [ownEntries, honeofs, declarations, List.map_cons, List.map_append, List.map_map, List.map_map]
  refine List.Perm.cons _ ?_
  refine (List.map_append_flatMap_perm _ _ _).symm.trans (List.Perm.append_left _ ?_)
  rw [← List.map_flatMap]
  exact (members_perm hrange).map _

end Message

/-- The catalog of a schema in range has one entry for each declaration. -/
theorem Schema.entries_perm (settings : Settings) (package : String) {schema : Schema}
    (hrange : schema.inRange = true) :
    (schema.catalog settings package).entries.Perm
      (schema.declarations.map (Declaration.entry settings package)) := by
  have hmessages : ∀ message ∈ schema.allMessages, (message.ownEntries settings package).Perm
      (message.declarations.map (Declaration.entry settings package)) := by
    intro message hmessage
    rw [Schema.inRange, List.all_eq_true] at hrange
    exact Message.ownEntries_perm (hrange message hmessage)
  refine (schema.catalog_listed settings package).trans ?_
  rw [Catalog.declared, schema.catalog_services, Schema.declarations, List.map_append,
    List.map_append, List.map_flatMap, List.map_flatMap, List.map_flatMap]
  refine List.Perm.append ?_ (List.Perm.append ?_ ?_)
  · simp only [Enumeration.entries_catalog]
    exact (schema.catalog_enums_perm settings package).flatMap_right _
  · exact ((schema.catalog_messages_perm settings package).flatMap_right _).trans
      (List.Perm.flatMap_left _ hmessages)
  · simp only [Service.entries_catalog]
    exact List.Perm.refl _

/-! ## One after the other -/

/-- A name that is repeated at first is so whatever comes behind. -/
theorem Sequence.firstRepeatAfter?_append {seen names : List String} {name : String}
    (more : List String) (h : firstRepeatAfter? seen names = some name) :
    firstRepeatAfter? seen (names ++ more) = some name := by
  induction names generalizing seen with
  | nil => contradiction
  | cons head rest ih =>
      rw [firstRepeatAfter?] at h
      rw [List.cons_append, firstRepeatAfter?]
      by_cases hseen : head ∈ seen
      · rw [if_pos hseen] at h ⊢
        exact h
      · rw [if_neg hseen] at h ⊢
        exact ih h

/-- A declaration of a schema outside of messages. -/
inductive TopLevel where
  | enumeration (enumeration : Enumeration)
  | message (message : Message)
  | service (service : Service)

/-- The catalog of a top-level declaration. -/
def TopLevel.catalog (settings : Settings) (package : String) : TopLevel → Catalog
  | .enumeration declared => declared.catalog settings package
  | .message declared => declared.catalog settings package
  | .service declared => declared.catalog settings package

/-- The top-level declarations of a schema: enumerations, messages, services. -/
def Schema.topLevel (schema : Schema) : List TopLevel :=
  schema.enums.map .enumeration ++ (schema.messages.map .message ++ schema.services.map .service)

namespace Catalog

/-- Catalogs with the same parts are equal. -/
theorem eq_of_parts {first second : Catalog} (hentries : first.entries = second.entries)
    (henums : first.enums = second.enums) (hmessages : first.messages = second.messages)
    (hservices : first.services = second.services) : first = second := by
  cases first
  cases second
  subst hentries henums hmessages hservices
  rfl

/-- Nothing behind a catalog adds nothing. -/
theorem append_empty (catalog : Catalog) : catalog ++ {} = catalog := by
  apply eq_of_parts <;> simp

/-- Three catalogs side by side. -/
theorem append_assoc (first second third : Catalog) :
    first ++ second ++ third = first ++ (second ++ third) := by
  apply eq_of_parts <;> simp

/-- Catalogs side by side are joined side by side. -/
theorem join_append (first second : List Catalog) :
    join (first ++ second) = join first ++ join second := by
  induction first with
  | nil => rfl
  | cons catalog rest ih => rw [List.cons_append, join_cons, join_cons, ih, append_assoc]

end Catalog

/-- The catalog of several messages is joined from theirs. -/
theorem messagesCatalog_eq_join (messages : List Message) :
    messagesCatalog settings package messages =
      Catalog.join (messages.map (Message.catalog settings package)) := by
  induction messages with
  | nil => rw [messagesCatalog_nil]; rfl
  | cons message rest ih => rw [messagesCatalog, ih]; rfl

/-- The catalog of a schema is joined from those of its top-level declarations. -/
theorem Schema.join_topLevel (schema : Schema) :
    Catalog.join (schema.topLevel.map (TopLevel.catalog settings package)) =
      schema.catalog settings package := by
  rw [Schema.topLevel, List.map_append, List.map_append, Catalog.join_append, Catalog.join_append,
    List.map_map, List.map_map, List.map_map, Schema.catalog, messagesCatalog_eq_join]
  rfl

namespace Registry

/-- Top-level declarations registered one after the other. -/
def register (settings : Settings) (package : String) (steps : List TopLevel) :
    Except Breach Registry :=
  steps.foldlM (fun registry step => registry.add (step.catalog settings package)) empty

/-- What is registered: the full names in ascending order, with their keys. -/
def keys (registry : Registry) : List Entry :=
  Sequence.sortedBy Entry.fullName registry.entries

/-- Catalogs that are added one after the other are added together. -/
theorem foldlM_add (registry : Registry) (steps : List TopLevel) :
    steps.foldlM (fun registry step => registry.add (step.catalog settings package)) registry =
      ofCatalog (registry.toCatalog ++
        Catalog.join (steps.map (TopLevel.catalog settings package))) := by
  induction steps generalizing registry with
  | nil =>
      rw [List.map_nil, Catalog.join_nil, Catalog.append_empty]
      exact (ofCatalog_eq_ok_iff.mpr rfl).symm
  | cons step rest ih =>
      rw [List.foldlM_cons, List.map_cons, Catalog.join_cons, ← Catalog.append_assoc]
      cases hadd : registry.add (step.catalog settings package) with
      | ok registry' =>
          rw [← ofCatalog_eq_ok_iff.mp hadd]
          exact ih registry'
      | error broken =>
          -- What is repeated so far is repeated first among all names.
          rcases ofCatalog_eq_error_iff.mp hadd with ⟨fullName, hrepeat, rfl⟩
          refine (ofCatalog_eq_error_iff.mpr ⟨fullName, ?_, rfl⟩).symm
          rw [Catalog.fullNames, Catalog.entries_append, List.map_append]
          exact Sequence.firstRepeatAfter?_append _ hrepeat

/-- To register declarations one after the other is to register them together. -/
theorem register_eq (steps : List TopLevel) :
    register settings package steps =
      ofCatalog (Catalog.join (steps.map (TopLevel.catalog settings package))) := by
  rw [register, foldlM_add]
  rfl

/-- The registry of a schema is that of its top-level declarations. -/
theorem register_topLevel (schema : Schema) :
    register settings package schema.topLevel = ofSchema settings package schema := by
  rw [register_eq, schema.join_topLevel, ofSchema]

/-- A registry with one entry for each declaration of a schema, and nothing else. -/
structure Records (registry : Registry) (settings : Settings) (package : String)
    (schema : Schema) : Prop where
  entries : registry.keys.Perm (schema.declarations.map (Declaration.entry settings package))
  ascending : registry.keys.Pairwise fun entry later => entry.fullName < later.fullName
  key : ∀ fullName key, registry.key? fullName = some key ↔
    ∃ declaration ∈ schema.declarations, declaration.fullName = fullName ∧
      declaration.key settings package = key

/-- The full names of the entries of declarations. -/
theorem map_fullName_entry (declarations : List Declaration) :
    (declarations.map (Declaration.entry settings package)).map Entry.fullName =
      declarations.map Declaration.fullName := by
  rw [List.map_map]
  rfl

/-- A registry finds the keys of its entries. -/
theorem key?_eq_some_iff {registry : Registry} {fullName key : String} :
    registry.key? fullName = some key ↔ ⟨fullName, key⟩ ∈ registry.entries := by
  rw [key?, Option.map_eq_some_iff]
  constructor
  · rintro ⟨entry, hfound, rfl⟩
    have hname : entry.fullName = fullName := by simpa using List.find?_some hfound
    rw [← hname]
    exact List.mem_of_find?_eq_some hfound
  · intro hmem
    exact ⟨_, Sequence.find?_eq_some_of_mem registry.distinct hmem, rfl⟩

/-- A registry whose entries are those of the declarations records them. -/
theorem records_of_perm {registry : Registry} {schema : Schema}
    (h : registry.entries.Perm (schema.declarations.map (Declaration.entry settings package))) :
    registry.Records settings package schema where
  entries := (Sequence.sortedBy_perm _ _).trans h
  ascending := by
    refine Sequence.pairwise_lt_of_nodup (Sequence.pairwise_sortedBy _ _) ?_
    exact ((Sequence.sortedBy_perm _ _).map _).nodup_iff.mpr registry.distinct
  key fullName key := by
    rw [key?_eq_some_iff, h.mem_iff, List.mem_map]
    simp only [Declaration.entry, Entry.mk.injEq]

/-- A catalog of the declarations of a schema has a registry if their full names are distinct. -/
theorem exists_ofCatalog {catalog : Catalog} {schema : Schema}
    (h : catalog.entries.Perm (schema.declarations.map (Declaration.entry settings package)))
    (hnodup : (schema.declarations.map Declaration.fullName).Nodup) :
    ∃ registry, ofCatalog catalog = .ok registry ∧ registry.toCatalog = catalog := by
  have hdistinct : catalog.fullNames.Nodup := by
    rw [Catalog.fullNames, (h.map Entry.fullName).nodup_iff, map_fullName_entry]
    exact hnodup
  exact ⟨⟨catalog, hdistinct⟩, ofCatalog_eq_ok_iff.mpr rfl, rfl⟩

/--
The registry of a schema.  There is none if and only if two declarations have one full name; else
it records the declarations, and in any order of the top-level declarations the same is registered.
-/
theorem ofSchema_records {schema : Schema} (hrange : schema.inRange = true) (settings : Settings)
    (package : String) :
    ((∃ fullName, 2 ≤ (schema.declarations.map Declaration.fullName).count fullName ∧
        ofSchema settings package schema = .error (.duplicateName fullName)) ↔
      ¬(schema.declarations.map Declaration.fullName).Nodup) ∧
      ((schema.declarations.map Declaration.fullName).Nodup →
        ∃ registry, ofSchema settings package schema = .ok registry ∧
          registry.Records settings package schema ∧
          ∀ steps, steps.Perm schema.topLevel →
            ∃ other, register settings package steps = .ok other ∧ other.keys = registry.keys) := by
  have hentries := Schema.entries_perm settings package hrange
  refine ⟨⟨?_, ?_⟩, ?_⟩
  · rintro ⟨fullName, hcount, -⟩ hnodup
    have honce := List.nodup_iff_count_le_one.mp hnodup fullName
    omega
  · intro hrepeat
    have hnames : (schema.catalog settings package).fullNames.Perm
        (schema.declarations.map Declaration.fullName) := by
      rw [← map_fullName_entry]
      exact hentries.map Entry.fullName
    cases hregistry : ofSchema settings package schema with
    | ok registry =>
        have hdistinct := registry.distinct
        rw [ofSchema_eq_ok_iff.mp hregistry, hnames.nodup_iff] at hdistinct
        contradiction
    | error broken =>
        rcases ofCatalog_eq_error_iff.mp hregistry with ⟨fullName, hfirst, rfl⟩
        refine ⟨fullName, ?_, rfl⟩
        rw [← hnames.count_eq]
        exact Sequence.count_of_firstRepeat? hfirst
  · intro hnodup
    rcases exists_ofCatalog hentries hnodup with ⟨registry, hregistry, hcatalog⟩
    refine ⟨registry, hregistry, records_of_perm (hcatalog ▸ hentries), ?_⟩
    intro steps hsteps
    have halike := Catalog.join_alike_of_perm (hsteps.map (TopLevel.catalog settings package))
    rw [schema.join_topLevel] at halike
    rcases exists_ofCatalog (halike.entries.trans hentries) hnodup with ⟨other, hother, hjoined⟩
    refine ⟨other, (register_eq steps).trans hother, ?_⟩
    refine Sequence.sortedBy_eq_of_perm ?_ other.distinct
    rw [hjoined, hcatalog]
    exact halike.entries

end Registry

/-- A schema with a type inside a message, a oneof, a synthetic one, and a service. -/
def vineyardSchema : Schema where
  package := some "vineyard"
  enums := [{
    name := "Season", fullName := "vineyard.Season"
    values := [{ name := "SPRING", fullName := "vineyard.SPRING" }] }]
  messages := [{
    name := "Vine", fullName := "vineyard.Vine"
    fields := [
      { name := "age", fullName := "vineyard.Vine.age", number := 1, kind := .scalar .int32 },
      { name := "grape", fullName := "vineyard.Vine.grape", number := 2, oneof := some 0
        kind := .scalar .string },
      { name := "label", fullName := "vineyard.Vine.label", number := 3, oneof := some 1
        kind := .scalar .string, tracksPresence := true }]
    oneofs := [
      { name := "fruit", fullName := "vineyard.Vine.fruit" },
      { name := "_label", fullName := "vineyard.Vine._label", synthetic := true }]
    messages := [{ name := "Leaf", fullName := "vineyard.Vine.Leaf" }] }]
  services := [{
    name := "Keeper", fullName := "vineyard.Keeper"
    methods := [{ name := "Prune", fullName := "vineyard.Keeper.Prune" }] }]

/-- The vineyard is registered with qualified names and with suffixes for variants. -/
theorem records_vineyardSchema :
    vineyardSchema.inRange = true ∧
      ∃ registry, Registry.ofSchema { qualifyNested := true, variantSuffixes := true } "vineyard"
          vineyardSchema = .ok registry ∧
        registry.keys = [
          ⟨"vineyard.Keeper", "Keeper"⟩,
          ⟨"vineyard.Keeper.Prune", "Keeper.Prune"⟩,
          ⟨"vineyard.SPRING", "SPRING.Season"⟩,
          ⟨"vineyard.Season", "Season"⟩,
          ⟨"vineyard.Vine", "Vine"⟩,
          ⟨"vineyard.Vine.Leaf", "Vine.Leaf"⟩,
          ⟨"vineyard.Vine._label", "Vine.label"⟩,
          ⟨"vineyard.Vine.fruit", "Vine.fruit"⟩,
          ⟨"vineyard.Vine.grape", "grape.Vine.fruit"⟩,
          ⟨"vineyard.Vine.label", "label.Vine.label"⟩] ∧
        ∀ steps, steps.Perm vineyardSchema.topLevel →
          ∃ other, Registry.register { qualifyNested := true, variantSuffixes := true } "vineyard"
            steps = .ok other ∧ other.keys = registry.keys := by
  have hrange : vineyardSchema.inRange = true := by decide +kernel
  have hnodup : (vineyardSchema.declarations.map Declaration.fullName).Nodup := by decide +kernel
  rcases (Registry.ofSchema_records hrange _ "vineyard").2 hnodup with
    ⟨registry, hregistry, -, hsteps⟩
  refine ⟨hrange, registry, hregistry, ?_, hsteps⟩
  rw [Registry.keys, Registry.ofSchema_eq_ok_iff.mp hregistry]
  decide +kernel

end ElmBinding
