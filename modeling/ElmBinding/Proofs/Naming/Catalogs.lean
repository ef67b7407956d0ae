import ElmBinding.Naming.Registry
import Mathlib.Data.List.Perm.Basic
import Mathlib.Data.List.Nodup

/-!
# What catalogs list

The catalog of a schema walks the nested messages inside out.  Up to order it is the flat
list of the enumerations, messages and services of the schema at every depth, with the
entries that each of them has by itself.

Main results:

- Theorem {lit}`forest_induction`: induction over nested messages.
- Theorem {lit}`Catalog.Listed.append`: flat catalogs stay flat side by side.
- Theorem {lit}`Schema.catalog_listed`: the entries of a schema, declaration by declaration.
- Theorems {lit}`Schema.catalog_messages_perm` and {lit}`Schema.catalog_enums_perm`: the
  declarations of a schema are those at every depth.
- Theorem {lit}`Registry.ofSchema_eq_ok_iff`: which schemas have a registry.
- Theorem {lit}`Registry.isRegistered_iff`: which names are registered.
-/

namespace ElmBinding

variable {settings : Settings} {package : String}

/-! ## Nested messages -/

/-- Induction over lists of messages that descends into the messages inside a message. -/
@[elab_as_elim]
theorem forest_induction {motive : List Message → Prop} (nil : motive [])
    (cons : ∀ message rest, motive message.messages → motive rest → motive (message :: rest)) :
    ∀ messages, motive messages
  | [] => nil
  | ⟨name, fullName, fields, oneofs, messages, enums, mapEntry, comments⟩ :: rest =>
      cons ⟨name, fullName, fields, oneofs, messages, enums, mapEntry, comments⟩ rest
        (forest_induction nil cons messages) (forest_induction nil cons rest)

/-- The family of a message in front is the message and the families inside it. -/
theorem families_cons_eq (message : Message) (rest : List Message) :
    families (message :: rest) = message :: (families message.messages ++ families rest) := by
  rw [families_cons, Message.family_eq, List.cons_append]

/-- The families of two lists, one after the other. -/
theorem families_append (first second : List Message) :
    families (first ++ second) = families first ++ families second := by
  induction first with
  | nil => rfl
  | cons message rest ih =>
      rw [List.cons_append, families_cons, families_cons, ih, List.append_assoc]

/-! ## Joined catalogs -/

namespace Catalog

@[simp] theorem join_nil : join [] = {} := rfl

@[simp] theorem join_cons (catalog : Catalog) (rest : List Catalog) :
    join (catalog :: rest) = catalog ++ join rest := rfl

/-- A part of several catalogs is made of their parts. -/
theorem part_join {α : Type} (part : Catalog → List α) (hempty : part {} = [])
    (happend : ∀ first second : Catalog, part (first ++ second) = part first ++ part second)
    (catalogs : List Catalog) : part (join catalogs) = catalogs.flatMap part := by
  induction catalogs with
  | nil => exact hempty
  | cons catalog rest ih => rw [join_cons, happend, ih, List.flatMap_cons]

/-- The enumerations of several catalogs. -/
theorem enums_join (catalogs : List Catalog) :
    (join catalogs).enums = catalogs.flatMap enums :=
  part_join enums rfl enums_append catalogs

/-- The messages of several catalogs. -/
theorem messages_join (catalogs : List Catalog) :
    (join catalogs).messages = catalogs.flatMap messages :=
  part_join messages rfl messages_append catalogs

/-- The services of several catalogs. -/
theorem services_join (catalogs : List Catalog) :
    (join catalogs).services = catalogs.flatMap services :=
  part_join services rfl services_append catalogs

/-- The entries that the declarations of a catalog have by themselves. -/
def declared (settings : Settings) (package : String) (catalog : Catalog) : List Entry :=
  catalog.enums.flatMap (fun enumeration => (enumeration.catalog settings package).entries) ++
    (catalog.messages.flatMap (Message.ownEntries settings package) ++
      catalog.services.flatMap fun service => (service.catalog settings package).entries)

/-- A catalog whose entries are those of its declarations, in some order. -/
def Listed (settings : Settings) (package : String) (catalog : Catalog) : Prop :=
  catalog.entries.Perm (catalog.declared settings package)

/-- The catalog of nothing is flat. -/
theorem listed_empty : Listed settings package {} :=
  List.Perm.refl _

/-- Flat catalogs stay flat side by side. -/
theorem Listed.append {first second : Catalog} (hfirst : first.Listed settings package)
    (hsecond : second.Listed settings package) : (first ++ second).Listed settings package := by
  unfold Listed declared at *
  apply List.perm_iff_count.mpr
  intro entry
  have hcountFirst := hfirst.count_eq entry
  have hcountSecond := hsecond.count_eq entry
  simp only [entries_append, enums_append, messages_append, services_append, List.flatMap_append,
    List.count_append] at hcountFirst hcountSecond ⊢
  omega

/-- Any number of flat catalogs stay flat together. -/
theorem Listed.join {catalogs : List Catalog}
    (hall : ∀ catalog ∈ catalogs, catalog.Listed settings package) :
    (Catalog.join catalogs).Listed settings package := by
  induction catalogs with
  | nil => exact listed_empty
  | cons catalog rest ih =>
      rcases List.forall_mem_cons.mp hall with ⟨hfirst, hrest⟩
      exact hfirst.append (ih hrest)

end Catalog

open Catalog

/-! ## Catalogs of declarations -/

/-- The catalog of an enumeration is flat. -/
theorem Enumeration.catalog_listed (enumeration : Enumeration) :
    (enumeration.catalog settings package).Listed settings package := by
  simp [Listed, declared, Enumeration.catalog]

/-- The catalog of a service is flat. -/
theorem Service.catalog_listed (service : Service) :
    (service.catalog settings package).Listed settings package := by
  simp [Listed, declared, Service.catalog]

/-- The catalog of a message alone is flat. -/
theorem Message.ownCatalog_listed (message : Message) :
    (message.ownCatalog settings package).Listed settings package := by
  simp [Listed, declared, Message.ownCatalog]

/-- The catalog of a message in front: what is inside of it, then itself, then the others. -/
theorem messagesCatalog_cons (settings : Settings) (package : String) (message : Message)
    (rest : List Message) :
    messagesCatalog settings package (message :: rest) =
      Catalog.join (message.enums.map (Enumeration.catalog settings package)) ++
          (messagesCatalog settings package message.messages ++
            message.ownCatalog settings package) ++
        messagesCatalog settings package rest := by
  rw [messagesCatalog, Message.catalog_eq]

@[simp] theorem messagesCatalog_nil (settings : Settings) (package : String) :
    messagesCatalog settings package [] = {} := by
  rw [messagesCatalog]

/-- The catalogs of enumerations are flat together. -/
theorem enumsCatalog_listed (enums : List Enumeration) :
    (Catalog.join (enums.map (Enumeration.catalog settings package))).Listed
      settings package := by
  apply Listed.join
  intro catalog hcatalog
  rcases List.mem_map.mp hcatalog with ⟨enumeration, -, rfl⟩
  exact enumeration.catalog_listed

/-- The catalog of nested messages is flat. -/
theorem messagesCatalog_listed (messages : List Message) :
    (messagesCatalog settings package messages).Listed settings package := by
  induction messages using forest_induction with
  | nil =>
      rw [messagesCatalog_nil]
      exact listed_empty
  | cons message rest hinner hrest =>
      rw [messagesCatalog_cons]
      exact ((enumsCatalog_listed message.enums).append
        (hinner.append message.ownCatalog_listed)).append hrest

/-- The catalog of a schema is flat. -/
theorem Schema.catalog_listed (settings : Settings) (package : String) (schema : Schema) :
    (schema.catalog settings package).Listed settings package := by
  rw [Schema.catalog]
  apply (enumsCatalog_listed schema.enums).append
  apply (messagesCatalog_listed schema.messages).append
  apply Listed.join
  intro catalog hcatalog
  rcases List.mem_map.mp hcatalog with ⟨service, -, rfl⟩
  exact service.catalog_listed

/-! ## Declarations at every depth -/

@[simp] theorem enums_enumsCatalog (enums : List Enumeration) :
    (Catalog.join (enums.map (Enumeration.catalog settings package))).enums = enums := by
  simp [enums_join, List.flatMap_map, Enumeration.catalog]

@[simp] theorem messages_enumsCatalog (enums : List Enumeration) :
    (Catalog.join (enums.map (Enumeration.catalog settings package))).messages = [] := by
  simp [messages_join, List.flatMap_map, Enumeration.catalog]

@[simp] theorem services_enumsCatalog (enums : List Enumeration) :
    (Catalog.join (enums.map (Enumeration.catalog settings package))).services = [] := by
  simp [services_join, List.flatMap_map, Enumeration.catalog]

@[simp] theorem enums_servicesCatalog (services : List Service) :
    (Catalog.join (services.map (Service.catalog settings package))).enums = [] := by
  simp [enums_join, List.flatMap_map, Service.catalog]

@[simp] theorem messages_servicesCatalog (services : List Service) :
    (Catalog.join (services.map (Service.catalog settings package))).messages = [] := by
  simp [messages_join, List.flatMap_map, Service.catalog]

@[simp] theorem services_servicesCatalog (services : List Service) :
    (Catalog.join (services.map (Service.catalog settings package))).services = services := by
  simp [services_join, List.flatMap_map, Service.catalog]

/-- Messages come without services. -/
@[simp] theorem services_messagesCatalog (messages : List Message) :
    (messagesCatalog settings package messages).services = [] := by
  induction messages using forest_induction with
  | nil => simp
  | cons message rest hinner hrest =>
      simp [messagesCatalog_cons, hinner, hrest, Message.ownCatalog]

/-- The catalog of nested messages has the messages at every depth. -/
theorem messages_messagesCatalog_perm (messages : List Message) :
    (messagesCatalog settings package messages).messages.Perm (families messages) := by
  induction messages using forest_induction with
  | nil => simp
  | cons message rest hinner hrest =>
      rw [messagesCatalog_cons, families_cons_eq]
      simp only [messages_append, messages_enumsCatalog, List.nil_append, Message.ownCatalog]
      have hown : ((messagesCatalog settings package message.messages).messages ++ [message]).Perm
          (message :: families message.messages) :=
        List.perm_append_singleton message _ |>.trans (hinner.cons message)
      exact hown.append hrest

/-- The catalog of nested messages has the enumerations at every depth. -/
theorem enums_messagesCatalog_perm (messages : List Message) :
    (messagesCatalog settings package messages).enums.Perm
      ((families messages).flatMap Message.enums) := by
  induction messages using forest_induction with
  | nil => simp
  | cons message rest hinner hrest =>
      rw [messagesCatalog_cons, families_cons_eq]
      simp only [enums_append, enums_enumsCatalog, Message.ownCatalog, List.append_nil,
        List.flatMap_cons, List.flatMap_append]
      rw [List.append_assoc]
      exact (hinner.append hrest).append_left message.enums

namespace Schema

variable {schema : Schema}

/-- The catalog of a schema has its messages at every depth. -/
theorem catalog_messages_perm (settings : Settings) (package : String) (schema : Schema) :
    (schema.catalog settings package).messages.Perm schema.allMessages := by
  simp only [Schema.catalog, messages_append, messages_enumsCatalog, messages_servicesCatalog,
    List.nil_append, List.append_nil]
  exact messages_messagesCatalog_perm schema.messages

/-- The catalog of a schema has its enumerations at every depth. -/
theorem catalog_enums_perm (settings : Settings) (package : String) (schema : Schema) :
    (schema.catalog settings package).enums.Perm schema.allEnums := by
  simp only [Schema.catalog, enums_append, enums_enumsCatalog, enums_servicesCatalog,
    List.append_nil]
  exact (enums_messagesCatalog_perm schema.messages).append_left schema.enums

/-- The catalog of a schema has its services. -/
theorem catalog_services (settings : Settings) (package : String) (schema : Schema) :
    (schema.catalog settings package).services = schema.services := by
  simp [Schema.catalog]

end Schema

/-! ## Names -/

/-- The full names that an enumeration declares. -/
def Enumeration.names (enumeration : Enumeration) : List String :=
  enumeration.fullName :: enumeration.values.map EnumValue.fullName

/-- The full names that a oneof of a message declares, with its members. -/
def Message.oneofNames (message : Message) (oneof : Oneof) (index : Nat) : List String :=
  oneof.fullName :: (message.members index).map Field.fullName

/-- The full names that a message declares, less those inside it. -/
def Message.names (message : Message) : List String :=
  message.fullName ::
    message.oneofs.zipIdx.flatMap fun (oneof, index) => message.oneofNames oneof index

/-- The full names that a service declares. -/
def Service.names (service : Service) : List String :=
  service.fullName :: service.methods.map Method.fullName

/-- The entries of an enumeration are for its names. -/
theorem Enumeration.fullNames_catalog (enumeration : Enumeration) :
    (enumeration.catalog settings package).entries.map Entry.fullName = enumeration.names := by
  simp [Enumeration.catalog, Enumeration.names, Function.comp_def]

/-- The entries of a message are for its names. -/
theorem Message.fullNames_ownEntries (message : Message) :
    (message.ownEntries settings package).map Entry.fullName = message.names := by
  simp [Message.ownEntries, Message.names, Message.oneofNames, oneofEntries, List.map_flatMap,
    Function.comp_def]

/-- The entries of a service are for its names. -/
theorem Service.fullNames_catalog (service : Service) :
    (service.catalog settings package).entries.map Entry.fullName = service.names := by
  simp [Service.catalog, Service.names, Function.comp_def]

/-- The full names of the declarations of a catalog. -/
def Catalog.names (catalog : Catalog) : List String :=
  catalog.enums.flatMap Enumeration.names ++
    (catalog.messages.flatMap Message.names ++ catalog.services.flatMap Service.names)

/-- A flat catalog has entries for the names of its declarations. -/
theorem Catalog.Listed.fullNames_perm {catalog : Catalog}
    (hlisted : catalog.Listed settings package) : catalog.fullNames.Perm catalog.names := by
  have hnames : (catalog.declared settings package).map Entry.fullName = catalog.names := by
    simp only [Catalog.declared, Catalog.names, List.map_append, List.map_flatMap,
      Enumeration.fullNames_catalog, Message.fullNames_ownEntries, Service.fullNames_catalog]
  rw [← hnames]
  exact hlisted.map Entry.fullName

/-! ## Registries -/

namespace Sequence

/-- The first repeated name occurs twice, among the names or among those seen before. -/
theorem count_of_firstRepeatAfter? {seen names : List String} {name : String}
    (h : firstRepeatAfter? seen names = some name) : 2 ≤ (seen ++ names).count name := by
  induction names generalizing seen with
  | nil => contradiction
  | cons head rest ih =>
      unfold firstRepeatAfter? at h
      split at h
      · rename_i hseen
        obtain rfl := Option.some.inj h
        have hbefore := List.count_pos_iff.mpr hseen
        rw [List.count_append, List.count_cons_self]
        omega
      · have hcount := ih h
        rw [List.cons_append, List.perm_middle.symm.count_eq] at hcount
        exact hcount

/-- The first repeated name occurs twice. -/
theorem count_of_firstRepeat? {names : List String} {name : String}
    (h : firstRepeat? names = some name) : 2 ≤ names.count name :=
  count_of_firstRepeatAfter? h

end Sequence

namespace Registry

/-- A catalog has a registry if its full names are distinct. -/
theorem ofCatalog_eq_ok_iff {catalog : Catalog} {registry : Registry} :
    ofCatalog catalog = .ok registry ↔ registry.toCatalog = catalog := by
  unfold ofCatalog
  constructor
  · intro h
    split at h
    · simp at h
    · rw [Except.ok.injEq] at h
      rw [← h]
  · rintro rfl
    have hnone : Sequence.firstRepeat? registry.fullNames = none :=
      (Sequence.firstRepeat?_eq_none_iff _).mpr registry.distinct
    split
    · rename_i fullName hrepeat
      rw [hnone] at hrepeat
      contradiction
    · rfl

/-- A catalog has no registry because of its first repeated name. -/
theorem ofCatalog_eq_error_iff {catalog : Catalog} {broken : Breach} :
    ofCatalog catalog = .error broken ↔
      ∃ fullName, Sequence.firstRepeat? catalog.fullNames = some fullName ∧
        broken = .duplicateName fullName := by
  unfold ofCatalog
  split
  · rename_i fullName hrepeat
    rw [hrepeat]
    simp [eq_comm]
  · rename_i hrepeat
    simp [hrepeat]

/-- The registry of a schema is its catalog. -/
theorem ofSchema_eq_ok_iff {schema : Schema} {registry : Registry} :
    ofSchema settings package schema = .ok registry ↔
      registry.toCatalog = schema.catalog settings package :=
  ofCatalog_eq_ok_iff

/-- The catalog in the registry of a schema is flat. -/
theorem listed_of_ofSchema {schema : Schema} {registry : Registry}
    (h : ofSchema settings package schema = .ok registry) :
    registry.toCatalog.Listed settings package := by
  rw [ofSchema_eq_ok_iff.mp h]
  exact schema.catalog_listed settings package

/-- The declarations in the registry of a schema have distinct names. -/
theorem names_nodup_of_ofSchema {schema : Schema} {registry : Registry}
    (h : ofSchema settings package schema = .ok registry) : registry.names.Nodup :=
  (listed_of_ofSchema h).fullNames_perm.nodup_iff.mp registry.distinct

/-- A name is registered if it is one of the names in the registry. -/
theorem isRegistered_iff {registry : Registry} {fullName : String} :
    registry.isRegistered fullName = true ↔ fullName ∈ registry.fullNames := by
  unfold isRegistered key? Catalog.fullNames
  rw [Option.isSome_map, List.find?_isSome, List.mem_map]
  simp

/-- The names of the enumerations of a schema are registered. -/
theorem isRegistered_of_enum {schema : Schema} {registry : Registry} {enumeration : Enumeration}
    (h : ofSchema settings package schema = .ok registry) (hmem : enumeration ∈ schema.allEnums) :
    registry.isRegistered enumeration.fullName = true := by
  have henums := schema.catalog_enums_perm settings package
  rw [← ofSchema_eq_ok_iff.mp h] at henums
  rw [isRegistered_iff, (listed_of_ofSchema h).fullNames_perm.mem_iff]
  apply List.mem_append_left
  exact List.mem_flatMap.mpr ⟨enumeration, henums.mem_iff.mpr hmem, List.mem_cons_self⟩

/-- The names of the messages of a schema are registered. -/
theorem isRegistered_of_message {schema : Schema} {registry : Registry} {message : Message}
    (h : ofSchema settings package schema = .ok registry) (hmem : message ∈ schema.allMessages) :
    registry.isRegistered message.fullName = true := by
  have hmessages := schema.catalog_messages_perm settings package
  rw [← ofSchema_eq_ok_iff.mp h] at hmessages
  rw [isRegistered_iff, (listed_of_ofSchema h).fullNames_perm.mem_iff]
  apply List.mem_append_right
  apply List.mem_append_left
  exact List.mem_flatMap.mpr ⟨message, hmessages.mem_iff.mpr hmem, List.mem_cons_self⟩

/-- The services in the registry of a schema are those of the schema. -/
theorem services_eq {schema : Schema} {registry : Registry}
    (h : ofSchema settings package schema = .ok registry) :
    registry.services = schema.services := by
  rw [ofSchema_eq_ok_iff.mp h, Schema.catalog_services]

/-- The names of the methods of a schema are registered. -/
theorem isRegistered_of_method {schema : Schema} {registry : Registry} {service : Service}
    {method : Method} (h : ofSchema settings package schema = .ok registry)
    (hservice : service ∈ schema.services) (hmethod : method ∈ service.methods) :
    registry.isRegistered method.fullName = true := by
  rw [isRegistered_iff, (listed_of_ofSchema h).fullNames_perm.mem_iff]
  apply List.mem_append_right
  apply List.mem_append_right
  exact List.mem_flatMap.mpr ⟨service, services_eq h ▸ hservice,
    List.mem_cons_of_mem _ (List.mem_map_of_mem hmethod)⟩

end Registry

end ElmBinding
