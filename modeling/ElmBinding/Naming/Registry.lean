import ElmBinding.Naming.Error
import ElmBinding.Schema.Find
import ElmBinding.Schema.Scope
import ElmBinding.Sequence.Repetition

/-!
# Keys of declarations

Before any identifier is given out, every declaration gets a key: the dotted name that its
identifier will be made of.  Keys depend on the declaration, on what is around it and on
the settings, not on the order of declarations.

- A type has its own name as key, or with qualified naming its full name less the package.
- A variant has its own name, with variant suffixes followed by the key of its owner.
- A oneof has the key of its message and its own name; a synthetic one stands for its only
  member and has the full name of that field less the package.
- A method has the key of its service and its own name.

Main definitions:

- Definition {lit}`Catalog`: keyed declarations.
- Definition {lit}`Schema.catalog`: the declarations of a schema with their keys.
- Definition {lit}`Registry`: a catalog in which full names are distinct.
- Definition {lit}`Registry.add`: a registry with more declarations.
-/

namespace ElmBinding

/-- The full name of a declaration and its key. -/
structure Entry where
  fullName : String
  key : String
deriving DecidableEq, Repr

/-- Keyed declarations. -/
structure Catalog where
  /-- The keys of all declarations that get an identifier. -/
  entries : List Entry := []
  enums : List Enumeration := []
  /-- The messages, those inside a message before it. -/
  messages : List Message := []
  services : List Service := []
deriving Repr

namespace Catalog

instance : Append Catalog where
  append first second := {
    entries := first.entries ++ second.entries
    enums := first.enums ++ second.enums
    messages := first.messages ++ second.messages
    services := first.services ++ second.services }

@[simp] theorem entries_append (first second : Catalog) :
    (first ++ second).entries = first.entries ++ second.entries := rfl

@[simp] theorem enums_append (first second : Catalog) :
    (first ++ second).enums = first.enums ++ second.enums := rfl

@[simp] theorem messages_append (first second : Catalog) :
    (first ++ second).messages = first.messages ++ second.messages := rfl

@[simp] theorem services_append (first second : Catalog) :
    (first ++ second).services = first.services ++ second.services := rfl

/-- The declarations of several catalogs. -/
def join (catalogs : List Catalog) : Catalog :=
  catalogs.foldr (· ++ ·) {}

/-- The full names of the keyed declarations. -/
def fullNames (catalog : Catalog) : List String :=
  catalog.entries.map Entry.fullName

end Catalog

/-! ## Keys -/

/-- The key of a type or service. -/
def typeKey (settings : Settings) (package name fullName : String) : String :=
  if settings.qualifyNested then withoutPackage package fullName else name

/-- The key of a variant of an enumeration or oneof with a key. -/
def variantKey (settings : Settings) (name owner : String) : String :=
  if settings.variantSuffixes then name ++ "." ++ owner else name

/-- The key of a oneof with some members in a message with a key. -/
def oneofKey (package owner : String) (oneof : Oneof) (members : List Field) : String :=
  match oneof.synthetic, members with
  | true, field :: _ => withoutPackage package field.fullName
  | _, _ => owner ++ "." ++ oneof.name

/-- The entries of a oneof and its members, in a message with a key. -/
def oneofEntries (settings : Settings) (package owner : String) (oneof : Oneof)
    (members : List Field) : List Entry :=
  let key := oneofKey package owner oneof members
  ⟨oneof.fullName, key⟩ ::
    members.map fun field => ⟨field.fullName, variantKey settings field.name key⟩

/-! ## Catalogs of declarations -/

/-- The catalog of an enumeration and its values. -/
def Enumeration.catalog (settings : Settings) (package : String) (enumeration : Enumeration) :
    Catalog :=
  let key := typeKey settings package enumeration.name enumeration.fullName
  { entries := ⟨enumeration.fullName, key⟩ ::
      enumeration.values.map fun value => ⟨value.fullName, variantKey settings value.name key⟩
    enums := [enumeration] }

/-- The entries of a message, its oneofs and their members. -/
def Message.ownEntries (settings : Settings) (package : String) (message : Message) :
    List Entry :=
  let key := typeKey settings package message.name message.fullName
  ⟨message.fullName, key⟩ ::
    message.oneofs.zipIdx.flatMap fun (oneof, index) =>
      oneofEntries settings package key oneof (message.members index)

/-- The catalog of a message without the types inside it. -/
def Message.ownCatalog (settings : Settings) (package : String) (message : Message) : Catalog where
  entries := message.ownEntries settings package
  messages := [message]

mutual

/-- The catalog of a message, behind those of the enumerations and messages inside it. -/
def Message.catalog (settings : Settings) (package : String) : Message → Catalog
  | ⟨name, fullName, fields, oneofs, messages, enums, mapEntry, comments⟩ =>
      Catalog.join (enums.map (Enumeration.catalog settings package)) ++
        (messagesCatalog settings package messages ++
          Message.ownCatalog settings package
            ⟨name, fullName, fields, oneofs, messages, enums, mapEntry, comments⟩)

/-- The catalog of several messages. -/
def messagesCatalog (settings : Settings) (package : String) : List Message → Catalog
  | [] => {}
  | message :: rest => message.catalog settings package ++ messagesCatalog settings package rest

end

theorem Message.catalog_eq (settings : Settings) (package : String) (message : Message) :
    message.catalog settings package =
      Catalog.join (message.enums.map (Enumeration.catalog settings package)) ++
        (messagesCatalog settings package message.messages ++
          message.ownCatalog settings package) := by
  cases message
  simp [Message.catalog]

/-- The catalog of a service and its methods. -/
def Service.catalog (settings : Settings) (package : String) (service : Service) : Catalog :=
  let key := typeKey settings package service.name service.fullName
  { entries := ⟨service.fullName, key⟩ ::
      service.methods.map fun method => ⟨method.fullName, key ++ "." ++ method.name⟩
    services := [service] }

/-- The catalog of a schema: its enumerations, then its messages, then its services. -/
def Schema.catalog (settings : Settings) (package : String) (schema : Schema) : Catalog :=
  Catalog.join (schema.enums.map (Enumeration.catalog settings package)) ++
    (messagesCatalog settings package schema.messages ++
      Catalog.join (schema.services.map (Service.catalog settings package)))

/-! ## Registries -/

/-- A catalog in which every full name is declared once. -/
structure Registry extends Catalog where
  distinct : toCatalog.fullNames.Nodup

namespace Registry

/-- The registry without declarations. -/
def empty : Registry where
  distinct := by simp [Catalog.fullNames]

/-- The registry of a catalog, unless a full name in it is declared twice. -/
def ofCatalog (catalog : Catalog) : Except Breach Registry :=
  match h : Sequence.firstRepeat? catalog.fullNames with
  | some fullName => .error (.duplicateName fullName)
  | none => .ok ⟨catalog, (Sequence.firstRepeat?_eq_none_iff _).mp h⟩

/-- A registry with more declarations. -/
def add (registry : Registry) (more : Catalog) : Except Breach Registry :=
  ofCatalog (registry.toCatalog ++ more)

/-- The registry of a schema. -/
def ofSchema (settings : Settings) (package : String) (schema : Schema) :
    Except Breach Registry :=
  ofCatalog (schema.catalog settings package)

/-- The key of the declaration with a full name. -/
def key? (registry : Registry) (fullName : String) : Option String :=
  (registry.entries.find? fun entry => entry.fullName = fullName).map Entry.key

/-- Whether something with a full name is declared. -/
def isRegistered (registry : Registry) (fullName : String) : Bool :=
  (registry.key? fullName).isSome

/-- The message with a full name. -/
def message? (registry : Registry) (fullName : String) : Option Message :=
  registry.messages.find? fun message => message.fullName = fullName

end Registry

end ElmBinding
