import ElmBinding.Proofs.Naming.Rearrangement

/-!
# Declarations by name

A schema is searched for a name in its tree, a registry in the tables that it was given once.  The
search goes into the messages of a message before it goes on to the next, and stops at the first
declaration of the name.  The tables list the messages inside a message before it.  Since no two
declarations of a registry share a name, both find the same.

Main results:

- Definition {lit}`searchMessages`: the search through nested messages.
- Theorem {lit}`searchMessages_eq`: it finds the first of the messages at every depth.
- Theorems {lit}`Schema.findMessage?_eq` and {lit}`Schema.findEnum?_eq`: declarations are found by
  this search.
- Theorem {lit}`Registry.lookups_agree`: a schema and its registry find the same declarations.
-/

namespace ElmBinding

variable {settings : Settings} {package : String} {α : Type}

/-! ## Search through nested messages -/

mutual

/-- What is found at a message, else what is found among the messages inside it. -/
def Message.search (look : Message → Option α) : Message → Option α
  | ⟨name, fullName, fields, oneofs, messages, enums, mapEntry, comments⟩ =>
      (look ⟨name, fullName, fields, oneofs, messages, enums, mapEntry, comments⟩).or
        (searchMessages look messages)

/-- What is found at the first message at which something is found, those inside it included. -/
def searchMessages (look : Message → Option α) : List Message → Option α
  | [] => none
  | message :: rest => (message.search look).or (searchMessages look rest)

end

/-- A message is looked at before the messages inside it, and these before the next message. -/
theorem searchMessages_cons (look : Message → Option α) (message : Message)
    (rest : List Message) :
    searchMessages look (message :: rest) =
      ((look message).or (searchMessages look message.messages)).or
        (searchMessages look rest) := by
  cases message
  rw [searchMessages, Message.search]

/-- The search finds what is found first among the messages at every depth. -/
theorem searchMessages_eq (look : Message → Option α) (messages : List Message) :
    searchMessages look messages = (families messages).findSome? look := by
  induction messages using forest_induction with
  | nil => rfl
  | cons message rest hinner hrest =>
      rw [searchMessages_cons, hinner, hrest, families_cons_eq, List.findSome?_cons,
        List.findSome?_append]
      cases look message <;> rfl

namespace Schema

/-- The message with a full name that is met first in the tree of a schema. -/
def seekMessage? (schema : Schema) (fullName : String) : Option Message :=
  searchMessages (Option.guard fun message => message.fullName = fullName) schema.messages

/-- The enumeration with a full name that is met first, outside of messages or in one of them. -/
def seekEnum? (schema : Schema) (fullName : String) : Option Enumeration :=
  (schema.enums.find? fun enumeration => enumeration.fullName = fullName).or
    (searchMessages
      (fun message => message.enums.find? fun enumeration => enumeration.fullName = fullName)
      schema.messages)

/-- The message that a schema finds is the one that is met first in its tree. -/
theorem findMessage?_eq (schema : Schema) (fullName : String) :
    schema.findMessage? fullName = schema.seekMessage? fullName := by
  rw [seekMessage?, searchMessages_eq, ← List.find?_eq_findSome?_guard]
  rfl

/-- The enumeration that a schema finds is the one that is met first in its tree. -/
theorem findEnum?_eq (schema : Schema) (fullName : String) :
    schema.findEnum? fullName = schema.seekEnum? fullName := by
  rw [seekEnum?, searchMessages_eq, findEnum?, allEnums, List.find?_append, List.find?_flatMap]
  rfl

end Schema

/-! ## Search and tables -/

namespace Registry

variable {schema : Schema} {registry : Registry}

/-- The table of enumerations has no two with one name. -/
theorem enums_nodup (h : ofSchema settings package schema = .ok registry) :
    (registry.enums.map Enumeration.fullName).Nodup :=
  Catalog.enums_nodup (names_nodup_of_ofSchema h)

/-- A schema finds the enumerations in the table of its registry. -/
theorem findEnum?_eq (h : ofSchema settings package schema = .ok registry) (fullName : String) :
    (registry.enums.find? fun enumeration => enumeration.fullName = fullName) =
      schema.findEnum? fullName := by
  have henums := schema.catalog_enums_perm settings package
  rw [← ofSchema_eq_ok_iff.mp h] at henums
  exact Sequence.find?_eq_of_perm henums (enums_nodup h) fullName

/--
A schema that has a registry finds what stands first in its tree, and that is what the tables of
the registry have under the name: one message or none, and one enumeration or none.
-/
theorem lookups_agree (h : ofSchema settings package schema = .ok registry) (fullName : String) :
    schema.findMessage? fullName = schema.seekMessage? fullName ∧
      schema.findMessage? fullName = registry.message? fullName ∧
      schema.findEnum? fullName = schema.seekEnum? fullName ∧
      (schema.findEnum? fullName).toList =
        registry.enums.filter fun enumeration => enumeration.fullName = fullName := by
  refine ⟨schema.findMessage?_eq fullName, (message?_eq h fullName).symm,
    schema.findEnum?_eq fullName, ?_⟩
  rw [← findEnum?_eq h, Sequence.filter_eq_toList_find? (enums_nodup h)]

end Registry

/-- The binding of a book. -/
def bookBinding : Enumeration where
  name := "Binding"
  fullName := "archive.Box.Shelf.Book.Binding"

/-- A book with its binding. -/
def archivedBook : Message where
  name := "Book"
  fullName := "archive.Box.Shelf.Book"
  enums := [bookBinding]

/-- A schema with a message two levels down, and others of the same short name outside. -/
def archiveSchema : Schema where
  package := some "archive"
  messages := [
    { name := "Box", fullName := "archive.Box"
      messages := [
        { name := "Lid", fullName := "archive.Box.Lid" },
        { name := "Shelf", fullName := "archive.Box.Shelf", messages := [archivedBook] }] },
    { name := "Book", fullName := "archive.Book"
      enums := [{ name := "Binding", fullName := "archive.Book.Binding" }] }]
  enums := [{ name := "Binding", fullName := "archive.Binding" }]

/-- The archive and its registry find the book on the shelf and its binding, and no other lid. -/
theorem lookups_archiveSchema :
    ∃ registry, Registry.ofSchema {} "archive" archiveSchema = .ok registry ∧
      registry.message? "archive.Box.Shelf.Book" = some archivedBook ∧
      (registry.enums.filter fun enumeration =>
        enumeration.fullName = "archive.Box.Shelf.Book.Binding") = [bookBinding] ∧
      registry.message? "archive.Lid" = none := by
  have hdistinct : (archiveSchema.catalog {} "archive").fullNames.Nodup := by decide +kernel
  have hregistry : Registry.ofSchema {} "archive" archiveSchema =
      .ok ⟨archiveSchema.catalog {} "archive", hdistinct⟩ :=
    Registry.ofSchema_eq_ok_iff.mpr rfl
  rcases Registry.lookups_agree hregistry "archive.Box.Shelf.Book" with ⟨-, hbook, -, -⟩
  rcases Registry.lookups_agree hregistry "archive.Box.Shelf.Book.Binding" with ⟨-, -, -, hbinding⟩
  rcases Registry.lookups_agree hregistry "archive.Lid" with ⟨-, hlid, -, -⟩
  exact ⟨_, hregistry, hbook.symm.trans rfl, hbinding.symm.trans rfl, hlid.symm.trans rfl⟩

end ElmBinding
