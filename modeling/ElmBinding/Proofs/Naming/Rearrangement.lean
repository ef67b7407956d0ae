import ElmBinding.Proofs.Naming.Catalogs
import ElmBinding.Proofs.Sequence.Sorting
import Mathlib.Data.List.Flatten

/-!
# Rearranged declarations

The messages, enumerations and services of a schema may be declared in another order, and so
may the messages and enumerations inside a message, at every depth.  The catalog then lists
the same declarations in another order, where messages differ at most in the types declared
inside them.  Its registry finds the same key and, but for those types, the same message for
every name.

Main results:

- Definition {lit}`Rearranged`: messages in another order, with their insides rearranged.
- Definition {lit}`Catalog.Alike`: catalogs of the same declarations.
- Theorem {lit}`Schema.Rearranged.catalog_alike`: rearranged schemas have alike catalogs.
- Theorems {lit}`Registry.key?_eq_of_alike` and {lit}`Registry.shell_message?_eq_of_alike`:
  alike registries find the same.
-/

namespace ElmBinding

variable {settings : Settings} {package : String}

/-- A message without the types declared inside it. -/
def Message.shell (message : Message) : Message :=
  { message with messages := [], enums := [] }

/-- Messages in another order, where the types inside each of them are rearranged as well. -/
inductive Rearranged : List Message → List Message → Prop
  | nil : Rearranged [] []
  | cons {message message' : Message} {rest rest' : List Message}
      (hshell : message'.shell = message.shell)
      (hmessages : Rearranged message.messages message'.messages)
      (henums : message.enums.Perm message'.enums) (hrest : Rearranged rest rest') :
      Rearranged (message :: rest) (message' :: rest')
  | swap (first second : Message) (rest : List Message) :
      Rearranged (first :: second :: rest) (second :: first :: rest)
  | trans {messages middle other : List Message} (hfirst : Rearranged messages middle)
      (hsecond : Rearranged middle other) : Rearranged messages other

/-- A schema whose declarations are in another order. -/
structure Schema.Rearranged (schema other : Schema) : Prop where
  fileName : other.fileName = schema.fileName
  dialect : other.dialect = schema.dialect
  package : other.package = schema.package
  messages : ElmBinding.Rearranged schema.messages other.messages
  enums : schema.enums.Perm other.enums
  services : schema.services.Perm other.services

/-- Messages are a rearrangement of themselves. -/
theorem rearranged_refl (messages : List Message) : Rearranged messages messages := by
  induction messages using forest_induction with
  | nil => exact .nil
  | cons message rest hinner hrest => exact .cons rfl hinner (List.Perm.refl _) hrest

/-- Messages in another order are a rearrangement, with nothing changed inside them. -/
theorem rearranged_of_perm {messages other : List Message} (h : messages.Perm other) :
    Rearranged messages other := by
  induction h with
  | nil => exact .nil
  | cons message _ ih => exact .cons rfl (rearranged_refl _) (List.Perm.refl _) ih
  | swap first second rest => exact .swap second first rest
  | trans _ _ ih ih' => exact .trans ih ih'

/-! ## Alike catalogs -/

namespace Catalog

/-- Catalogs of the same declarations in any order, up to what is inside of messages. -/
structure Alike (first second : Catalog) : Prop where
  entries : first.entries.Perm second.entries
  enums : first.enums.Perm second.enums
  messages : (first.messages.map Message.shell).Perm (second.messages.map Message.shell)
  services : first.services.Perm second.services

/-- A catalog is alike itself. -/
theorem alike_refl (catalog : Catalog) : catalog.Alike catalog :=
  ⟨List.Perm.refl _, List.Perm.refl _, List.Perm.refl _, List.Perm.refl _⟩

/-- Likeness goes from catalog to catalog. -/
theorem Alike.trans {first second third : Catalog} (h : first.Alike second)
    (h' : second.Alike third) : first.Alike third where
  entries := h.entries.trans h'.entries
  enums := h.enums.trans h'.enums
  messages := h.messages.trans h'.messages
  services := h.services.trans h'.services

/-- Alike catalogs side by side are alike. -/
theorem Alike.append {first second first' second' : Catalog} (h : first.Alike second)
    (h' : first'.Alike second') : (first ++ first').Alike (second ++ second') where
  entries := h.entries.append h'.entries
  enums := h.enums.append h'.enums
  messages := by
    rw [messages_append, messages_append, List.map_append, List.map_append]
    exact h.messages.append h'.messages
  services := h.services.append h'.services

/-- Two catalogs before others may change places. -/
theorem alike_append_comm_assoc (first second rest : Catalog) :
    (first ++ (second ++ rest)).Alike (second ++ (first ++ rest)) where
  entries := List.perm_append_comm_assoc _ _ _
  enums := List.perm_append_comm_assoc _ _ _
  messages := (List.perm_append_comm_assoc _ _ _).map Message.shell
  services := List.perm_append_comm_assoc _ _ _

/-- Catalogs may be joined in any order. -/
theorem join_alike_of_perm {catalogs catalogs' : List Catalog} (h : catalogs.Perm catalogs') :
    (join catalogs).Alike (join catalogs') := by
  induction h with
  | nil => exact alike_refl _
  | cons catalog _ ih => exact (alike_refl catalog).append ih
  | swap first second rest => exact alike_append_comm_assoc second first (join rest)
  | trans _ _ ih ih' => exact ih.trans ih'

end Catalog

open Catalog

/-- The entries of a message do not depend on the types inside it. -/
theorem Message.ownEntries_shell (message : Message) :
    message.shell.ownEntries settings package = message.ownEntries settings package :=
  rfl

/-- Messages with one shell have alike catalogs of their own. -/
theorem Message.ownCatalog_alike {message message' : Message}
    (hshell : message'.shell = message.shell) :
    (message.ownCatalog settings package).Alike (message'.ownCatalog settings package) where
  entries := by
    have hentries : message'.ownEntries settings package = message.ownEntries settings package := by
      rw [← message'.ownEntries_shell, hshell, message.ownEntries_shell]
    exact List.Perm.of_eq hentries.symm
  enums := List.Perm.refl _
  messages := List.Perm.of_eq (congrArg (fun shell => [shell]) hshell.symm)
  services := List.Perm.refl _

/-- Rearranged messages have alike catalogs. -/
theorem Rearranged.messagesCatalog_alike {messages other : List Message}
    (h : Rearranged messages other) :
    (messagesCatalog settings package messages).Alike
      (messagesCatalog settings package other) := by
  induction h with
  | nil => exact alike_refl _
  | cons hshell _ henums _ hinner hrest =>
      rw [messagesCatalog_cons, messagesCatalog_cons]
      have henumerations := join_alike_of_perm (henums.map (Enumeration.catalog settings package))
      exact (henumerations.append (hinner.append (Message.ownCatalog_alike hshell))).append hrest
  | swap first second rest =>
      simp only [messagesCatalog]
      exact alike_append_comm_assoc _ _ _
  | trans _ _ ih ih' => exact ih.trans ih'

/-- Rearranged schemas have alike catalogs. -/
theorem Schema.Rearranged.catalog_alike {schema other : Schema} (h : schema.Rearranged other)
    (settings : Settings) (package : String) :
    (schema.catalog settings package).Alike (other.catalog settings package) := by
  unfold Schema.catalog
  exact (join_alike_of_perm (h.enums.map _)).append
    (h.messages.messagesCatalog_alike.append (join_alike_of_perm (h.services.map _)))

/-! ## Alike registries -/

namespace Registry

/-- If a schema has a registry, a rearranged one has an alike registry. -/
theorem exists_alike_of_rearranged {schema other : Schema} {registry : Registry}
    (hregistry : ofSchema settings package schema = .ok registry)
    (h : schema.Rearranged other) :
    ∃ registry', ofSchema settings package other = .ok registry' ∧
      registry.toCatalog.Alike registry'.toCatalog := by
  have hcatalog := ofSchema_eq_ok_iff.mp hregistry
  have halike := h.catalog_alike settings package
  rw [← hcatalog] at halike
  have hdistinct : (other.catalog settings package).fullNames.Nodup :=
    (halike.entries.map Entry.fullName).nodup_iff.mp registry.distinct
  exact ⟨⟨other.catalog settings package, hdistinct⟩, ofSchema_eq_ok_iff.mpr rfl, halike⟩

/-- Alike registries have the same keys. -/
theorem key?_eq_of_alike {registry registry' : Registry}
    (h : registry.toCatalog.Alike registry'.toCatalog) : registry'.key? = registry.key? := by
  funext fullName
  unfold key?
  rw [Sequence.find?_eq_of_perm h.entries registry.distinct fullName]

end Registry

/-- If all names of some things differ, then so do their own names. -/
theorem nodup_map_of_nodup_flatMap {α : Type} {items : List α} {name : α → String}
    {names : α → List String} (hname : ∀ a, ∃ rest, names a = name a :: rest)
    (h : (items.flatMap names).Nodup) : (items.map name).Nodup := by
  have hsublist : (items.map name).Sublist (items.flatMap names) := by
    rw [List.map_eq_flatMap]
    apply List.Sublist.flatMap_right
    intro a _
    rcases hname a with ⟨rest, hrest⟩
    rw [hrest]
    exact (List.nil_sublist rest).cons_cons (name a)
  exact hsublist.nodup h

namespace Catalog

variable {catalog : Catalog}

/-- Enumerations of a catalog with distinct names have distinct names. -/
theorem enums_nodup (h : catalog.names.Nodup) :
    (catalog.enums.map Enumeration.fullName).Nodup := by
  rw [names, List.nodup_append'] at h
  exact nodup_map_of_nodup_flatMap (fun enumeration => ⟨_, rfl⟩) h.1

/-- Messages of a catalog with distinct names have distinct names. -/
theorem messages_nodup (h : catalog.names.Nodup) :
    (catalog.messages.map Message.fullName).Nodup := by
  rw [names, List.nodup_append', List.nodup_append'] at h
  exact nodup_map_of_nodup_flatMap (fun message => ⟨_, rfl⟩) h.2.1.1

/-- Services of a catalog with distinct names have distinct names. -/
theorem services_nodup (h : catalog.names.Nodup) :
    (catalog.services.map Service.fullName).Nodup := by
  rw [names, List.nodup_append', List.nodup_append'] at h
  exact nodup_map_of_nodup_flatMap (fun service => ⟨_, rfl⟩) h.2.1.2.1

end Catalog

namespace Registry

variable {registry registry' : Registry}

/-- A registry finds the messages of its schema. -/
theorem message?_eq {schema : Schema} (h : ofSchema settings package schema = .ok registry)
    (fullName : String) :
    registry.message? fullName = schema.findMessage? fullName := by
  have hmessages := schema.catalog_messages_perm settings package
  rw [← ofSchema_eq_ok_iff.mp h] at hmessages
  exact Sequence.find?_eq_of_perm hmessages
    (Catalog.messages_nodup (names_nodup_of_ofSchema h)) fullName

/-- A search among shells finds the shell of what is found among messages. -/
theorem shell_message? (registry : Registry) (fullName : String) :
    (registry.message? fullName).map Message.shell =
      (registry.messages.map Message.shell).find? fun shell => shell.fullName = fullName := by
  rw [List.find?_map]
  rfl

/-- Alike registries find messages with the same shell. -/
theorem shell_message?_eq_of_alike (h : registry.toCatalog.Alike registry'.toCatalog)
    (hnames : registry.names.Nodup) (fullName : String) :
    (registry'.message? fullName).map Message.shell =
      (registry.message? fullName).map Message.shell := by
  have hkeys : ((registry.messages.map Message.shell).map Message.fullName).Nodup := by
    rw [List.map_map]
    exact Catalog.messages_nodup hnames
  rw [shell_message?, shell_message?, Sequence.find?_eq_of_perm h.messages hkeys fullName]

end Registry

end ElmBinding
