import ElmBinding.Proofs.Naming.PlainKeys
import ElmBinding.Proofs.Schema.Linking
import ElmBinding.Proofs.Sequence.Pairing
import ElmBinding.Source.Rules

/-!
# Well-formed schemas

In a well-formed schema every name is a word of letters, digits and underscores.  Its full
name lies in the package of the schema: it is made of the name of a scope, which is the
package or begins with it, a dot, and the word.  The entry message of a map field has a scalar
key and a value that is no group.

Main results:

- Definition {lit}`NamedIn`: words declared in a scope of a package.
- Definition {lit}`Schema.WellFormed`: schemas whose declarations are named in their package,
  with proper entries of maps.
- Theorem {lit}`Schema.WellFormed.isPlain`: well-formed schemas are plain.
- Theorem {lit}`Schema.WellFormed.link`: linking keeps schemas well formed.
- Definition {lit}`Schema.Proper`: well-formed schemas whose package has a plain name.
-/

namespace ElmBinding

open Name Source

/-! ## Words and scopes -/

/-- Whether a name is made of letters, digits and underscores. -/
def isWord (name : String) : Bool :=
  name.toList.all isIdentChar

/-- A scope of a package: the package or a name in it; without a package, any plain name. -/
structure ScopeIn (package scope : String) : Prop where
  plain : isPlain scope = true
  inside : package = "" ∨ scope = package ∨ ∃ inner, scope = package ++ "." ++ inner

/-- A word and its full name in a scope of a package. -/
structure NamedIn (package name fullName : String) : Prop where
  word : isWord name = true
  scope : ∃ scope, ScopeIn package scope ∧ fullName = qualify scope name

/-- Words are plain. -/
theorem isPlain_of_isWord {name : String} (h : isWord name = true) : isPlain name = true := by
  unfold isWord at h
  unfold isPlain
  rw [List.all_eq_true] at h ⊢
  intro c hc
  have hword := h c hc
  unfold isIdentChar at hword
  unfold isPlainChar
  rw [hword]
  rfl

/-- A plain package is a scope of itself. -/
theorem ScopeIn.self {package : String} (h : isPlain package = true) : ScopeIn package package :=
  ⟨h, Or.inr (Or.inl rfl)⟩

/-- What is declared in a scope of a package is itself a scope of the package. -/
theorem ScopeIn.qualify {package scope name : String} (h : ScopeIn package scope)
    (hname : isWord name = true) : ScopeIn package (qualify scope name) := by
  have hplain := isPlain_of_isWord hname
  unfold ElmBinding.qualify
  split
  · rename_i hempty
    refine ⟨hplain, Or.inl ?_⟩
    rcases h.inside with hnone | hself | ⟨inner, hinner⟩
    · exact hnone
    · rw [← hself, hempty]
    · have hchars := congrArg String.toList (hempty.symm.trans hinner)
      simp [String.toList_append] at hchars
  · refine ⟨isPlain_dotted h.plain hplain, ?_⟩
    rcases h.inside with hnone | rfl | ⟨inner, rfl⟩
    · exact Or.inl hnone
    · exact Or.inr (Or.inr ⟨name, rfl⟩)
    · refine Or.inr (Or.inr ⟨inner ++ "." ++ name, ?_⟩)
      simp only [String.append_assoc]

namespace NamedIn

variable {package name fullName : String}

/-- A word in a scope is named there. -/
theorem of_scope {scope : String} (hscope : ScopeIn package scope) (hname : isWord name = true) :
    NamedIn package name (qualify scope name) :=
  ⟨hname, scope, hscope, rfl⟩

/-- The full name of a declaration is a scope for those inside it. -/
theorem fullScope (h : NamedIn package name fullName) : ScopeIn package fullName := by
  rcases h.scope with ⟨scope, hscope, rfl⟩
  exact hscope.qualify h.word

/-- The name of a declaration and its full name are plain. -/
theorem isPlainName (h : NamedIn package name fullName) : isPlainName name fullName = true := by
  rw [ElmBinding.isPlainName, isPlain_of_isWord h.word, h.fullScope.plain]
  rfl

end NamedIn

/-! ## Well-formed declarations -/

/-- An enumeration named in a package with all its values. -/
structure Enumeration.WellFormed (package : String) (enumeration : Enumeration) : Prop where
  named : NamedIn package enumeration.name enumeration.fullName
  values : ∀ value ∈ enumeration.values, NamedIn package value.name value.fullName

/-- A message with a scalar key and a value that is no group, and nothing else. -/
def Message.HoldsEntry (entry : Message) : Prop :=
  ∃ key value type, entry.fields = [key, value] ∧ key.kind = .scalar type ∧
    ∀ target, value.kind ≠ .group target

/-- A message named in a package with all that it declares itself. -/
structure Message.WellFormed (package : String) (message : Message) : Prop where
  named : NamedIn package message.name message.fullName
  fields : ∀ field ∈ message.fields, NamedIn package field.name field.fullName
  oneofs : ∀ oneof ∈ message.oneofs, NamedIn package oneof.name oneof.fullName
  enums : ∀ enumeration ∈ message.enums, enumeration.WellFormed package
  entry : message.mapEntry = true → message.HoldsEntry

/-- A service named in a package with its methods. -/
structure Service.WellFormed (package : String) (service : Service) : Prop where
  named : NamedIn package service.name service.fullName
  methods : ∀ method ∈ service.methods, NamedIn package method.name method.fullName

/-- A schema whose declarations are named in its package. -/
structure Schema.WellFormed (schema : Schema) : Prop where
  enums : ∀ enumeration ∈ schema.enums, enumeration.WellFormed schema.packageName
  messages : ∀ message ∈ schema.allMessages, message.WellFormed schema.packageName
  services : ∀ service ∈ schema.services, service.WellFormed schema.packageName

/-- The enumerations of a well-formed schema are named in its package, at every depth. -/
theorem Schema.WellFormed.allEnums {schema : Schema} (h : schema.WellFormed) :
    ∀ enumeration ∈ schema.allEnums, enumeration.WellFormed schema.packageName := by
  intro enumeration hmem
  rcases List.mem_append.mp hmem with hmem | hmem
  · exact h.enums enumeration hmem
  · rcases List.mem_flatMap.mp hmem with ⟨message, hmessage, hmem⟩
    exact (h.messages message hmessage).enums enumeration hmem

/-- Well-formed schemas are plain. -/
theorem Schema.WellFormed.isPlain {schema : Schema} (h : schema.WellFormed) :
    schema.isPlain = true := by
  simp only [Schema.isPlain, Bool.and_eq_true, List.all_eq_true]
  refine ⟨?_, ?_, ?_⟩
  · intro enumeration hmem
    have henum := h.allEnums enumeration hmem
    simp only [Enumeration.isPlain, Bool.and_eq_true, List.all_eq_true]
    exact ⟨henum.named.isPlainName, fun value hvalue => (henum.values value hvalue).isPlainName⟩
  · intro message hmem
    have hmessage := h.messages message hmem
    simp only [Message.isPlain, Bool.and_eq_true, List.all_eq_true]
    exact ⟨hmessage.named.isPlainName,
      fun field hfield => (hmessage.fields field hfield).isPlainName,
      fun oneof honeof => (hmessage.oneofs oneof honeof).isPlainName⟩
  · intro service hmem
    have hservice := h.services service hmem
    simp only [Service.isPlain, Bool.and_eq_true, List.all_eq_true]
    exact ⟨hservice.named.isPlainName,
      fun method hmethod => (hservice.methods method hmethod).isPlainName⟩

/-! ## Linked schemas -/

variable {table : List Symbol}

/-- Linking keeps the entries of maps. -/
theorem Message.Linked.holdsEntry {message linked : Message}
    (hlinked : message.Linked table linked) (h : message.HoldsEntry) : linked.HoldsEntry := by
  rcases h with ⟨key, value, type, hfields, hkey, hvalue⟩
  have hpairs := hlinked.fields
  rw [hfields] at hpairs
  rcases List.forall₂_cons_left_iff.mp hpairs with ⟨key', others, hkey', hothers, heq⟩
  rcases List.forall₂_cons_left_iff.mp hothers with ⟨value', rest, hvalue', hrest, hsplit⟩
  rw [hsplit, List.forall₂_nil_left_iff.mp hrest] at heq
  rcases map_eq_ok_iff.mp hkey' with ⟨kind, hkind, rfl⟩
  rcases map_eq_ok_iff.mp hvalue' with ⟨other, hother, rfl⟩
  refine ⟨_, _, type, heq, ?_, ?_⟩
  · rw [hkey] at hkind
    exact (Except.ok.inj hkind).symm
  · have hplain : ∀ (symbol : Symbol) target, symbol.fieldKind ≠ .group target := by
      intro symbol target
      unfold Symbol.fieldKind
      split <;> simp
    intro target
    cases hform : value.kind with
    | group reference => exact absurd hform (hvalue reference)
    | scalar wire =>
        rw [hform] at hother
        rw [← Except.ok.inj hother]
        simp
    | enumeration reference | message reference =>
        rw [hform] at hother
        rcases map_eq_ok_iff.mp hother with ⟨symbol, -, rfl⟩
        exact hplain symbol target

/-- Linking keeps messages well formed. -/
theorem Message.Linked.wellFormed {package : String} {message linked : Message}
    (hlinked : message.Linked table linked) (h : message.WellFormed package) :
    linked.WellFormed package where
  named := by
    rw [hlinked.name, hlinked.fullName]
    exact h.named
  fields := by
    intro other hother
    rcases exists_of_forall₂_of_mem hlinked.fields hother with ⟨field, hfield, hlink⟩
    rcases map_eq_ok_iff.mp hlink with ⟨kind, -, rfl⟩
    exact h.fields field hfield
  oneofs := by
    rw [hlinked.oneofs]
    exact h.oneofs
  enums := by
    rw [hlinked.enums]
    exact h.enums
  entry := by
    rw [hlinked.mapEntry]
    exact fun hentry => hlinked.holdsEntry (h.entry hentry)

/-- Linking keeps services well formed. -/
theorem wellFormed_linkService {package : String} {service linked : Service}
    (hlink : linkService table package service = .ok linked) (h : service.WellFormed package) :
    linked.WellFormed package := by
  rcases map_eq_ok_iff.mp hlink with ⟨methods, hmethods, rfl⟩
  refine ⟨h.named, ?_⟩
  intro other hother
  rcases exists_of_forall₂_of_mem (forall₂_of_mapM hmethods) hother with
    ⟨method, hmethod, hmade⟩
  rcases bind_eq_ok_iff.mp hmade with ⟨input, -, hmade⟩
  rcases bind_eq_ok_iff.mp hmade with ⟨output, -, hmade⟩
  rw [← Except.ok.inj hmade]
  exact h.methods method hmethod

/-- Linking keeps schemas well formed. -/
theorem Schema.WellFormed.link {schema linked : Schema} (h : schema.WellFormed)
    (hlink : linkSchema table schema = .ok linked) : linked.WellFormed := by
  rcases linkSchema_eq_ok_iff.mp hlink with ⟨messages, services, hmessages, hservices, rfl⟩
  refine ⟨h.enums, ?_, ?_⟩
  · intro other hother
    rcases exists_of_forall₂_of_mem (forall₂_linkMessages hmessages) hother with
      ⟨message, hmessage, hlinked⟩
    exact hlinked.wellFormed (h.messages message hmessage)
  · intro other hother
    rcases exists_of_forall₂_of_mem (forall₂_of_mapM hservices) hother with
      ⟨service, hservice, hlinked⟩
    exact wellFormed_linkService hlinked (h.services service hservice)

/-! ## Schemas with a package -/

/-- A well-formed schema whose package has a plain name. -/
structure Schema.Proper (schema : Schema) : Prop where
  package : Name.isPlain schema.packageName = true
  formed : schema.WellFormed

namespace Schema.Proper

variable {schema linked : Schema}

/-- Linking keeps schemas proper. -/
theorem link {table : List Symbol} (h : schema.Proper)
    (hlink : linkSchema table schema = .ok linked) : linked.Proper := by
  refine ⟨?_, h.formed.link hlink⟩
  rcases linkSchema_eq_ok_iff.mp hlink with ⟨messages, services, -, -, rfl⟩
  exact h.package

/-- A schema that is linked on its own stays proper. -/
theorem linkAlone (h : schema.Proper) (hlink : ElmBinding.linkAlone schema = .ok linked) :
    linked.Proper := by
  rcases bind_eq_ok_iff.mp hlink with ⟨table, -, hlink⟩
  exact h.link hlink

end Schema.Proper

end ElmBinding
