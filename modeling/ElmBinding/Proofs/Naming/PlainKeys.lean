import ElmBinding.Proofs.Name.PlainNames
import ElmBinding.Proofs.Naming.Steps
import ElmBinding.Proofs.Naming.Catalogs

/-!
# Keys of plain schemas

In a plain schema all names are made of letters, digits, underscores and dots.  Keys are put
together from names with dots in between, so they are plain as well, and a plain key makes an
identifier whatever its role.  With legal settings, all that a plain schema declares can be
named.

Main results:

- Definition {lit}`Schema.isPlain`: whether all names of a schema are plain.
- Theorem {lit}`Schema.isPlain_key`: the keys of a plain schema are plain.
- Theorem {lit}`Site.canName_of_isPlain`: what a plain schema declares can be named.
-/

namespace ElmBinding

open Name

variable {settings : Settings} {package : String}

/-! ## Plain schemas -/

/-- Whether the name and the full name of a declaration are plain. -/
def isPlainName (name fullName : String) : Bool :=
  isPlain name && isPlain fullName

/-- Whether the names of an enumeration and its values are plain. -/
def Enumeration.isPlain (enumeration : Enumeration) : Bool :=
  isPlainName enumeration.name enumeration.fullName &&
    enumeration.values.all fun value => isPlainName value.name value.fullName

/-- Whether the names of a message, its fields and its oneofs are plain. -/
def Message.isPlain (message : Message) : Bool :=
  isPlainName message.name message.fullName &&
    (message.fields.all (fun field => isPlainName field.name field.fullName) &&
      message.oneofs.all fun oneof => isPlainName oneof.name oneof.fullName)

/-- Whether the names of a service and its methods are plain. -/
def Service.isPlain (service : Service) : Bool :=
  isPlainName service.name service.fullName &&
    service.methods.all fun method => isPlainName method.name method.fullName

/-- Whether all names of a schema are plain. -/
def Schema.isPlain (schema : Schema) : Bool :=
  schema.allEnums.all Enumeration.isPlain &&
    (schema.allMessages.all Message.isPlain && schema.services.all Service.isPlain)

/-! ## Plain keys -/

/-- The key of a type with plain names is plain. -/
theorem isPlain_typeKey (settings : Settings) (package : String) {name fullName : String}
    (h : isPlainName name fullName = true) :
    isPlain (typeKey settings package name fullName) = true := by
  rw [isPlainName, Bool.and_eq_true] at h
  unfold typeKey
  split
  · exact isPlain_withoutPackage h.2
  · exact h.1

/-- Two plain names with a dot in between are plain. -/
theorem isPlain_dotted {first second : String} (hfirst : isPlain first = true)
    (hsecond : isPlain second = true) : isPlain (first ++ "." ++ second) = true := by
  have hdot : isPlain "." = true := by decide
  rw [isPlain_append, isPlain_append, hfirst, hdot, hsecond]
  rfl

/-- The key of a variant with a plain name is plain if that of its owner is. -/
theorem isPlain_variantKey {name owner : String} (hname : isPlain name = true)
    (howner : isPlain owner = true) : isPlain (variantKey settings name owner) = true := by
  unfold variantKey
  split
  · exact isPlain_dotted hname howner
  · exact hname

/-- The entries of an enumeration with plain names have plain keys. -/
theorem Enumeration.isPlain_key {enumeration : Enumeration} {entry : Entry}
    (h : enumeration.isPlain = true)
    (hentry : entry ∈ (enumeration.catalog settings package).entries) :
    Name.isPlain entry.key = true := by
  simp only [Enumeration.isPlain, Bool.and_eq_true, List.all_eq_true] at h
  have hkey := isPlain_typeKey settings package h.1
  rcases List.mem_cons.mp hentry with rfl | hentry
  · exact hkey
  · rcases List.mem_map.mp hentry with ⟨value, hvalue, rfl⟩
    have hnames := h.2 value hvalue
    rw [isPlainName, Bool.and_eq_true] at hnames
    exact isPlain_variantKey hnames.1 hkey

/-- The key of a oneof with plain names in a message with plain names is plain. -/
theorem isPlain_oneofKey (package : String) {owner : String} {oneof : Oneof}
    {members : List Field} (howner : isPlain owner = true)
    (honeof : isPlainName oneof.name oneof.fullName = true)
    (hmembers : ∀ field ∈ members, isPlainName field.name field.fullName = true) :
    isPlain (oneofKey package owner oneof members) = true := by
  rw [isPlainName, Bool.and_eq_true] at honeof
  unfold oneofKey
  split
  · rename_i field rest _
    have hfield := hmembers field List.mem_cons_self
    rw [isPlainName, Bool.and_eq_true] at hfield
    exact isPlain_withoutPackage hfield.2
  · exact isPlain_dotted howner honeof.1

/-- The entries of a message with plain names have plain keys. -/
theorem Message.isPlain_key {message : Message} {entry : Entry} (h : message.isPlain = true)
    (hentry : entry ∈ message.ownEntries settings package) : Name.isPlain entry.key = true := by
  simp only [Message.isPlain, Bool.and_eq_true, List.all_eq_true] at h
  rcases h with ⟨hmessage, hfields, honeofs⟩
  have howner := isPlain_typeKey settings package hmessage
  rcases List.mem_cons.mp hentry with rfl | hentry
  · exact howner
  · rcases List.mem_flatMap.mp hentry with ⟨⟨oneof, index⟩, hindexed, hentry⟩
    have honeof : oneof ∈ message.oneofs :=
      List.mem_of_getElem? (List.mem_zipIdx_iff_getElem?.mp hindexed)
    have hmembers : ∀ field ∈ message.members index,
        isPlainName field.name field.fullName = true := by
      intro field hfield
      exact hfields field (List.mem_filter.mp hfield).1
    have hkey := isPlain_oneofKey package howner (honeofs oneof honeof) hmembers
    rcases List.mem_cons.mp hentry with rfl | hentry
    · exact hkey
    · rcases List.mem_map.mp hentry with ⟨field, hfield, rfl⟩
      have hnames := hmembers field hfield
      rw [isPlainName, Bool.and_eq_true] at hnames
      exact isPlain_variantKey hnames.1 hkey

/-- The entries of a service with plain names have plain keys. -/
theorem Service.isPlain_key {service : Service} {entry : Entry} (h : service.isPlain = true)
    (hentry : entry ∈ (service.catalog settings package).entries) :
    Name.isPlain entry.key = true := by
  simp only [Service.isPlain, Bool.and_eq_true, List.all_eq_true] at h
  have hkey := isPlain_typeKey settings package h.1
  rcases List.mem_cons.mp hentry with rfl | hentry
  · exact hkey
  · rcases List.mem_map.mp hentry with ⟨method, hmethod, rfl⟩
    have hnames := h.2 method hmethod
    rw [isPlainName, Bool.and_eq_true] at hnames
    exact isPlain_dotted hkey hnames.1

/-- The keys of a plain schema are plain. -/
theorem Schema.isPlain_key {schema : Schema} {entry : Entry} (h : schema.isPlain = true)
    (hentry : entry ∈ (schema.catalog settings package).entries) :
    Name.isPlain entry.key = true := by
  simp only [Schema.isPlain, Bool.and_eq_true, List.all_eq_true] at h
  rcases h with ⟨henums, hmessages, hservices⟩
  have hdeclared := (schema.catalog_listed settings package).mem_iff.mp hentry
  simp only [Catalog.declared, List.mem_append, List.mem_flatMap] at hdeclared
  rcases hdeclared with ⟨enumeration, hmem, hentry⟩ | ⟨message, hmem, hentry⟩ |
    ⟨service, hmem, hentry⟩
  · have hlisted := (schema.catalog_enums_perm settings package).mem_iff.mp hmem
    exact Enumeration.isPlain_key (henums enumeration hlisted) hentry
  · have hlisted := (schema.catalog_messages_perm settings package).mem_iff.mp hmem
    exact Message.isPlain_key (hmessages message hlisted) hentry
  · rw [schema.catalog_services] at hmem
    exact Service.isPlain_key (hservices service hmem) hentry

/-! ## Names of registries -/

namespace Registry

/-- The key of a name comes from an entry. -/
theorem exists_entry_of_key? {registry : Registry} {fullName key : String}
    (h : registry.key? fullName = some key) :
    ∃ entry ∈ registry.entries, entry.fullName = fullName ∧ entry.key = key := by
  rcases Option.map_eq_some_iff.mp h with ⟨entry, hfind, hkey⟩
  have hname := List.find?_some hfind
  exact ⟨entry, List.mem_of_find?_eq_some hfind, by simpa using hname, hkey⟩

/-- The registry of a plain schema has plain keys. -/
theorem isPlain_key? {schema : Schema} {registry : Registry} {fullName key : String}
    (hregistry : ofSchema settings package schema = .ok registry)
    (hplain : schema.isPlain = true) (hkey : registry.key? fullName = some key) :
    Name.isPlain key = true := by
  rcases exists_entry_of_key? hkey with ⟨entry, hentry, -, rfl⟩
  rw [ofSchema_eq_ok_iff.mp hregistry] at hentry
  exact Schema.isPlain_key hplain hentry

end Registry

/-- With legal settings, what a plain schema declares can be named. -/
theorem Site.canName_of_isPlain {site : Site} {schema : Schema} {fullName : String}
    (hregistry : Registry.ofSchema site.settings package schema = .ok site.registry)
    (hplain : schema.isPlain = true) (hseparator : isFragment site.settings.separator = true)
    (hsuffix : isFragment site.settings.collisionSuffix = true)
    (hregistered : site.registry.isRegistered fullName = true) : site.CanName fullName := by
  rcases Option.isSome_iff_exists.mp hregistered with ⟨key, hkey⟩
  have hkeyPlain := Registry.isPlain_key? hregistry hplain hkey
  exact ⟨hsuffix, key, hkey, fun role => isIdentifier_casing hkeyPlain hseparator⟩

end ElmBinding
