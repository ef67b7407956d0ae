import ElmBinding.Proofs.Schema.Linking
import ElmBinding.Proofs.Sequence.Pairing
import ElmBinding.Proofs.Sequence.Sorting

/-!
# Coherent schemas

In a coherent schema every declaration is named in the scope where it stands.  The oneofs of a
message are the declared ones and then the synthetic ones.  A field is in a synthetic oneof
exactly if it is an `optional` field of the newer dialect, and then it is the only one there.
The entry message of a map holds a key and a value and stands beside the repeated field that
refers to it.

Main results:

- Definition {lit}`Message.Coherent`: names and oneofs of a message.
- Definition {lit}`Message.OwnsEntries`: the entries of the maps of a message.
- Definition {lit}`Schema.Coherent`: schemas that are coherent at every depth.
- Definition {lit}`Schema.Settled`: the same of schemas whose references are as written.
- Theorem {lit}`Schema.Settled.coherent`: linking makes a settled schema coherent.
-/

namespace ElmBinding

/-! ## Declarations in their scopes -/

/-- An enumeration that stands in a scope, where its values stand as well. -/
structure Enumeration.StandsIn (scope : String) (enumeration : Enumeration) : Prop where
  fullName : enumeration.fullName = qualify scope enumeration.name
  values : ∀ value ∈ enumeration.values, value.fullName = qualify scope value.name

/-- A service that stands in a scope, with its methods. -/
structure Service.StandsIn (scope : String) (service : Service) : Prop where
  fullName : service.fullName = qualify scope service.name
  methods : ∀ method ∈ service.methods, method.fullName = qualify service.fullName method.name

/-- A message in whose scope its own declarations stand. -/
structure Message.Scoped (message : Message) : Prop where
  fields : ∀ field ∈ message.fields, field.fullName = qualify message.fullName field.name
  oneofs : ∀ oneof ∈ message.oneofs, oneof.fullName = qualify message.fullName oneof.name
  messages : ∀ nested ∈ message.messages, nested.fullName = qualify message.fullName nested.name
  enums : ∀ enumeration ∈ message.enums, enumeration.StandsIn message.fullName

/-- A message whose own declarations stand in its scope and whose oneofs are in order. -/
structure Message.Coherent (dialect : Dialect) (message : Message) : Prop extends
    message.Scoped where
  /-- Fields belong to oneofs that the message has. -/
  inRange : ∀ field ∈ message.fields, ∀ index, field.oneof = some index →
    index < message.oneofs.length
  /-- All declared oneofs come before all synthetic ones. -/
  ordered : ∃ declared synthetic, message.oneofs = declared ++ synthetic ∧
    (∀ oneof ∈ declared, oneof.synthetic = false) ∧ ∀ oneof ∈ synthetic, oneof.synthetic = true
  /-- A synthetic oneof has one member, after which it is named. -/
  alone : ∀ index oneof, message.oneofs[index]? = some oneof → oneof.synthetic = true →
    ∃ field, message.members index = [field] ∧ oneof.name = "_" ++ field.name
  /-- The members of declared oneofs are optional. -/
  single : ∀ index oneof, message.oneofs[index]? = some oneof → oneof.synthetic = false →
    ∀ field ∈ message.members index, field.cardinality = .optional
  /-- The fields that track their presence are the members of synthetic oneofs. -/
  tracked : ∀ field ∈ message.fields, field.tracksPresence = true ↔ ∃ index oneof,
    field.oneof = some index ∧ message.oneofs[index]? = some oneof ∧ oneof.synthetic = true
  /-- In the older dialect there are none. -/
  older : dialect = .proto2 → (∀ field ∈ message.fields, field.tracksPresence = false) ∧
    ∀ oneof ∈ message.oneofs, oneof.synthetic = false

/-- A message with a scalar key, whose number is 1, and a value, whose number is 2. -/
def Message.IsEntry (entry : Message) : Prop :=
  ∃ key value type, entry.fields = [key, value] ∧
    key.name = "key" ∧ key.number = 1 ∧ key.kind = .scalar type ∧
    value.name = "value" ∧ value.number = 2

/--
A message in which every entry of a map holds a key and a value, and in which a repeated field
has the entry as its type, where references to a full name are written in some way.
-/
def Message.OwnsEntries (refer : String → Reference) (message : Message) : Prop :=
  ∀ nested ∈ message.messages, nested.mapEntry = true → nested.IsEntry ∧
    ∃ field ∈ message.fields, field.cardinality = .repeated ∧
      field.kind = .message (refer nested.fullName)

/-- A schema in whose package its own declarations stand, none of which is an entry of a map. -/
structure Schema.Scoped (schema : Schema) : Prop where
  messages : ∀ message ∈ schema.messages,
    message.fullName = qualify schema.packageName message.name ∧ message.mapEntry = false
  enums : ∀ enumeration ∈ schema.enums, enumeration.StandsIn schema.packageName
  services : ∀ service ∈ schema.services, service.StandsIn schema.packageName

/-- A schema that is coherent at every depth. -/
structure Schema.Coherent (schema : Schema) : Prop extends schema.Scoped where
  inner : ∀ message ∈ schema.allMessages, message.Coherent schema.dialect ∧
    message.OwnsEntries fun fullName => ⟨fullName, schema.packageName⟩

/-! ## Drafts -/

/-- How a declaration refers to a message that it brings along itself. -/
def homeReference (package fullName : String) : Reference :=
  ⟨"." ++ fullName, package⟩

/-- A message in which every group refers to a message inside. -/
def Message.OwnsGroups (refer : String → Reference) (message : Message) : Prop :=
  ∀ field ∈ message.fields, ∀ target, field.kind = .group target →
    ∃ nested ∈ message.messages, target = refer nested.fullName

/-- A coherent message whose references are as written. -/
structure Message.Settled (dialect : Dialect) (package : String) (message : Message) : Prop where
  coherent : message.Coherent dialect
  entries : message.OwnsEntries (homeReference package)
  groups : message.OwnsGroups (homeReference package)

/-- A schema that is coherent at every depth and whose references are as written. -/
structure Schema.Settled (schema : Schema) : Prop extends schema.Scoped where
  inner : ∀ message ∈ schema.allMessages, message.Settled schema.dialect schema.packageName

/-! ## Linking -/

variable {table : List Symbol} {dialect : Dialect} {package : String}

/-- A linked field is the field that it was but for its kind. -/
theorem exists_kind_of_linkField {scope : String} {field linked : Field}
    (h : linkField table scope field = .ok linked) : ∃ kind, linked = { field with kind } := by
  rcases map_eq_ok_iff.mp h with ⟨kind, -, rfl⟩
  exact ⟨kind, rfl⟩

namespace Message

variable {message linked : Message}

/-- Linked messages have the names that they had, and stay entries of maps. -/
theorem eq_of_linkMessage (h : linkMessage table message = .ok linked) :
    linked.name = message.name ∧ linked.fullName = message.fullName ∧
      linked.mapEntry = message.mapEntry := by
  rcases linkMessage_eq_ok_iff.mp h with ⟨fields, inner, -, -, rfl⟩
  exact ⟨rfl, rfl, rfl⟩

/-- The members of a oneof in a linked message are linked. -/
theorem forall₂_members {fields : List Field} (index : Nat)
    (h : List.Forall₂ (fun field other => linkField table message.fullName field = .ok other)
      message.fields fields) :
    List.Forall₂ (fun field other => ∃ kind, other = { field with kind })
      (message.members index) (({ message with fields } : Message).members index) := by
  apply List.rel_filter _ (h.imp fun _ _ => exists_kind_of_linkField)
  rintro field _ ⟨kind, rfl⟩
  rfl

/-- Linking keeps declarations in their scopes. -/
theorem Scoped.link (hscoped : message.Scoped) (h : linkMessage table message = .ok linked) :
    linked.Scoped := by
  rcases linkMessage_eq_ok_iff.mp h with ⟨fields, inner, hfields, hinner, rfl⟩
  rw [linkMessages_eq_mapM] at hinner
  refine ⟨?_, hscoped.oneofs, ?_, hscoped.enums⟩
  · intro other hother
    rcases exists_of_forall₂_of_mem (forall₂_of_mapM hfields) hother with ⟨field, hfield, hlink⟩
    rcases exists_kind_of_linkField hlink with ⟨kind, rfl⟩
    exact hscoped.fields field hfield
  · intro other hother
    rcases exists_of_forall₂_of_mem (forall₂_of_mapM hinner) hother with ⟨nested, hnested, hlink⟩
    rcases eq_of_linkMessage hlink with ⟨hname, hfullName, -⟩
    rw [hname, hfullName]
    exact hscoped.messages nested hnested

/-- Linking keeps messages coherent. -/
theorem Coherent.link (hcoherent : message.Coherent dialect)
    (h : linkMessage table message = .ok linked) : linked.Coherent dialect := by
  have hscoped := hcoherent.toScoped.link h
  rcases linkMessage_eq_ok_iff.mp h with ⟨fields, inner, hfields, hinner, rfl⟩
  have hlinked := forall₂_of_mapM hfields
  have hold : ∀ other ∈ fields, ∃ field ∈ message.fields, ∃ kind, other = { field with kind } := by
    intro other hother
    rcases exists_of_forall₂_of_mem hlinked hother with ⟨field, hfield, hlink⟩
    exact ⟨field, hfield, exists_kind_of_linkField hlink⟩
  refine ⟨hscoped, ?_, hcoherent.ordered, ?_, ?_, ?_, ?_⟩
  · intro other hother
    rcases hold other hother with ⟨field, hfield, kind, rfl⟩
    exact hcoherent.inRange field hfield
  · intro index oneof hat hsynthetic
    rcases hcoherent.alone index oneof hat hsynthetic with ⟨field, hmembers, hname⟩
    have hpairs := forall₂_members index hlinked
    rw [hmembers] at hpairs
    rcases List.forall₂_cons_left_iff.mp hpairs with ⟨other, rest, ⟨kind, rfl⟩, hrest, hsplit⟩
    rw [List.forall₂_nil_left_iff.mp hrest] at hsplit
    exact ⟨_, hsplit, hname⟩
  · intro index oneof hat hdeclared other hother
    rcases exists_of_forall₂_of_mem (forall₂_members index hlinked) hother with
      ⟨field, hfield, kind, rfl⟩
    exact hcoherent.single index oneof hat hdeclared field hfield
  · intro other hother
    rcases hold other hother with ⟨field, hfield, kind, rfl⟩
    exact hcoherent.tracked field hfield
  · intro hdialect
    rcases hcoherent.older hdialect with ⟨huntracked, hdeclared⟩
    refine ⟨?_, hdeclared⟩
    intro other hother
    rcases hold other hother with ⟨field, hfield, kind, rfl⟩
    exact huntracked field hfield

/-- Linking keeps the key and the value of an entry. -/
theorem IsEntry.link (hentry : message.IsEntry) (h : linkMessage table message = .ok linked) :
    linked.IsEntry := by
  rcases hentry with ⟨key, value, type, hfields, hkey, hkeyNumber, hscalar, hvalue, hvalueNumber⟩
  rcases linkMessage_eq_ok_iff.mp h with ⟨fields, inner, hlinked, -, rfl⟩
  have hpairs := forall₂_of_mapM hlinked
  rw [hfields] at hpairs
  rcases List.forall₂_cons_left_iff.mp hpairs with ⟨key', others, hlinkKey, hothers, heq⟩
  rcases List.forall₂_cons_left_iff.mp hothers with ⟨value', rest, hlinkValue, hrest, hsplit⟩
  rw [hsplit, List.forall₂_nil_left_iff.mp hrest] at heq
  rcases map_eq_ok_iff.mp hlinkKey with ⟨kind, hkind, rfl⟩
  rcases exists_kind_of_linkField hlinkValue with ⟨other, rfl⟩
  rw [hscalar] at hkind
  exact ⟨_, _, type, heq, hkey, hkeyNumber, (Except.ok.inj hkind).symm, hvalue, hvalueNumber⟩

end Message

/-- An absolute name means the symbol that has it. -/
theorem lookup?_absolute (table : List Symbol) (scope fullName : String) :
    lookup? table scope ("." ++ fullName) = findSymbol? table fullName := by
  have hchars : ("." ++ fullName).toList = '.' :: fullName.toList := by
    rw [String.toList_append]
    rfl
  rw [lookup?, hchars]
  simp only [String.ofList_toList]

/-- A symbol among symbols with distinct names is found by its name. -/
theorem findSymbol?_eq_some {symbol : Symbol} (hdistinct : (table.map Symbol.name).Nodup)
    (hmem : symbol ∈ table) : findSymbol? table symbol.name = some symbol :=
  Sequence.find?_eq_some_of_mem hdistinct hmem

/-- An absolute reference to a declared message means that message. -/
theorem linkReference_home {scope fullName : String} (home : String)
    (hdistinct : (table.map Symbol.name).Nodup) (hmem : ⟨fullName, .message, package⟩ ∈ table) :
    linkReference table scope (homeReference home fullName) =
      .ok ⟨fullName, .message, package⟩ := by
  have hfound := findSymbol?_eq_some hdistinct hmem
  rw [linkReference, homeReference, lookupType?, lookup?_absolute, hfound]
  rfl

/-- Linking keeps the entries of maps beside the fields that refer to them. -/
theorem Message.OwnsEntries.link {message linked : Message} {home : String}
    (hentries : message.OwnsEntries (homeReference home))
    (hdistinct : (table.map Symbol.name).Nodup)
    (hmem : ∀ nested ∈ message.messages, ⟨nested.fullName, .message, package⟩ ∈ table)
    (h : linkMessage table message = .ok linked) :
    linked.OwnsEntries fun fullName => ⟨fullName, package⟩ := by
  rcases linkMessage_eq_ok_iff.mp h with ⟨fields, inner, hfields, hinner, rfl⟩
  rw [linkMessages_eq_mapM] at hinner
  intro other hother hmap
  rcases exists_of_forall₂_of_mem (forall₂_of_mapM hinner) hother with ⟨nested, hnested, hlink⟩
  rcases eq_of_linkMessage hlink with ⟨-, hfullName, hentry⟩
  rw [hentry] at hmap
  rcases hentries nested hnested hmap with ⟨hholds, field, hfield, hrepeated, hkind⟩
  refine ⟨hholds.link hlink, ?_⟩
  rcases exists_of_forall₂_of_mem (forall₂_of_mapM hfields).flip hfield with
    ⟨field', hfield', hlinkField⟩
  refine ⟨field', hfield', ?_⟩
  rcases map_eq_ok_iff.mp hlinkField with ⟨kind, hlinkKind, rfl⟩
  refine ⟨hrepeated, ?_⟩
  rw [hkind, linkKind, linkReference_home home hdistinct (hmem nested hnested)] at hlinkKind
  rw [hfullName]
  exact (Except.ok.inj hlinkKind).symm

/-- The messages of a list are among those at every depth. -/
theorem mem_families_self {messages : List Message} {message : Message} (h : message ∈ messages) :
    message ∈ families messages := by
  induction messages with
  | nil => contradiction
  | cons first rest ih =>
      rw [families_cons_eq]
      rcases List.mem_cons.mp h with rfl | h
      · exact List.mem_cons_self
      · exact List.mem_cons_of_mem _ (List.mem_append_right _ (ih h))

/-- The messages inside a message at some depth are at some depth. -/
theorem mem_families_of_mem {messages : List Message} {message nested : Message}
    (hmessage : message ∈ families messages) (hnested : nested ∈ message.messages) :
    nested ∈ families messages := by
  induction messages using forest_induction with
  | nil => contradiction
  | cons first rest ihInner ihRest =>
      rw [families_cons_eq] at hmessage ⊢
      apply List.mem_cons_of_mem
      rcases List.mem_cons.mp hmessage with rfl | hmessage
      · exact List.mem_append_left _ (mem_families_self hnested)
      · rcases List.mem_append.mp hmessage with hmessage | hmessage
        · exact List.mem_append_left _ (ihInner hmessage)
        · exact List.mem_append_right _ (ihRest hmessage)

/-- The messages of a schema are symbols. -/
theorem Schema.messageSymbol_mem {schema : Schema} {message : Message}
    (hmem : message ∈ schema.allMessages) :
    ⟨message.fullName, .message, schema.packageName⟩ ∈ schema.symbols := by
  have hown : ⟨message.fullName, .message, schema.packageName⟩ ∈
      message.ownSymbols schema.packageName :=
    List.mem_cons_self
  unfold Schema.symbols
  apply List.mem_append_left
  exact List.mem_append_right _ (List.mem_flatMap.mpr ⟨message, hmem, hown⟩)

/-- Linking keeps declarations in the package. -/
theorem Schema.Scoped.link {schema linked : Schema} (hscoped : schema.Scoped)
    (h : linkSchema table schema = .ok linked) : linked.Scoped := by
  rcases linkSchema_eq_ok_iff.mp h with ⟨messages, services, hmessages, hservices, rfl⟩
  rw [linkMessages_eq_mapM] at hmessages
  refine ⟨?_, hscoped.enums, ?_⟩
  · intro other hother
    rcases exists_of_forall₂_of_mem (forall₂_of_mapM hmessages) hother with
      ⟨message, hmessage, hlink⟩
    rcases Message.eq_of_linkMessage hlink with ⟨hname, hfullName, hentry⟩
    rw [hname, hfullName, hentry]
    exact hscoped.messages message hmessage
  · intro other hother
    rcases exists_of_forall₂_of_mem (forall₂_of_mapM hservices) hother with
      ⟨service, hservice, hlink⟩
    rcases map_eq_ok_iff.mp hlink with ⟨methods, hmethods, rfl⟩
    have hstands := hscoped.services service hservice
    refine ⟨hstands.fullName, ?_⟩
    intro linkedMethod hlinked
    rcases exists_of_forall₂_of_mem (forall₂_of_mapM hmethods) hlinked with
      ⟨method, hmethod, hmade⟩
    rcases bind_eq_ok_iff.mp hmade with ⟨input, -, hmade⟩
    rcases bind_eq_ok_iff.mp hmade with ⟨output, -, hmade⟩
    rw [← Except.ok.inj hmade]
    exact hstands.methods method hmethod

/-- Linking makes a settled schema coherent. -/
theorem Schema.Settled.coherent {schema linked : Schema} (hsettled : schema.Settled)
    (hdistinct : (table.map Symbol.name).Nodup)
    (hsymbols : ∀ symbol ∈ schema.symbols, symbol ∈ table)
    (h : linkSchema table schema = .ok linked) : linked.Coherent := by
  have hscoped := hsettled.toScoped.link h
  rcases linkSchema_eq_ok_iff.mp h with ⟨messages, services, hmessages, hservices, rfl⟩
  refine { hscoped with inner := ?_ }
  intro other hother
  rcases exists_of_forall₂_of_mem (forall₂_linkMessage hmessages) hother with
    ⟨message, hmessage, hlink⟩
  have hmessageSettled := hsettled.inner message hmessage
  refine ⟨hmessageSettled.coherent.link hlink, ?_⟩
  apply hmessageSettled.entries.link hdistinct _ hlink
  intro nested hnested
  exact hsymbols _ (schema.messageSymbol_mem (mem_families_of_mem hmessage hnested))

end ElmBinding
