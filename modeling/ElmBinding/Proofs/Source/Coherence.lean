import ElmBinding.Proofs.Schema.Resolution
import ElmBinding.Proofs.Source.Names

/-!
# Coherence of source texts

A source text makes up a coherent schema.  While the body of a message is read, the message
keeps its name and is pending: its declarations stand in its scope, its oneofs are declared
ones, every entry of a map stands beside its field, and the messages inside it are settled.  At
the end of the body the synthetic oneofs settle the message.

Main results:

- Definition {lit}`Message.Pending`: the invariant of messages whose body is read.
- Theorem {lit}`Message.Pending.settled_self`: synthetic oneofs settle a pending message.
- Theorem {lit}`Source.pending_nestingInvariant`: declarations keep messages pending.
- Theorem {lit}`Source.settled_of_unlinkedSchema`: the schema that a text declares is settled.
- Theorem {lit}`Source.coherent_of_schemaOfText`: the linked schema of a text is coherent.
- Theorem {lit}`Source.resolvedTo_of_texts`: what linking makes of the schemas of several texts.
-/

namespace ElmBinding

open Source

/-! ## Messages that are read -/

/-- A message whose body is read, with the name of its head and settled messages inside. -/
structure Message.Pending (origin : Origin) (head message : Message) : Prop extends
    message.Scoped, message.Open where
  name : message.name = head.name
  fullName : message.fullName = head.fullName
  plain : message.mapEntry = false
  newer : ∀ field ∈ message.fields, field.tracksPresence = true → origin.dialect = .proto3
  entries : message.OwnsEntries (homeReference origin.package)
  groups : message.OwnsGroups (homeReference origin.package)
  settled : ∀ nested ∈ families message.messages, nested.Settled origin.dialect origin.package

namespace Message.Pending

variable {origin : Origin} {head message : Message}

/-! ### The end of a body -/

/-- Synthetic oneofs stand in the scope of the message as well. -/
theorem scoped_self (h : Pending origin head message) : message.withSyntheticOneofs.Scoped where
  fields := by
    intro field hfield
    rcases mem_attachOneofs hfield with ⟨hold, -⟩ | ⟨old, hold, -, index, -, -, rfl⟩
    · exact h.fields field hold
    · exact h.fields old hold
  oneofs := by
    intro oneof honeof
    rcases List.mem_append.mp honeof with hold | hnew
    · exact h.oneofs oneof hold
    · rcases List.mem_map.mp hnew with ⟨field, -, rfl⟩
      rfl
  messages := h.messages
  enums := h.enums

/-- A oneof with the number of a synthetic one is synthetic. -/
theorem exists_synthetic {index : Nat} (hge : message.oneofs.length ≤ index)
    (hlt : index < message.oneofs.length +
      (message.fields.filter Field.tracksPresence).length) :
    ∃ oneof, message.withSyntheticOneofs.oneofs[index]? = some oneof ∧ oneof.synthetic = true := by
  have hless : index - message.oneofs.length <
      (message.fields.filter Field.tracksPresence).length := by omega
  simp only [withSyntheticOneofs]
  rw [List.getElem?_append_right hge, List.getElem?_map, List.getElem?_eq_getElem hless]
  exact ⟨_, rfl, rfl⟩

/-- A field behind the move tracks its presence exactly if its oneof is synthetic. -/
theorem tracked_iff (h : Pending origin head message) {field : Field}
    (hfield : field ∈ message.withSyntheticOneofs.fields) :
    field.tracksPresence = true ↔ ∃ index oneof, field.oneof = some index ∧
      message.withSyntheticOneofs.oneofs[index]? = some oneof ∧ oneof.synthetic = true := by
  rcases mem_attachOneofs hfield with
    ⟨hold, huntracked⟩ | ⟨old, hold, htracked, index, hge, hlt, rfl⟩
  · rw [huntracked]
    refine ⟨fun htracked => by contradiction, ?_⟩
    rintro ⟨index, oneof, hindex, hat, hsynthetic⟩
    have hless := (h.member field hold index hindex).1
    simp only [withSyntheticOneofs] at hat
    rw [List.getElem?_append_left hless] at hat
    rw [h.declared oneof (List.mem_of_getElem? hat)] at hsynthetic
    contradiction
  · rcases exists_synthetic hge hlt with ⟨oneof, hat, hsynthetic⟩
    exact ⟨fun _ => ⟨index, oneof, rfl, hat, hsynthetic⟩, fun _ => htracked⟩

/-- Synthetic oneofs make a pending message coherent. -/
theorem coherent (h : Pending origin head message) :
    message.withSyntheticOneofs.Coherent origin.dialect where
  toScoped := h.scoped_self
  inRange := h.toOpen.tidy.inRange
  ordered := by
    refine ⟨_, _, rfl, h.declared, ?_⟩
    intro oneof honeof
    rcases List.mem_map.mp honeof with ⟨field, -, rfl⟩
    rfl
  alone := by
    intro index oneof hat hsynthetic
    rcases h.members_synthetic hat hsynthetic with ⟨field, hmembers, rfl⟩
    exact ⟨field, hmembers, rfl⟩
  single := by
    intro index oneof _ _ field hfield
    rcases List.mem_filter.mp hfield with ⟨hmem, hindex⟩
    have hsome : field.oneof ≠ none := by
      rw [of_decide_eq_true hindex]
      exact Option.some_ne_none index
    exact h.toOpen.tidy.single field hmem hsome
  tracked := fun _ hfield => h.tracked_iff hfield
  older := by
    intro hdialect
    have huntracked : ∀ field ∈ message.fields, field.tracksPresence = false := by
      intro field hfield
      by_contra htracked
      have hnewer := h.newer field hfield (by simpa using htracked)
      rw [hdialect] at hnewer
      contradiction
    constructor
    · intro field hfield
      rcases mem_attachOneofs hfield with ⟨-, h⟩ | ⟨old, hold, htracked, -⟩
      · exact h
      · rw [huntracked old hold] at htracked
        contradiction
    · intro oneof honeof
      rcases List.mem_append.mp honeof with hold | hnew
      · exact h.declared oneof hold
      · rcases List.mem_map.mp hnew with ⟨field, hfield, -⟩
        rcases List.mem_filter.mp hfield with ⟨hmem, htracked⟩
        rw [huntracked field hmem] at htracked
        contradiction

/-- Synthetic oneofs settle a pending message. -/
theorem settled_self (h : Pending origin head message) :
    message.withSyntheticOneofs.Settled origin.dialect origin.package where
  coherent := h.coherent
  entries := by
    intro nested hnested hentry
    rcases h.entries nested hnested hentry with ⟨hholds, field, hfield, hrepeated, hkind⟩
    have hread := List.mem_map_of_mem hfield (f := fun field => (field.cardinality, field.kind))
    rw [← map_attachOneofs (fun _ _ => rfl) message.oneofs.length] at hread
    rcases List.mem_map.mp hread with ⟨moved, hmoved, heq⟩
    rcases Prod.mk.inj heq with ⟨hcardinality, hsame⟩
    exact ⟨hholds, moved, hmoved, hcardinality.trans hrepeated, hsame.trans hkind⟩
  groups := by
    intro field hfield target htarget
    rcases mem_attachOneofs hfield with ⟨hold, -⟩ | ⟨old, hold, -, index, -, -, rfl⟩
    · exact h.groups field hold target htarget
    · exact h.groups old hold target htarget

/-- At the end of a body the message is settled, and so are the messages inside it. -/
theorem family_settled (h : Pending origin head message) :
    ∀ nested ∈ message.withSyntheticOneofs.family,
      nested.Settled origin.dialect origin.package := by
  intro nested hnested
  rw [Message.family_eq] at hnested
  rcases List.mem_cons.mp hnested with rfl | hnested
  · exact h.settled_self
  · exact h.settled nested hnested

/-! ### Steps of a body -/

/-- A field in the scope of the message keeps the message pending. -/
theorem addField (h : Pending origin head message) {field : Field}
    (hfullName : field.fullName = qualify message.fullName field.name)
    (hplain : field.oneof = none)
    (htracked : field.tracksPresence = true →
      field.cardinality = .optional ∧ origin.dialect = .proto3)
    (hgroup : ∀ target, field.kind = .group target →
      ∃ nested ∈ message.messages, target = homeReference origin.package nested.fullName) :
    Pending origin head (message.addField field) where
  toScoped := by
    refine ⟨?_, h.oneofs, h.messages, h.enums⟩
    exact List.forall_mem_append.mpr ⟨h.fields, List.forall_mem_singleton.mpr hfullName⟩
  toOpen := h.toOpen.addField hplain fun htracks => (htracked htracks).1
  name := h.name
  fullName := h.fullName
  plain := h.plain
  newer := by
    refine List.forall_mem_append.mpr ⟨h.newer, List.forall_mem_singleton.mpr ?_⟩
    exact fun htracks => (htracked htracks).2
  entries := by
    intro nested hnested hentry
    rcases h.entries nested hnested hentry with ⟨hholds, other, hother, hrefers⟩
    exact ⟨hholds, other, List.mem_append_left _ hother, hrefers⟩
  groups := List.forall_mem_append.mpr ⟨h.groups, List.forall_mem_singleton.mpr hgroup⟩
  settled := h.settled

/-- A settled message in the scope of the message keeps the message pending. -/
theorem addMessage (h : Pending origin head message) {nested : Message}
    (hfullName : nested.fullName = qualify message.fullName nested.name)
    (hentry : nested.mapEntry = true → nested.IsEntry ∧ ∃ field ∈ message.fields,
      field.cardinality = .repeated ∧
        field.kind = .message (homeReference origin.package nested.fullName))
    (htidy : ∀ inner ∈ nested.family, inner.Tidy)
    (hsettled : ∀ inner ∈ nested.family, inner.Settled origin.dialect origin.package) :
    Pending origin head (message.addMessage nested) where
  toScoped := by
    refine ⟨h.fields, h.oneofs, ?_, h.enums⟩
    exact List.forall_mem_append.mpr ⟨h.messages, List.forall_mem_singleton.mpr hfullName⟩
  toOpen := h.toOpen.addMessage htidy
  name := h.name
  fullName := h.fullName
  plain := h.plain
  newer := h.newer
  entries := List.forall_mem_append.mpr ⟨h.entries, List.forall_mem_singleton.mpr hentry⟩
  groups := by
    intro field hfield target htarget
    rcases h.groups field hfield target htarget with ⟨other, hother, hrefers⟩
    exact ⟨other, List.mem_append_left _ hother, hrefers⟩
  settled := by
    intro inner hinner
    rcases mem_families_addMessage.mp hinner with hold | hnew
    · exact h.settled inner hold
    · exact hsettled inner hnew

/-- A message that is read inside the message keeps the message pending. -/
theorem addRead (h : Pending origin head message) {start nested : Message}
    (hnested : Pending origin start nested)
    (hstart : start.fullName = qualify message.fullName start.name) :
    Pending origin head (message.addMessage nested.withSyntheticOneofs) := by
  apply h.addMessage _ _ hnested.toOpen.family_tidy hnested.family_settled
  · have hname : nested.fullName = qualify message.fullName nested.name := by
      rw [hnested.fullName, hnested.name, hstart]
    exact hname
  · intro hentry
    have hplain : nested.withSyntheticOneofs.mapEntry = false := hnested.plain
    rw [hplain] at hentry
    contradiction

/-- An enumeration in the scope of the message keeps the message pending. -/
theorem addEnum (h : Pending origin head message) {enumeration : Enumeration}
    (hstands : enumeration.StandsIn message.fullName) :
    Pending origin head (message.addEnum enumeration) where
  toScoped := by
    refine ⟨h.fields, h.oneofs, h.messages, ?_⟩
    exact List.forall_mem_append.mpr ⟨h.enums, List.forall_mem_singleton.mpr hstands⟩
  toOpen := h.toOpen.addEnum enumeration
  name := h.name
  fullName := h.fullName
  plain := h.plain
  newer := h.newer
  entries := h.entries
  groups := h.groups
  settled := h.settled

/-- A message without anything inside is pending. -/
theorem of_head (origin : Origin) (name fullName : String) (comments : Comments) :
    Pending origin { name, fullName, comments } { name, fullName, comments } where
  toScoped := by constructor <;> simp
  toOpen := by constructor <;> simp
  name := rfl
  fullName := rfl
  plain := rfl
  newer := by simp
  entries := by simp [OwnsEntries]
  groups := by simp [OwnsGroups]
  settled := by simp

end Message.Pending

/-! ## Declarations -/

namespace Source

open Grammar

variable {origin : Origin} {scope : String} {head message after : Message} {node : Node Rule}

/-- A field of a text stands in its scope and outside of oneofs, and its type is no group. -/
theorem field_fieldOf {field : Field} (h : fieldOf origin scope node = .ok field) :
    field.fullName = qualify scope field.name ∧
      (field.tracksPresence = true → origin.dialect = .proto3) ∧
      ∀ target, field.kind ≠ .group target := by
  rcases bind_eq_ok_iff.mp h with ⟨number, -, hfield⟩
  rw [← Except.ok.inj hfield]
  refine ⟨rfl, ?_, kindIn_ne_group node⟩
  intro htracks
  simpa using (Bool.and_eq_true_iff.mp htracks).2

/-- The entry of a map field is settled. -/
theorem settled_entryMessage (dialect : Dialect) (package name : String) (key : Scalar)
    {value : FieldKind} (hvalue : ∀ target, value ≠ .group target) :
    (entryMessage scope name key value).Settled dialect package where
  coherent := by
    constructor <;> simp [entryMessage]
    constructor <;> simp
  entries := by simp [entryMessage, Message.OwnsEntries]
  groups := by simp [entryMessage, Message.OwnsGroups, hvalue]

/-- A map field and its entry keep a message pending. -/
theorem mapField_pending (hpending : Message.Pending origin head message) {field : Field}
    {entry : Message} (h : mapFieldOf origin message.fullName node = .ok (field, entry)) :
    Message.Pending origin head ((message.addMessage entry).addField field) := by
  rcases bind_eq_ok_iff.mp h with ⟨number, -, hmade⟩
  rcases Prod.mk.inj (Except.ok.inj hmade) with ⟨hfield, hentry⟩
  have hextended : Message.Pending origin head (message.addField field) := by
    rw [← hfield]
    exact hpending.addField rfl rfl (fun htracks => by contradiction)
      (fun _ heq => by contradiction)
  have halone : ∀ inner ∈ entry.family, inner = entry := by
    intro inner hinner
    rw [← hentry, Message.family_eq, entryMessage, families_nil, List.mem_singleton] at hinner
    rw [hinner, ← hentry, entryMessage]
  -- The field and its entry may come in either order, and the entry needs the field.
  have hkept : Message.Pending origin head ((message.addField field).addMessage entry) := by
    apply hextended.addMessage
    · rw [← hentry]
      rfl
    · intro _
      refine ⟨?_, field, List.mem_append_right _ List.mem_cons_self, ?_, ?_⟩
      · rw [← hentry]
        exact ⟨_, _, _, rfl, rfl, rfl, rfl, rfl, rfl⟩
      · rw [← hfield]
      · rw [← hfield, ← hentry]
        rfl
    · rw [← hentry]
      apply family_tidy_of_plain _ rfl rfl
      simp [entryMessage]
    · intro inner hinner
      rw [halone inner hinner, ← hentry]
      exact settled_entryMessage _ _ _ _ (kindIn_ne_group node)
  exact hkept

/-- A oneof of a text keeps a message pending. -/
theorem declareOneof_pending (hpending : Message.Pending origin head message)
    (h : declareOneof origin message node = .ok after) : Message.Pending origin head after := by
  have hopen := declareOneof_open hpending.toOpen h
  rcases bind_eq_ok_iff.mp h with ⟨fields, hfields, hafter⟩
  obtain rfl := Except.ok.inj hafter
  have hmember : ∀ member ∈ fields.map (memberOf message.oneofs.length), ∃ field,
      member = memberOf message.oneofs.length field ∧
        field.fullName = qualify message.fullName field.name ∧
        ∀ target, field.kind ≠ .group target := by
    intro member hmember
    rcases List.mem_map.mp hmember with ⟨field, hfield, rfl⟩
    rcases exists_of_forall₂_of_mem (forall₂_of_mapM hfields) hfield with ⟨inner, -, hmade⟩
    rcases field_fieldOf hmade with ⟨hfullName, -, hgroup⟩
    exact ⟨field, rfl, hfullName, hgroup⟩
  refine ⟨⟨?_, ?_, hpending.messages, hpending.enums⟩, hopen, hpending.name, hpending.fullName,
    hpending.plain, ?_, ?_, ?_, hpending.settled⟩
  · refine List.forall_mem_append.mpr ⟨hpending.fields, ?_⟩
    intro member hmem
    rcases hmember member hmem with ⟨field, rfl, hfullName, -⟩
    exact hfullName
  · exact List.forall_mem_append.mpr ⟨hpending.oneofs, List.forall_mem_singleton.mpr rfl⟩
  · refine List.forall_mem_append.mpr ⟨hpending.newer, ?_⟩
    intro member hmem htracks
    rcases hmember member hmem with ⟨field, rfl, -, -⟩
    contradiction
  · intro nested hnested hentry
    rcases hpending.entries nested hnested hentry with ⟨hholds, field, hfield, hrefers⟩
    exact ⟨hholds, field, List.mem_append_left _ hfield, hrefers⟩
  · refine List.forall_mem_append.mpr ⟨hpending.groups, ?_⟩
    intro member hmem target htarget
    rcases hmember member hmem with ⟨field, rfl, -, hgroup⟩
    exact absurd htarget (hgroup target)

/-- An enumeration of a text stands in its scope. -/
theorem standsIn_enumOf {enumeration : Enumeration}
    (h : enumOf origin scope node = .ok enumeration) : enumeration.StandsIn scope := by
  rcases bind_eq_ok_iff.mp h with ⟨values, hvalues, henumeration⟩
  rw [← Except.ok.inj henumeration]
  refine ⟨rfl, ?_⟩
  intro value hvalue
  rcases exists_of_forall₂_of_mem (forall₂_of_mapM hvalues) hvalue with ⟨inner, -, hmade⟩
  simp only [enumValueOf] at hmade
  split at hmade
  · rw [← Except.ok.inj hmade]
  · contradiction

/-- Every declaration in the body of a message keeps the message pending. -/
theorem pending_nestingInvariant (origin : Origin) :
    NestingInvariant origin (fun _ => True) (Message.Pending origin) where
  messageHead := fun _ _ => .of_head _ _ _ _
  groupHead := fun _ _ => .of_head _ _ _ _
  field := by
    intro head message node field hpending _ h
    rcases field_fieldOf h with ⟨hfullName, hnewer, hgroup⟩
    rcases oneof_fieldOf h with ⟨hplain, htracked⟩
    exact hpending.addField hfullName hplain (fun htracks => ⟨htracked htracks, hnewer htracks⟩)
      fun target htarget => absurd htarget (hgroup target)
  mapField := fun hpending _ h => mapField_pending hpending h
  group := by
    intro head message node field group hpending _ h hgroup
    rcases bind_eq_ok_iff.mp h with ⟨number, -, hmade⟩
    obtain rfl := Except.ok.inj hmade
    apply (hpending.addRead hgroup rfl).addField rfl rfl (fun htracks => by contradiction)
    intro target htarget
    have hname : group.withSyntheticOneofs.fullName =
        qualify message.fullName (node.childString .groupName) := hgroup.fullName
    refine ⟨_, List.mem_append_right _ List.mem_cons_self, ?_⟩
    rw [hname]
    exact (FieldKind.group.inj htarget).symm
  oneof := fun hpending _ h => declareOneof_pending hpending h
  enumeration := fun hpending _ h => hpending.addEnum (standsIn_enumOf h)
  message := fun hpending hnested => hpending.addRead hnested rfl

/-- Reading a body keeps a message pending. -/
theorem declareAll_pending {nodes : List (Node Rule)}
    (hpending : Message.Pending origin head message)
    (h : declareAll origin message nodes = .ok after) : Message.Pending origin head after :=
  (pending_nestingInvariant origin).declareAll (everywhere_of_forall (fun _ => trivial) nodes)
    hpending h

/-! ## Schemas -/

/-- A schema of a file whose declarations are settled. -/
structure SettledIn (origin : Origin) (schema : Schema) : Prop extends schema.Settled where
  dialect : schema.dialect = origin.dialect
  package : schema.packageName = origin.package

/-- A definition keeps a schema settled. -/
theorem define_settled {schema extended : Schema} (hsettled : SettledIn origin schema)
    (h : define origin schema node = .ok extended) : SettledIn origin extended := by
  have hpackage := hsettled.package
  unfold define at h
  split at h
  · rcases bind_eq_ok_iff.mp h with ⟨message, hmessage, hextended⟩
    rcases map_eq_ok_iff.mp hmessage with ⟨body, hbody, rfl⟩
    obtain rfl := Except.ok.inj hextended
    have hread : Message.Pending origin (messageHead origin origin.package node) body :=
      declareAll_pending (.of_head _ _ _ _) hbody
    refine ⟨⟨⟨?_, hsettled.enums, hsettled.services⟩, ?_⟩, hsettled.dialect, hpackage⟩
    · refine List.forall_mem_append.mpr ⟨hsettled.messages, List.forall_mem_singleton.mpr ?_⟩
      have hname : body.fullName = qualify origin.package body.name := by
        rw [hread.fullName, hread.name]
        rfl
      rw [← hpackage] at hname
      exact ⟨hname, hread.plain⟩
    · intro inner hinner
      rcases mem_families_concat.mp hinner with hold | hnew
      · exact hsettled.inner inner hold
      · have hfamily := hread.family_settled inner hnew
        rw [← hsettled.dialect, ← hpackage] at hfamily
        exact hfamily
  · rcases bind_eq_ok_iff.mp h with ⟨enumeration, henumeration, hextended⟩
    obtain rfl := Except.ok.inj hextended
    have hstands := standsIn_enumOf henumeration
    rw [← hpackage] at hstands
    refine ⟨⟨⟨hsettled.messages, ?_, hsettled.services⟩, hsettled.inner⟩, hsettled.dialect,
      hpackage⟩
    exact List.forall_mem_append.mpr ⟨hsettled.enums, List.forall_mem_singleton.mpr hstands⟩
  · obtain rfl := Except.ok.inj h
    have hstands : (serviceOf origin node).StandsIn origin.package := by
      refine ⟨rfl, ?_⟩
      intro method hmethod
      rcases List.mem_map.mp hmethod with ⟨inner, -, rfl⟩
      rfl
    rw [← hpackage] at hstands
    refine ⟨⟨⟨hsettled.messages, hsettled.enums, ?_⟩, hsettled.inner⟩, hsettled.dialect, hpackage⟩
    exact List.forall_mem_append.mpr ⟨hsettled.services, List.forall_mem_singleton.mpr hstands⟩
  · rw [← Except.ok.inj h]
    exact hsettled

/-- The schema that a text declares is settled. -/
theorem settled_of_unlinkedSchema {fileName : Option String} {source : List Char}
    {schema : Schema} (h : unlinkedSchema fileName source = .ok schema) : schema.Settled := by
  unfold unlinkedSchema at h
  split at h
  · simp only [schemaOf] at h
    refine (foldlM_preserves (SettledIn _)
      (fun _ _ _ _ hsettled hstep => define_settled hsettled hstep) ?_ h).toSettled
    exact ⟨⟨⟨by simp, by simp, by simp⟩, by simp [Schema.allMessages]⟩, rfl, rfl⟩
  · contradiction

/-- The schema of a text, with its references linked, is coherent. -/
theorem coherent_of_schemaOfText {source : String} {schema : Schema}
    (h : schemaOfText source = .ok schema) : schema.Coherent := by
  unfold schemaOfText schemaOfChars at h
  rcases bind_eq_ok_iff.mp h with ⟨unlinked, hunlinked, hlinked⟩
  rcases bind_eq_ok_iff.mp hlinked with ⟨table, htable, hschema⟩
  rcases symbolTable_eq_ok_iff.mp htable with ⟨rfl, hdistinct⟩
  apply (settled_of_unlinkedSchema hunlinked).coherent hdistinct _ hschema
  rw [List.flatMap_singleton]
  exact fun _ hsymbol => hsymbol

/-- A text with fields of every sort, in a message that holds a group and an enumeration. -/
def fieldsOfEverySort : String :=
  "syntax = \"proto3\"; package a; message M \x7boptional int32 r = 1; map<string, E> b = 2; " ++
  "oneof y \x7bint32 t = 3;\x7d enum E \x7bX = 0;\x7d repeated group P = 5 \x7bE e = 1;\x7d\x7d"

/-- The text makes up a schema, which is coherent. -/
theorem coherent_fieldsOfEverySort :
    ∃ schema, schemaOfText fieldsOfEverySort = .ok schema ∧ schema.Coherent := by
  have hread : (schemaOfText fieldsOfEverySort).toOption.isSome = true := by decide +kernel
  cases hschema : schemaOfText fieldsOfEverySort with
  | error error => simp [hschema, Except.toOption] at hread
  | ok schema => exact ⟨schema, rfl, coherent_of_schemaOfText hschema⟩

/--
The schemas of several texts that are linked together declare every full name once.  Each field
and method refers to exactly one type that they declare, by the full name that its written name
stands for, and nothing but references has changed.
-/
theorem resolvedTo_of_texts {schemas linked : List Schema}
    (hread : ∀ schema ∈ schemas, ∃ fileName source, unlinkedSchema fileName source = .ok schema)
    (h : link schemas = .ok linked) :
    (linked.flatMap Schema.declaredNames).Nodup ∧
      List.Forall₂ (Schema.ResolvedTo (linked.flatMap Schema.types)) schemas linked := by
  apply resolvedTo_of_link _ h
  intro schema hschema
  rcases hread schema hschema with ⟨fileName, source, hmade⟩
  exact settled_of_unlinkedSchema hmade

/-- A text with a group and an enumeration, which refers to another one. -/
def firstOfTwoTexts : String :=
  "package a; enum E \x7bX = 0;\x7d message M \x7boptional E e = 1; " ++
  "optional group G = 2 \x7boptional b.N n = 1;\x7d\x7d"

/-- A text with a service for two packages. -/
def secondOfTwoTexts : String :=
  "package b; message N \x7brequired .a.M.G g = 1;\x7d " ++
  "service S \x7brpc R (a.M) returns (N);\x7d"

/-- The two texts are linked together. -/
theorem resolvedTo_firstOfTwoTexts :
    ∃ first second linked, unlinkedSchema none firstOfTwoTexts.toList = .ok first ∧
      unlinkedSchema none secondOfTwoTexts.toList = .ok second ∧ link [first, second] = .ok linked ∧
      (linked.flatMap Schema.declaredNames).Nodup ∧
      List.Forall₂ (Schema.ResolvedTo (linked.flatMap Schema.types)) [first, second] linked := by
  have hlinks : (do
      let first ← unlinkedSchema none firstOfTwoTexts.toList
      let second ← unlinkedSchema none secondOfTwoTexts.toList
      link [first, second]).toOption.isSome = true := by
    decide +kernel
  cases hfirst : unlinkedSchema none firstOfTwoTexts.toList with
  | error error => simp [hfirst, bind, Except.bind, Except.toOption] at hlinks
  | ok first => ?_
  cases hsecond : unlinkedSchema none secondOfTwoTexts.toList with
  | error error => simp [hfirst, hsecond, bind, Except.bind, Except.toOption] at hlinks
  | ok second => ?_
  cases hlink : link [first, second] with
  | error error => simp [hfirst, hsecond, hlink, bind, Except.bind, Except.toOption] at hlinks
  | ok linked => ?_
  refine ⟨first, second, linked, rfl, rfl, hlink, resolvedTo_of_texts ?_ hlink⟩
  intro schema hschema
  rcases List.mem_cons.mp hschema with rfl | hschema
  · exact ⟨none, _, hfirst⟩
  · rw [List.mem_singleton.mp hschema]
    exact ⟨none, _, hsecond⟩

end Source
end ElmBinding
