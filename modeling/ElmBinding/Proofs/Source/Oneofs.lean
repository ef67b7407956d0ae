import ElmBinding.Proofs.Module.Leaders
import ElmBinding.Proofs.Sequence.Pairing
import ElmBinding.Proofs.Source.Bodies
import ElmBinding.Source.Schemas

/-!
# Oneofs of source texts

The messages that a source text declares are tidy.  While the body of a message is read, its
oneofs are declared ones and their members are no `optional` fields.  At the end of the body
every `optional` field moves into a synthetic oneof of its own.

Main results:

- Definition {lit}`Message.Open`: the invariant of messages whose body is read.
- Theorem {lit}`Message.Open.tidy`: synthetic oneofs make an open message tidy.
- Theorem {lit}`Source.declareAll_open`: reading a body keeps a message open.
- Theorem {lit}`Source.tidy_of_schemaOfText`: the messages of a text are tidy.
-/

namespace ElmBinding

/-! ## Synthetic oneofs -/

/-- Fields that move into oneofs move to numbers above the old ones. -/
theorem filter_attachOneofs_eq_nil {next index : Nat} {fields : List Field} (hlt : index < next)
    (hold : ∀ field ∈ fields, field.tracksPresence = false → field.oneof ≠ some index) :
    (attachOneofs next fields).filter (fun field => field.oneof = some index) = [] := by
  induction fields generalizing next with
  | nil => rfl
  | cons field rest ih =>
      rcases List.forall_mem_cons.mp hold with ⟨hfield, hrest⟩
      unfold attachOneofs
      split
      · have hne : next ≠ index := by omega
        simp [hne, ih (Nat.lt_succ_of_lt hlt) hrest]
      · rename_i htracks
        have hne := hfield (by simpa using htracks)
        simp [hne, ih hlt hrest]

/-- One field moves to each of the new numbers, the fields in their order. -/
theorem filter_attachOneofs_eq_singleton {next place : Nat} {fields : List Field} {field : Field}
    (hat : (fields.filter Field.tracksPresence)[place]? = some field)
    (hold : ∀ other ∈ fields, other.tracksPresence = false →
      ∀ index, other.oneof = some index → index < next) :
    (attachOneofs next fields).filter (fun other => other.oneof = some (next + place)) =
      [{ field with oneof := some (next + place) }] := by
  induction fields generalizing next place with
  | nil => simp at hat
  | cons head rest ih =>
      rcases List.forall_mem_cons.mp hold with ⟨hhead, hrest⟩
      unfold attachOneofs
      split
      · rename_i htracks
        rw [List.filter_cons_of_pos htracks] at hat
        cases place with
        | zero =>
            obtain rfl : head = field := by simpa using hat
            have hnone := filter_attachOneofs_eq_nil (Nat.lt_succ_self next)
              fun other hother huntracked heq =>
                Nat.lt_irrefl next (hrest other hother huntracked next heq)
            simp [hnone]
        | succ place =>
            have hrest' : ∀ other ∈ rest, other.tracksPresence = false →
                ∀ index, other.oneof = some index → index < next + 1 :=
              fun other hmem huntracked index heq =>
                Nat.lt_succ_of_lt (hrest other hmem huntracked index heq)
            have hfound := @ih (next + 1) place (by simpa using hat) hrest'
            rw [Nat.add_right_comm, Nat.add_assoc] at hfound
            simpa using hfound
      · rename_i htracks
        rw [List.filter_cons_of_neg htracks] at hat
        have hne : head.oneof ≠ some (next + place) := by
          intro heq
          have := hhead (by simpa using htracks) _ heq
          omega
        simp [hne, ih hat hrest]

/-- A field behind the move is an old one, or one that has moved to a new number. -/
theorem mem_attachOneofs {next : Nat} {fields : List Field} {field : Field}
    (h : field ∈ attachOneofs next fields) :
    (field ∈ fields ∧ field.tracksPresence = false) ∨
      ∃ old ∈ fields, old.tracksPresence = true ∧ ∃ index, next ≤ index ∧
        index < next + (fields.filter Field.tracksPresence).length ∧
        field = { old with oneof := some index } := by
  induction fields generalizing next with
  | nil => contradiction
  | cons head rest ih =>
      unfold attachOneofs at h
      split at h
      · rename_i htracks
        rw [List.filter_cons_of_pos htracks, List.length_cons]
        rcases List.mem_cons.mp h with rfl | h
        · exact Or.inr ⟨head, List.mem_cons_self, htracks, next, by omega, by omega, rfl⟩
        · rcases ih h with ⟨hold, huntracked⟩ | ⟨old, hold, htracked, index, hge, hlt, rfl⟩
          · exact Or.inl ⟨List.mem_cons_of_mem _ hold, huntracked⟩
          · exact Or.inr
              ⟨old, List.mem_cons_of_mem _ hold, htracked, index, by omega, by omega, rfl⟩
      · rename_i htracks
        rw [List.filter_cons_of_neg htracks]
        rcases List.mem_cons.mp h with rfl | h
        · exact Or.inl ⟨List.mem_cons_self, by simpa using htracks⟩
        · rcases ih h with ⟨hold, huntracked⟩ | ⟨old, hold, htracked, index, hge, hlt, rfl⟩
          · exact Or.inl ⟨List.mem_cons_of_mem _ hold, huntracked⟩
          · exact Or.inr ⟨old, List.mem_cons_of_mem _ hold, htracked, index, hge, hlt, rfl⟩

/-- What is read of fields without looking at their oneofs stays the same. -/
theorem map_attachOneofs {α : Type} {read : Field → α}
    (hread : ∀ field oneof, read { field with oneof } = read field) (next : Nat)
    (fields : List Field) : (attachOneofs next fields).map read = fields.map read := by
  induction fields generalizing next with
  | nil => rfl
  | cons field rest ih =>
      unfold attachOneofs
      split
      · rw [List.map_cons, List.map_cons, hread, ih]
      · rw [List.map_cons, List.map_cons, ih]

/-- A schema whose messages are tidy, at every depth. -/
def Schema.Tidy (schema : Schema) : Prop :=
  ∀ message ∈ schema.allMessages, message.Tidy

namespace Message

variable {message : Message}

/-- A message whose body is read: without synthetic oneofs, and with tidy messages inside. -/
structure Open (message : Message) : Prop where
  declared : ∀ oneof ∈ message.oneofs, oneof.synthetic = false
  member : ∀ field ∈ message.fields, ∀ index, field.oneof = some index →
    index < message.oneofs.length ∧ field.cardinality = .optional ∧ field.tracksPresence = false
  tracked : ∀ field ∈ message.fields, field.tracksPresence = true → field.cardinality = .optional
  inner : ∀ nested ∈ families message.messages, nested.Tidy

/-- A synthetic oneof has one member, after which it is named. -/
theorem Open.members_synthetic (hopen : message.Open) {index : Nat} {oneof : Oneof}
    (hat : message.withSyntheticOneofs.oneofs[index]? = some oneof)
    (hsynthetic : oneof.synthetic = true) :
    ∃ field, message.withSyntheticOneofs.members index = [field] ∧
      oneof = syntheticOneof message.fullName field := by
  simp only [withSyntheticOneofs] at hat
  rcases Nat.lt_or_ge index message.oneofs.length with hless | hge
  · rw [List.getElem?_append_left hless] at hat
    have hdeclared := hopen.declared oneof (List.mem_of_getElem? hat)
    rw [hsynthetic] at hdeclared
    contradiction
  · rw [List.getElem?_append_right hge, List.getElem?_map] at hat
    rcases Option.map_eq_some_iff.mp hat with ⟨field, hfield, rfl⟩
    have hmembers := filter_attachOneofs_eq_singleton hfield fun other hother _ place hplace =>
      (hopen.member other hother place hplace).1
    rw [Nat.add_sub_cancel' hge] at hmembers
    exact ⟨_, hmembers, rfl⟩

/-- Synthetic oneofs make an open message tidy. -/
theorem Open.tidy (hopen : message.Open) : message.withSyntheticOneofs.Tidy where
  inRange := by
    intro field hfield index hindex
    simp only [withSyntheticOneofs, List.length_append, List.length_map]
    rcases mem_attachOneofs hfield with ⟨hold, -⟩ | ⟨old, -, -, place, -, hlt, rfl⟩
    · have := (hopen.member field hold index hindex).1
      omega
    · rw [Option.some.injEq] at hindex
      omega
  single := by
    intro field hfield hsome
    rcases mem_attachOneofs hfield with ⟨hold, -⟩ | ⟨old, hold, htracked, place, -, -, rfl⟩
    · rcases Option.ne_none_iff_exists'.mp hsome with ⟨index, hindex⟩
      exact (hopen.member field hold index hindex).2.1
    · exact hopen.tracked old hold htracked
  alone := by
    intro index oneof hat hsynthetic
    rcases hopen.members_synthetic hat hsynthetic with ⟨field, hmembers, -⟩
    exact congrArg List.length hmembers

/-- A message with synthetic oneofs is tidy, and so are the messages inside it. -/
theorem Open.family_tidy (hopen : message.Open) :
    ∀ nested ∈ message.withSyntheticOneofs.family, nested.Tidy := by
  intro nested hnested
  rw [family_eq] at hnested
  rcases List.mem_cons.mp hnested with rfl | hnested
  · exact hopen.tidy
  · exact hopen.inner nested hnested

/-- A field outside of oneofs keeps a message open. -/
theorem Open.addField (hopen : message.Open) {field : Field} (hplain : field.oneof = none)
    (htracked : field.tracksPresence = true → field.cardinality = .optional) :
    (message.addField field).Open where
  declared := hopen.declared
  member := by
    intro other hother index hindex
    rcases List.mem_append.mp hother with hold | hnew
    · exact hopen.member other hold index hindex
    · rw [List.mem_singleton.mp hnew, hplain] at hindex
      contradiction
  tracked := by
    intro other hother
    rcases List.mem_append.mp hother with hold | hnew
    · exact hopen.tracked other hold
    · rw [List.mem_singleton.mp hnew]
      exact htracked
  inner := hopen.inner

/-- A tidy message inside keeps a message open. -/
theorem Open.addMessage (hopen : message.Open) {nested : Message}
    (htidy : ∀ inner ∈ nested.family, inner.Tidy) : (message.addMessage nested).Open where
  declared := hopen.declared
  member := hopen.member
  tracked := hopen.tracked
  inner := by
    intro inner hinner
    rcases mem_families_addMessage.mp hinner with hold | hnew
    · exact hopen.inner inner hold
    · exact htidy inner hnew

/-- An enumeration inside keeps a message open. -/
theorem Open.addEnum (hopen : message.Open) (enumeration : Enumeration) :
    (message.addEnum enumeration).Open :=
  ⟨hopen.declared, hopen.member, hopen.tracked, hopen.inner⟩

end Message

/-! ## Bodies of messages -/

namespace Source

open Grammar

variable {origin : Origin} {scope : String} {message after : Message} {node : Node Rule}

/-- A message of which only the head is read is open. -/
theorem open_messageHead (origin : Origin) (scope : String) (node : Node Rule) :
    (messageHead origin scope node).Open := by
  constructor <;> simp [messageHead]

/-- The message of a group of which only the head is read is open. -/
theorem open_groupHead (scope : String) (node : Node Rule) : (groupHead scope node).Open := by
  constructor <;> simp [groupHead]

/-- A field of a text is outside of oneofs, and optional if it tracks its presence. -/
theorem oneof_fieldOf {field : Field} (h : fieldOf origin scope node = .ok field) :
    field.oneof = none ∧ (field.tracksPresence = true → field.cardinality = .optional) := by
  rcases bind_eq_ok_iff.mp h with ⟨number, -, hfield⟩
  rw [← Except.ok.inj hfield]
  refine ⟨rfl, ?_⟩
  intro htracks
  have hmodifier : node.childString .fieldModifier = "optional" := by
    simpa using (Bool.and_eq_true_iff.mp htracks).1
  simp only [hmodifier]
  decide

/-- A message without oneofs and without messages inside is tidy with all its family. -/
theorem family_tidy_of_plain {entry : Message}
    (hplain : ∀ field ∈ entry.fields, field.oneof = none) (honeofs : entry.oneofs = [])
    (hinner : entry.messages = []) : ∀ nested ∈ entry.family, nested.Tidy := by
  intro nested hnested
  rw [Message.family_eq, hinner, families_nil, List.mem_singleton] at hnested
  subst hnested
  constructor
  · intro field hfield index hindex
    rw [hplain field hfield] at hindex
    contradiction
  · intro field hfield hsome
    exact absurd (hplain field hfield) hsome
  · intro index oneof hat
    simp [honeofs] at hat

/-- A map field and its entry keep a message open. -/
theorem mapField_open (hopen : message.Open) {field : Field} {entry : Message}
    (h : mapFieldOf origin message.fullName node = .ok (field, entry)) :
    ((message.addMessage entry).addField field).Open := by
  rcases bind_eq_ok_iff.mp h with ⟨number, -, hmade⟩
  rcases Prod.mk.inj (Except.ok.inj hmade) with ⟨rfl, rfl⟩
  apply Message.Open.addField _ rfl (fun htracks => by contradiction)
  apply hopen.addMessage
  apply family_tidy_of_plain _ rfl rfl
  simp [entryMessage]

/-- A oneof of a text keeps a message open. -/
theorem declareOneof_open (hopen : message.Open)
    (h : declareOneof origin message node = .ok after) : after.Open := by
  rcases bind_eq_ok_iff.mp h with ⟨fields, -, hafter⟩
  rw [← Except.ok.inj hafter]
  constructor
  · intro oneof honeof
    rcases List.mem_append.mp honeof with hold | hnew
    · exact hopen.declared oneof hold
    · rw [List.mem_singleton.mp hnew]
  · intro field hfield index hindex
    rw [List.length_append, List.length_singleton]
    rcases List.mem_append.mp hfield with hold | hnew
    · rcases hopen.member field hold index hindex with ⟨hlt, hsingle, huntracked⟩
      exact ⟨by omega, hsingle, huntracked⟩
    · rcases List.mem_map.mp hnew with ⟨member, -, rfl⟩
      rw [memberOf, Option.some.injEq] at hindex
      exact ⟨by omega, rfl, rfl⟩
  · intro field hfield htracks
    rcases List.mem_append.mp hfield with hold | hnew
    · exact hopen.tracked field hold htracks
    · rcases List.mem_map.mp hnew with ⟨member, -, rfl⟩
      rfl
  · exact hopen.inner

/-- Every declaration in the body of a message keeps the message open. -/
theorem open_bodyInvariant (origin : Origin) :
    BodyInvariant origin (fun _ => True) Message.Open where
  messageHead := fun _ _ => open_messageHead _ _ _
  groupHead := fun _ _ => open_groupHead _ _
  field := by
    intro message node field hopen _ h
    rcases oneof_fieldOf h with ⟨hplain, htracked⟩
    exact hopen.addField hplain htracked
  mapField := fun hopen _ h => mapField_open hopen h
  group := by
    intro message node field group hopen _ h hgroup
    rcases bind_eq_ok_iff.mp h with ⟨number, -, hmade⟩
    rw [← Except.ok.inj hmade]
    apply Message.Open.addField _ rfl (fun htracks => by contradiction)
    exact hopen.addMessage hgroup.family_tidy
  oneof := fun hopen _ h => declareOneof_open hopen h
  enumeration := fun hopen _ _ => hopen.addEnum _
  message := fun hopen hnested => hopen.addMessage hnested.family_tidy

/-- Reading the body of a message keeps the message open. -/
theorem declareAll_open {nodes : List (Node Rule)} (hopen : message.Open)
    (h : declareAll origin message nodes = .ok after) : after.Open :=
  (open_bodyInvariant origin).declareAll (everywhere_of_forall (fun _ => trivial) nodes) hopen h

/-! ## Schemas -/

/-- A definition keeps a schema tidy. -/
theorem define_tidy {schema extended : Schema} (htidy : schema.Tidy)
    (h : define origin schema node = .ok extended) : extended.Tidy := by
  unfold define at h
  split at h
  · rcases bind_eq_ok_iff.mp h with ⟨message, hmessage, hextended⟩
    rcases map_eq_ok_iff.mp hmessage with ⟨body, hbody, rfl⟩
    rw [← Except.ok.inj hextended]
    intro nested hnested
    rcases mem_families_concat.mp hnested with hold | hnew
    · exact htidy nested hold
    · exact (declareAll_open (open_messageHead _ _ _) hbody).family_tidy nested hnew
  · rcases bind_eq_ok_iff.mp h with ⟨enumeration, -, hextended⟩
    rw [← Except.ok.inj hextended]
    exact htidy
  · rw [← Except.ok.inj h]
    exact htidy
  · rw [← Except.ok.inj h]
    exact htidy

/-- The schema that a text declares is tidy. -/
theorem tidy_of_unlinkedSchema {fileName : Option String} {source : List Char} {schema : Schema}
    (h : unlinkedSchema fileName source = .ok schema) : schema.Tidy := by
  unfold unlinkedSchema at h
  split at h
  · unfold schemaOf at h
    refine foldlM_preserves Schema.Tidy (fun _ _ _ _ htidy hstep => define_tidy htidy hstep) ?_ h
    intro message hmessage
    simp [Schema.allMessages] at hmessage
  · contradiction

end Source

/-! ## Linked schemas -/

/-- Linking keeps a message tidy. -/
theorem Message.Linked.tidy {table : List Symbol} {message linked : Message}
    (hlinked : message.Linked table linked) (htidy : message.Tidy) : linked.Tidy where
  inRange := by
    intro other hother index hindex
    rcases exists_of_forall₂_of_mem hlinked.fields hother with ⟨field, hfield, hlink⟩
    rw [(eq_of_linkField hlink).1] at hindex
    rw [hlinked.oneofs]
    exact htidy.inRange field hfield index hindex
  single := by
    intro other hother hsome
    rcases exists_of_forall₂_of_mem hlinked.fields hother with ⟨field, hfield, hlink⟩
    rw [(eq_of_linkField hlink).1] at hsome
    rw [(eq_of_linkField hlink).2]
    exact htidy.single field hfield hsome
  alone := by
    intro index oneof hat hsynthetic
    rw [hlinked.oneofs] at hat
    rw [← htidy.alone index oneof hat hsynthetic]
    refine (List.rel_filter ?_ hlinked.fields).length_eq.symm
    intro field other hlink
    simp [(eq_of_linkField hlink).1]

/-- Linking keeps a schema tidy. -/
theorem Schema.Tidy.link {table : List Symbol} {schema linked : Schema} (htidy : schema.Tidy)
    (h : linkSchema table schema = .ok linked) : linked.Tidy := by
  rcases linkSchema_eq_ok_iff.mp h with ⟨messages, services, hmessages, -, rfl⟩
  intro other hother
  rcases exists_of_forall₂_of_mem (forall₂_linkMessages hmessages) hother with
    ⟨message, hmessage, hlinked⟩
  exact hlinked.tidy (htidy message hmessage)

/-- The linked schema of a text is tidy. -/
theorem Source.tidy_of_schemaOfText {source : String} {schema : Schema}
    (h : schemaOfText source = .ok schema) : schema.Tidy := by
  unfold schemaOfText schemaOfChars at h
  rcases bind_eq_ok_iff.mp h with ⟨unlinked, hunlinked, hlinked⟩
  rcases bind_eq_ok_iff.mp hlinked with ⟨table, -, hschema⟩
  exact (tidy_of_unlinkedSchema hunlinked).link hschema

/-- The linked schemas of several files are tidy. -/
theorem Source.tidy_of_schemasOfFiles {tree : SourceTree} {paths : List String}
    {schemas : List Schema} (h : schemasOfFiles tree paths = .ok schemas) :
    ∀ schema ∈ schemas, schema.Tidy := by
  rcases bind_eq_ok_iff.mp h with ⟨unlinked, hunlinked, hlink⟩
  rcases bind_eq_ok_iff.mp hlink with ⟨table, -, hlinked⟩
  intro schema hschema
  rcases exists_of_forall₂_of_mem (forall₂_of_mapM hlinked) hschema with ⟨other, hother, hmade⟩
  rcases exists_of_forall₂_of_mem (forall₂_of_mapM hunlinked) hother with ⟨path, -, hread⟩
  unfold unlinkedSchemaAt at hread
  split at hread
  · exact (tidy_of_unlinkedSchema hread).link hmade
  · contradiction

end ElmBinding
