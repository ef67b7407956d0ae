import ElmBinding.Proofs.Module.Slots
import Mathlib.Data.List.Nodup
import Mathlib.Data.List.Perm.Basic

/-!
# Leaders of slots

A slot of a message is led by a field: one outside of oneofs, or the first member of a oneof.
The leaders stand in the order of declaration.  They tell which oneofs have a choice, namely
those that are declared and have members, and where the fields of the message go: those in
declared oneofs to the choices, the others to the record itself.

Main results:

- Definition {lit}`Message.leaders`: the fields that lead the slots of a message.
- Definition {lit}`Message.Tidy`: messages whose synthetic oneofs have one member each.
- Theorem {lit}`Message.slots_eq`: the slots of a message are those of its leaders.
- Theorem {lit}`Message.choices_perm`: which oneofs have a choice.
- Theorem {lit}`Message.Tidy.placedFields_perm`: in a tidy message every field has a place.
-/

namespace ElmBinding

/-! ## Leaders -/

/-- The fields that are the first of their oneof, behind some earlier fields, or in none. -/
def leadersAfter (earlier : List Field) : List Field → List Field
  | [] => []
  | field :: rest =>
      if field.oneof ≠ none ∧ ∃ other ∈ earlier, other.oneof = field.oneof then
        leadersAfter (earlier ++ [field]) rest
      else
        field :: leadersAfter (earlier ++ [field]) rest

/-- Distinct items that matter alike for a search give the same results in some order. -/
theorem Sequence.filterMap_perm_of_mem_iff {α β : Type} {f : α → Option β} {items items' : List α}
    (hitems : items.Nodup) (hitems' : items'.Nodup)
    (hmem : ∀ a, (f a).isSome = true → (a ∈ items ↔ a ∈ items')) :
    (items.filterMap f).Perm (items'.filterMap f) := by
  have hfilter : ∀ list : List α,
      list.filterMap f = (list.filter fun a => (f a).isSome).filterMap f := by
    intro list
    rw [List.filterMap_filter]
    apply List.filterMap_congr
    intro a _
    cases f a <;> rfl
  rw [hfilter items, hfilter items']
  apply List.Perm.filterMap
  apply (List.perm_ext_iff_of_nodup (hitems.filter _) (hitems'.filter _)).mpr
  intro a
  rw [List.mem_filter, List.mem_filter]
  exact and_congr_left (hmem a)

namespace Message

/-- The fields that are outside of oneofs or the first of their oneof, in declaration order. -/
def leaders (message : Message) : List Field :=
  leadersAfter [] message.fields

/-- The indices of the oneofs that have members, in the order of their first members. -/
def openings (message : Message) : List Nat :=
  message.leaders.filterMap Field.oneof

/-- The oneof that a field is in. -/
def oneofOf? (message : Message) (field : Field) : Option Oneof :=
  field.oneof.bind fun index => message.oneofs[index]?

/-- Whether a field is in a synthetic oneof. -/
def isOptional (message : Message) (field : Field) : Bool :=
  (message.oneofOf? field).any Oneof.synthetic

/-- The declared oneof at an index, with its members. -/
def choiceAt? (message : Message) (index : Nat) : Option (Oneof × List Field) :=
  ((message.oneofs[index]?).filter fun oneof => !oneof.synthetic).map fun oneof =>
    (oneof, message.members index)

/-- The declared oneof that a field is in, with its members. -/
def choiceOf? (message : Message) (field : Field) : Option (Oneof × List Field) :=
  field.oneof.bind message.choiceAt?

/-- The leaders that are in no declared oneof. -/
def ownFields (message : Message) : List Field :=
  message.leaders.filter fun field => (message.choiceOf? field).isNone

/-- The declared oneofs of the leaders, with their members. -/
def choices (message : Message) : List (Oneof × List Field) :=
  message.leaders.filterMap message.choiceOf?

/-- The fields that have a place: leaders without a declared oneof, and members of one. -/
def placedFields (message : Message) : List Field :=
  message.ownFields ++ message.choices.flatMap Prod.snd

/-- The declared oneofs of a message that have members. -/
def declaredChoices (message : Message) : List (Oneof × List Field) :=
  ((List.range message.oneofs.length).filterMap message.choiceAt?).filter fun choice =>
    !choice.2.isEmpty

/-- The slot that a field leads. -/
def slotOf (message : Message) (field : Field) : Slot :=
  match field.oneof with
  | none => .plain field
  | some index => message.oneofSlot field index

/-- A message in which every synthetic oneof stands for one field, which is not repeated. -/
structure Tidy (message : Message) : Prop where
  inRange : ∀ field ∈ message.fields, ∀ index, field.oneof = some index →
    index < message.oneofs.length
  single : ∀ field ∈ message.fields, field.oneof ≠ none → field.cardinality = .optional
  alone : ∀ index oneof, message.oneofs[index]? = some oneof → oneof.synthetic = true →
    (message.members index).length = 1

end Message

/-- Leaders are among the fields. -/
theorem leadersAfter_sublist (earlier fields : List Field) :
    (leadersAfter earlier fields).Sublist fields := by
  induction fields generalizing earlier with
  | nil => exact List.Sublist.refl []
  | cons field rest ih =>
      unfold leadersAfter
      split
      · exact (ih _).cons field
      · exact (ih _).cons_cons field

/-- The oneofs of leaders are those of the fields, less those of earlier fields. -/
theorem mem_oneof_leadersAfter_iff {index : Nat} {earlier fields : List Field} :
    index ∈ (leadersAfter earlier fields).filterMap Field.oneof ↔
      (∃ field ∈ fields, field.oneof = some index) ∧
        ∀ other ∈ earlier, other.oneof ≠ some index := by
  induction fields generalizing earlier with
  | nil => simp [leadersAfter]
  | cons field rest ih =>
      simp only [leadersAfter, List.exists_mem_cons_iff]
      split
      · rename_i hbehind
        rw [ih, List.forall_mem_append, List.forall_mem_singleton]
        grind
      · rename_i hleads
        rw [List.filterMap_cons]
        cases hfield : field.oneof with
        | none =>
            simp only
            rw [ih, List.forall_mem_append, List.forall_mem_singleton, hfield]
            simp
        | some opened =>
            simp only [List.mem_cons]
            rw [ih, List.forall_mem_append, List.forall_mem_singleton, hfield]
            grind

/-- No two leaders are in one oneof. -/
theorem oneof_leadersAfter_nodup (earlier fields : List Field) :
    ((leadersAfter earlier fields).filterMap Field.oneof).Nodup := by
  induction fields generalizing earlier with
  | nil => exact List.nodup_nil
  | cons field rest ih =>
      unfold leadersAfter
      split
      · exact ih _
      · rw [List.filterMap_cons]
        cases hfield : field.oneof with
        | none => exact ih _
        | some opened =>
            refine List.nodup_cons.mpr ⟨?_, ih _⟩
            rw [mem_oneof_leadersAfter_iff]
            rintro ⟨-, hnew⟩
            exact hnew field (by simp) hfield

namespace Message

variable {message : Message}

/-! ## Slots -/

/-- The slots that fields open are those of their leaders. -/
theorem slotsFrom_eq {opened : List Nat} {earlier : List Field} (fields : List Field)
    (hopened : ∀ index, index ∈ opened ↔ ∃ other ∈ earlier, other.oneof = some index) :
    message.slotsFrom opened fields = (leadersAfter earlier fields).map message.slotOf := by
  induction fields generalizing opened earlier with
  | nil => rfl
  | cons field rest ih =>
      unfold slotsFrom leadersAfter
      cases hfield : field.oneof with
      | none =>
          have hearlier : ∀ index, index ∈ opened ↔
              ∃ other ∈ earlier ++ [field], other.oneof = some index := by
            intro index
            rw [hopened]
            simp [or_and_right, exists_or, hfield]
          simp [slotOf, hfield, ih hearlier]
      | some index =>
          by_cases hmem : index ∈ opened
          · have hearlier : ∀ other, other ∈ opened ↔
                ∃ field' ∈ earlier ++ [field], field'.oneof = some other := by
              intro other
              rw [hopened]
              grind
            have hbehind := (hopened index).mp hmem
            simp [hmem, hbehind, ih hearlier]
          · have hearlier : ∀ other, other ∈ index :: opened ↔
                ∃ field' ∈ earlier ++ [field], field'.oneof = some other := by
              intro other
              rw [List.mem_cons, hopened]
              grind
            have hleads : ¬∃ other ∈ earlier, other.oneof = some index :=
              fun hbehind => hmem ((hopened index).mpr hbehind)
            simp [hmem, hleads, ih hearlier, slotOf, hfield]

/-- The slots of a message are those of its leaders. -/
theorem slots_eq (message : Message) : message.slots = message.leaders.map message.slotOf :=
  slotsFrom_eq message.fields (by simp)

/-! ## Choices -/

/-- A field is among the members at an index if it is a field with that index. -/
theorem mem_members_iff {field : Field} {index : Nat} :
    field ∈ message.members index ↔ field ∈ message.fields ∧ field.oneof = some index := by
  simp [members]

/-- No oneof has two first members. -/
theorem openings_nodup (message : Message) : message.openings.Nodup :=
  oneof_leadersAfter_nodup [] message.fields

/-- The oneofs with a first member are those with members. -/
theorem mem_openings_iff {index : Nat} :
    index ∈ message.openings ↔ ∃ field, field ∈ message.members index := by
  rw [openings, leaders, mem_oneof_leadersAfter_iff]
  simp [mem_members_iff]

/-- The choices of a message are those of the oneofs with members. -/
theorem choices_eq (message : Message) :
    message.choices = message.openings.filterMap message.choiceAt? := by
  rw [choices, openings, List.filterMap_filterMap]
  rfl

/-- A choice comes with the members at its index, which the message has an oneof at. -/
theorem eq_of_choiceAt? {index : Nat} {choice : Oneof × List Field}
    (h : message.choiceAt? index = some choice) :
    message.oneofs[index]? = some choice.1 ∧ choice.1.synthetic = false ∧
      choice.2 = message.members index := by
  rcases Option.map_eq_some_iff.mp h with ⟨oneof, honeof, rfl⟩
  rcases Option.filter_eq_some_iff.mp honeof with ⟨hat, hdeclared⟩
  exact ⟨hat, by simpa using hdeclared, rfl⟩

/-- A declared oneof with members is a oneof of the message. -/
theorem mem_declaredChoices {choice : Oneof × List Field}
    (h : choice ∈ message.declaredChoices) :
    ∃ index : Nat, message.oneofs[index]? = some choice.1 := by
  rcases List.mem_filterMap.mp (List.mem_filter.mp h).1 with ⟨index, -, hchoice⟩
  exact ⟨index, (eq_of_choiceAt? hchoice).1⟩

/-- The declared oneofs with members have one choice each. -/
theorem choices_perm (message : Message) : message.choices.Perm message.declaredChoices := by
  rw [declaredChoices, List.filter_filterMap]
  have hchoices : message.choices = message.openings.filterMap fun index =>
      (message.choiceAt? index).filter fun choice => !choice.2.isEmpty := by
    rw [choices_eq]
    apply List.filterMap_congr
    intro index hindex
    rcases mem_openings_iff.mp hindex with ⟨field, hfield⟩
    cases hchoice : message.choiceAt? index with
    | none => rfl
    | some choice =>
        have hmembers := (eq_of_choiceAt? hchoice).2.2
        simp [Option.filter, hmembers, List.ne_nil_of_mem hfield]
  rw [hchoices]
  apply Sequence.filterMap_perm_of_mem_iff message.openings_nodup List.nodup_range
  intro index hsome
  rcases Option.isSome_iff_exists.mp hsome with ⟨choice, hfilter⟩
  rcases Option.filter_eq_some_iff.mp hfilter with ⟨hchoice, hmembers⟩
  rcases eq_of_choiceAt? hchoice with ⟨hat, -, heq⟩
  rw [heq] at hmembers
  rw [mem_openings_iff, List.mem_range]
  have hlength := (List.getElem?_eq_some_iff.mp hat).1
  have hexists := List.exists_mem_of_ne_nil (message.members index) (by simpa using hmembers)
  exact iff_of_true hexists hlength

/-! ## Tidy messages -/

/-- In a tidy message, a oneof with two members is a declared one. -/
theorem Tidy.isSome_choiceAt? {index : Nat} (htidy : message.Tidy)
    (hlength : 2 ≤ (message.members index).length) : (message.choiceAt? index).isSome = true := by
  rcases List.exists_mem_of_length_pos (Nat.lt_of_lt_of_le Nat.zero_lt_two hlength) with
    ⟨field, hfield⟩
  rcases mem_members_iff.mp hfield with ⟨hmem, hindex⟩
  have hlt : index < message.oneofs.length := htidy.inRange field hmem index hindex
  cases hat : message.oneofs[index]? with
  | none => exact absurd hlt (Nat.not_lt.mpr (List.getElem?_eq_none_iff.mp hat))
  | some oneof =>
      have hdeclared : oneof.synthetic = false := by
        by_contra hsynthetic
        have hsingle := htidy.alone index oneof hat (by simpa using hsynthetic)
        omega
      simp [choiceAt?, hat, hdeclared]

/-- In a tidy message, a field behind another member of its oneof is in a declared one. -/
theorem Tidy.isSome_choiceOf? (htidy : message.Tidy) {earlier rest : List Field} {field : Field}
    (hfields : message.fields = earlier ++ field :: rest) (hsome : field.oneof ≠ none)
    (hbehind : ∃ other ∈ earlier, other.oneof = field.oneof) :
    (message.choiceOf? field).isSome = true := by
  rcases Option.ne_none_iff_exists'.mp hsome with ⟨index, hindex⟩
  rcases hbehind with ⟨other, hother, heq⟩
  have hmembers : message.members index = (earlier.filter fun field =>
      field.oneof = some index) ++ field :: rest.filter fun field => field.oneof = some index := by
    simp [members, hfields, hindex]
  have hbefore := List.length_pos_of_mem
    (List.mem_filter.mpr ⟨hother, by simpa [hindex] using heq⟩ :
      other ∈ earlier.filter fun field => field.oneof = some index)
  rw [choiceOf?, hindex, Option.bind_some]
  apply htidy.isSome_choiceAt?
  rw [hmembers, List.length_append, List.length_cons]
  omega

/-- In a tidy message, all fields without a declared oneof lead a slot. -/
theorem Tidy.ownFields_eq (htidy : message.Tidy) :
    message.ownFields = message.fields.filter fun field => (message.choiceOf? field).isNone := by
  have hrest : ∀ rest earlier, message.fields = earlier ++ rest →
      (leadersAfter earlier rest).filter (fun field => (message.choiceOf? field).isNone) =
        rest.filter fun field => (message.choiceOf? field).isNone := by
    intro rest
    induction rest with
    | nil =>
        intro earlier _
        rfl
    | cons field rest ih =>
        intro earlier hfields
        have hnext := ih (earlier ++ [field]) (by simp [hfields])
        unfold leadersAfter
        split
        · rename_i hbehind
          have hplaced := htidy.isSome_choiceOf? hfields hbehind.1 hbehind.2
          rw [hnext, List.filter_cons_of_neg (by simp [Option.isNone_eq_false_iff.mpr hplaced])]
        · rw [List.filter_cons, List.filter_cons, hnext]
  exact hrest message.fields [] rfl

/-- How often a field occurs among the members of oneofs with distinct indices. -/
theorem count_flatMap_members {indices : List Nat} (hindices : indices.Nodup) (field : Field) :
    (indices.flatMap message.members).count field =
      if ∃ index ∈ indices, field.oneof = some index then message.fields.count field else 0 := by
  induction indices with
  | nil => simp
  | cons index rest ih =>
      rcases List.nodup_cons.mp hindices with ⟨hnew, hrest⟩
      rw [List.flatMap_cons, List.count_append, ih hrest]
      by_cases hindex : field.oneof = some index
      · have hcount : (message.members index).count field = message.fields.count field :=
          List.count_filter (by simpa using hindex)
        have hother : ¬∃ other ∈ rest, field.oneof = some other := by
          rintro ⟨other, hother, heq⟩
          rw [hindex, Option.some.injEq] at heq
          exact hnew (heq ▸ hother)
        rw [hcount, if_neg hother, if_pos ⟨index, List.mem_cons_self, hindex⟩, Nat.add_zero]
      · have hcount : (message.members index).count field = 0 :=
          List.count_eq_zero.mpr fun hmem => hindex (mem_members_iff.mp hmem).2
        simp [hcount, hindex]

/-- The members of oneofs with distinct indices are the fields in one of these oneofs. -/
theorem flatMap_members_perm {indices : List Nat} (hindices : indices.Nodup) {inOne : Field → Bool}
    (hone : ∀ field ∈ message.fields,
      inOne field = true ↔ ∃ index ∈ indices, field.oneof = some index) :
    (indices.flatMap message.members).Perm (message.fields.filter inOne) := by
  apply List.perm_iff_count.mpr
  intro field
  rw [count_flatMap_members hindices]
  by_cases hfield : field ∈ message.fields
  · split
    · rename_i hindex
      rw [List.count_filter ((hone field hfield).mpr hindex)]
    · rename_i hnone
      symm
      rw [List.count_eq_zero]
      intro hmem
      exact hnone ((hone field hfield).mp (List.mem_filter.mp hmem).2)
  · have hcount : message.fields.count field = 0 := List.count_eq_zero.mpr hfield
    have hfilter : (message.fields.filter inOne).count field = 0 :=
      List.count_eq_zero.mpr fun hmem => hfield (List.mem_filter.mp hmem).1
    rw [hcount, hfilter, ite_self]

/-- The fields of choices are the members at the indices of declared oneofs. -/
theorem choiceFields_eq (message : Message) :
    message.choices.flatMap Prod.snd =
      (message.openings.filter fun index => (message.choiceAt? index).isSome).flatMap
        message.members := by
  rw [choices_eq]
  induction message.openings with
  | nil => rfl
  | cons index rest ih =>
      cases hchoice : message.choiceAt? index with
      | none => simp [hchoice, ih]
      | some choice => simp [hchoice, ih, (eq_of_choiceAt? hchoice).2.2]

/-- A field of a message is in a declared oneof if that has a first member. -/
theorem isSome_choiceOf?_iff {field : Field} (hfield : field ∈ message.fields) :
    (message.choiceOf? field).isSome = true ↔
      ∃ index ∈ message.openings.filter fun index => (message.choiceAt? index).isSome,
        field.oneof = some index := by
  rw [choiceOf?]
  constructor
  · intro hsome
    rcases Option.isSome_iff_exists.mp hsome with ⟨choice, hchoice⟩
    rcases Option.bind_eq_some_iff.mp hchoice with ⟨index, hindex, hat⟩
    have hopening := mem_openings_iff.mpr ⟨field, mem_members_iff.mpr ⟨hfield, hindex⟩⟩
    exact ⟨index, List.mem_filter.mpr ⟨hopening, by simp [hat]⟩, hindex⟩
  · rintro ⟨index, hmem, hindex⟩
    rw [hindex, Option.bind_some]
    exact (List.mem_filter.mp hmem).2

/-- The fields of choices are the fields that are in declared oneofs. -/
theorem choiceFields_perm (message : Message) :
    (message.choices.flatMap Prod.snd).Perm
      (message.fields.filter fun field => !(message.choiceOf? field).isNone) := by
  rw [choiceFields_eq]
  refine flatMap_members_perm (message.openings_nodup.filter _) fun field hfield => ?_
  rw [← isSome_choiceOf?_iff hfield, ← Option.not_isSome, Bool.not_not]

/-- In a tidy message every field has a place. -/
theorem Tidy.placedFields_perm (htidy : message.Tidy) :
    message.placedFields.Perm message.fields := by
  rw [placedFields, htidy.ownFields_eq]
  exact (message.choiceFields_perm.append_left _).trans (List.filter_append_perm _ _)

end Message
end ElmBinding
