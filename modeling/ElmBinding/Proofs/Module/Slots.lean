import ElmBinding.Proofs.Naming.Catalogs
import ElmBinding.Schema.Slots

/-!
# Which oneofs have slots

The slots of a message are for fields outside of oneofs and for oneofs, and a oneof has one
slot at most, however many members it has.  If the names that a message declares are
distinct, then so are those of the choices among its slots.

Main results:

- Definition {lit}`Slot.names`: the names of the choice of a slot.
- Theorem {lit}`Message.mem_slotsFrom`: what a slot is for.
- Theorem {lit}`Message.slots_names_nodup`: no name belongs to two choices.
-/

namespace ElmBinding

/-- The full names of a choice and its members; other slots need none. -/
def Slot.names : Slot → List String
  | .choice oneof members => oneof.fullName :: members.map Field.fullName
  | _ => []

namespace Message

variable {message : Message} {field : Field} {index : Nat} {opened : List Nat}

/-- The names of a slot of a oneof are those that the oneof declares. -/
theorem mem_names_oneofSlot {name : String} (h : name ∈ (message.oneofSlot field index).names) :
    ∃ oneof, message.oneofs[index]? = some oneof ∧ name ∈ message.oneofNames oneof index := by
  unfold oneofSlot at h
  cases honeof : message.oneofs[index]? with
  | none => simp [honeof, Slot.names] at h
  | some oneof =>
      refine ⟨oneof, rfl, ?_⟩
      simp only [honeof] at h
      split at h
      · simp [Slot.names] at h
      · exact h

/-- A slot is for a field of its own, or for a oneof that was not open before. -/
theorem mem_slotsFrom {fields : List Field} {slot : Slot}
    (h : slot ∈ message.slotsFrom opened fields) :
    (∃ field ∈ fields, slot = .plain field) ∨
      ∃ field ∈ fields, ∃ index, field.oneof = some index ∧ index ∉ opened ∧
        slot = message.oneofSlot field index := by
  induction fields generalizing opened with
  | nil => simp [slotsFrom] at h
  | cons field rest ih =>
      have hrest : ∀ {opened' : List Nat}, opened ⊆ opened' →
          slot ∈ message.slotsFrom opened' rest →
          (∃ field' ∈ field :: rest, slot = .plain field') ∨
            ∃ field' ∈ field :: rest, ∃ index, field'.oneof = some index ∧ index ∉ opened ∧
              slot = message.oneofSlot field' index := by
        intro opened' hopened hslot
        rcases ih hslot with ⟨field', hmem, hplain⟩ | ⟨field', hmem, index, hindex, hnew, heq⟩
        · exact Or.inl ⟨field', List.mem_cons_of_mem field hmem, hplain⟩
        · exact Or.inr ⟨field', List.mem_cons_of_mem field hmem, index, hindex,
            fun hold => hnew (hopened hold), heq⟩
      unfold slotsFrom at h
      split at h
      · rcases List.mem_cons.mp h with rfl | h
        · exact Or.inl ⟨field, List.mem_cons_self, rfl⟩
        · exact hrest (List.Subset.refl opened) h
      · rename_i index hindex
        split at h
        · exact hrest (List.Subset.refl opened) h
        · rename_i hnew
          rcases List.mem_cons.mp h with rfl | h
          · exact Or.inr ⟨field, List.mem_cons_self, index, hindex, hnew, rfl⟩
          · exact hrest (List.subset_cons_self index opened) h

/-- The names of slots are those of oneofs that were not open before. -/
theorem mem_names_slotsFrom {fields : List Field} {name : String}
    (h : name ∈ (message.slotsFrom opened fields).flatMap Slot.names) :
    ∃ index oneof, index ∉ opened ∧ message.oneofs[index]? = some oneof ∧
      name ∈ message.oneofNames oneof index := by
  rcases List.mem_flatMap.mp h with ⟨slot, hslot, hname⟩
  rcases mem_slotsFrom hslot with ⟨field, -, rfl⟩ | ⟨field, -, index, -, hnew, rfl⟩
  · simp [Slot.names] at hname
  · rcases mem_names_oneofSlot hname with ⟨oneof, honeof, hname⟩
    exact ⟨index, oneof, hnew, honeof, hname⟩

/-- A oneof stands beside its index among the indexed oneofs of a message. -/
theorem mem_zipIdx_oneofs {oneof : Oneof} (honeof : message.oneofs[index]? = some oneof) :
    (oneof, index) ∈ message.oneofs.zipIdx :=
  List.mem_zipIdx_iff_getElem?.mpr honeof

/-- A oneof of a message declares names of the message. -/
theorem oneofNames_subset {oneof : Oneof} (honeof : message.oneofs[index]? = some oneof) :
    message.oneofNames oneof index ⊆ message.names := by
  intro name hname
  have hmem := mem_zipIdx_oneofs honeof
  exact List.mem_cons_of_mem _ (List.mem_flatMap.mpr ⟨(oneof, index), hmem, hname⟩)

/-- A oneof of a message with distinct names declares each of its names once. -/
theorem oneofNames_nodup (hnames : message.names.Nodup) {oneof : Oneof}
    (honeof : message.oneofs[index]? = some oneof) :
    (message.oneofNames oneof index).Nodup := by
  have hmem := mem_zipIdx_oneofs honeof
  exact (List.nodup_flatMap.mp (List.nodup_cons.mp hnames).2).1 _ hmem

/-- Two oneofs of a message with distinct names share no name. -/
theorem oneofNames_disjoint (hnames : message.names.Nodup) {other : Nat} {oneof oneof' : Oneof}
    {name : String} (honeof : message.oneofs[index]? = some oneof)
    (honeof' : message.oneofs[other]? = some oneof')
    (hname : name ∈ message.oneofNames oneof index)
    (hname' : name ∈ message.oneofNames oneof' other) : index = other := by
  have hpairwise := (List.nodup_flatMap.mp (List.nodup_cons.mp hnames).2).2
  rcases List.getElem?_eq_some_iff.mp honeof with ⟨hlt, rfl⟩
  rcases List.getElem?_eq_some_iff.mp honeof' with ⟨hlt', rfl⟩
  have hdisjoint := List.pairwise_iff_getElem.mp hpairwise
  simp only [List.length_zipIdx, List.getElem_zipIdx, Nat.zero_add, Function.onFun] at hdisjoint
  rcases Nat.lt_trichotomy index other with hless | heq | hless
  · exact absurd hname' (hdisjoint index other hlt hlt' hless hname)
  · exact heq
  · exact absurd hname (hdisjoint other index hlt' hlt hless hname')

/-- No name belongs to two choices among the slots that fields open. -/
theorem slotsFrom_names_nodup (hnames : message.names.Nodup) (opened : List Nat)
    (fields : List Field) :
    ((message.slotsFrom opened fields).flatMap Slot.names).Nodup := by
  induction fields generalizing opened with
  | nil => exact List.nodup_nil
  | cons field rest ih =>
      unfold slotsFrom
      split
      · exact ih opened
      · rename_i index hindex
        split
        · exact ih opened
        · rw [List.flatMap_cons, List.nodup_append]
          refine ⟨?_, ih (index :: opened), ?_⟩
          · unfold oneofSlot
            cases honeof : message.oneofs[index]? with
            | none => exact List.nodup_nil
            | some oneof =>
                simp only
                split
                · exact List.nodup_nil
                · exact oneofNames_nodup hnames honeof
          · -- A slot behind this one is for a oneof with another index.
            rintro name hslot _ hrest rfl
            rcases mem_names_oneofSlot hslot with ⟨oneof, honeof, hname⟩
            rcases mem_names_slotsFrom hrest with ⟨other, oneof', hother, honeof', hname'⟩
            have heq := oneofNames_disjoint hnames honeof honeof' hname hname'
            rw [← heq] at hother
            exact hother List.mem_cons_self

/-- No name belongs to two choices among the slots of a message. -/
theorem slots_names_nodup (hnames : message.names.Nodup) :
    (message.slots.flatMap Slot.names).Nodup :=
  slotsFrom_names_nodup hnames [] message.fields

/-- The names of choices are among those that the oneofs of the message declare. -/
theorem slots_names_subset :
    message.slots.flatMap Slot.names ⊆
      message.oneofs.zipIdx.flatMap fun (oneof, index) => message.oneofNames oneof index := by
  intro name h
  rcases mem_names_slotsFrom h with ⟨index, oneof, -, honeof, hname⟩
  have hmem := mem_zipIdx_oneofs honeof
  exact List.mem_flatMap.mpr ⟨(oneof, index), hmem, hname⟩

end Message

end ElmBinding
