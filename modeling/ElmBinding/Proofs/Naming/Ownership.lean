import ElmBinding.Proofs.Naming.Ledgers
import Mathlib.Data.List.Forall2

/-!
# Who owns identifiers

Each identifier in a ledger is given out for one declaration.  So identifiers of declarations
with different names differ, and lists of identifiers may be put together without repeats as
long as the names of their declarations have none.

Main results:

- Definition {lit}`Ledger.Owned`: distinct identifiers of declarations with some names.
- Theorem {lit}`Ledger.Owned.append`: identifiers of declarations with different names.
- Theorem {lit}`Ledger.Owned.flatMap`: identifiers of declarations one by one.
- Theorem {lit}`Ledger.Sound.owned_binding`: the five names of a binding have one owner.
-/

namespace ElmBinding
namespace Ledger

variable {settings : Settings} {ledger : Ledger} {fullName id : String}
  {ids ids' names names' : List String} {α β : Type}

/-- Distinct identifiers, each given out for a declaration with one of some names. -/
structure Owned (ledger : Ledger) (ids names : List String) : Prop where
  nodup : ids.Nodup
  owner : ∀ id ∈ ids, ∃ name ∈ names, ∃ use, ledger.id? name use = some id

/-! ## Owned together -/

/-- No identifiers are owned by anyone. -/
theorem owned_nil (names : List String) : ledger.Owned [] names :=
  ⟨List.nodup_nil, by simp⟩

/-- What some declarations own, they own among more. -/
theorem Owned.mono (howned : ledger.Owned ids names) (hsubset : names ⊆ names') :
    ledger.Owned ids names' where
  nodup := howned.nodup
  owner id hid := by
    rcases howned.owner id hid with ⟨name, hname, use, huse⟩
    exact ⟨name, hsubset hname, use, huse⟩

/-- The order of identifiers does not matter. -/
theorem Owned.perm (howned : ledger.Owned ids names) (hperm : ids'.Perm ids) :
    ledger.Owned ids' names where
  nodup := hperm.nodup_iff.mpr howned.nodup
  owner id hid := howned.owner id (hperm.mem_iff.mp hid)

/-- Declarations with different names own different identifiers. -/
theorem Owned.append (hsound : ledger.Sound settings) (howned : ledger.Owned ids names)
    (howned' : ledger.Owned ids' names') (hdisjoint : names.Disjoint names') :
    ledger.Owned (ids ++ ids') (names ++ names') where
  nodup := by
    apply List.nodup_append.mpr
    refine ⟨howned.nodup, howned'.nodup, ?_⟩
    rintro id hid _ hid' rfl
    rcases howned.owner id hid with ⟨name, hname, use, huse⟩
    rcases howned'.owner id hid' with ⟨name', hname', use', huse'⟩
    rcases hsound.id_injective huse huse' with ⟨rfl, -⟩
    exact hdisjoint hname hname'
  owner id hid := by
    rcases List.mem_append.mp hid with hid | hid
    · rcases howned.owner id hid with ⟨name, hname, use, huse⟩
      exact ⟨name, List.mem_append_left _ hname, use, huse⟩
    · rcases howned'.owner id hid with ⟨name, hname, use, huse⟩
      exact ⟨name, List.mem_append_right _ hname, use, huse⟩

/-- Declarations one by one own different identifiers if their names differ. -/
theorem Owned.flatMap {made : α → β → Prop} {sources : List α} {items : List β}
    {idsOf : β → List String} {namesOf : α → List String} (hsound : ledger.Sound settings)
    (hmade : List.Forall₂ made sources items)
    (hstep : ∀ source item, made source item → (namesOf source).Nodup →
      ledger.Owned (idsOf item) (namesOf source))
    (hnames : (sources.flatMap namesOf).Nodup) :
    ledger.Owned (items.flatMap idsOf) (sources.flatMap namesOf) := by
  induction hmade with
  | nil => exact owned_nil _
  | cons hhead _ ih =>
      rw [List.flatMap_cons, List.nodup_append'] at hnames
      rw [List.flatMap_cons, List.flatMap_cons]
      exact (hstep _ _ hhead hnames.1).append hsound (ih hnames.2.1) hnames.2.2

/-! ## Owned by one -/

/-- An identifier is owned by the declaration that it was given out for. -/
theorem owned_of_id {use : Use} (h : ledger.id? fullName use = some id) :
    ledger.Owned [id] [fullName] where
  nodup := List.nodup_singleton id
  owner other hother := by
    obtain rfl := List.mem_singleton.mp hother
    exact ⟨fullName, List.mem_singleton_self fullName, use, h⟩

/-- A type name is owned by its declaration. -/
theorem owned_typeId (h : ledger.typeIds.lookup fullName = some id) :
    ledger.Owned [id] [fullName] := by
  have hid : ledger.id? fullName .typeName = some id := h
  exact owned_of_id hid

/-- A value name is owned by its declaration. -/
theorem owned_valueId (h : ledger.valueIds.lookup fullName = some id) :
    ledger.Owned [id] [fullName] := by
  have hid : ledger.id? fullName .valueName = some id := h
  exact owned_of_id hid

/-- The five names of a binding are distinct and owned by its declaration. -/
theorem Sound.owned_binding {binding : Binding} (hsound : ledger.Sound settings)
    (h : ledger.bindings.lookup fullName = some binding) :
    ledger.Owned binding.names [fullName] := by
  have htype : ledger.id? fullName .typeName = some binding.id := hsound.type_of_binding h
  have hzero : ledger.id? fullName .zero = some binding.zero := by simp [id?, h]
  have hdecoder : ledger.id? fullName .decoder = some binding.decoder := by simp [id?, h]
  have hencoder : ledger.id? fullName .encoder = some binding.encoder := by simp [id?, h]
  have hfuzzer : ledger.id? fullName .fuzzer = some binding.fuzzer := by simp [id?, h]
  have hne : ∀ {use use' : Use} {name name' : String}, ledger.id? fullName use = some name →
      ledger.id? fullName use' = some name' → use ≠ use' → name ≠ name' := by
    rintro use use' name _ huse huse' hdiffer rfl
    exact hdiffer (hsound.id_injective huse huse').2
  refine ⟨?_, ?_⟩
  · simp only [Binding.names, List.nodup_cons, List.mem_cons, List.not_mem_nil, or_false, not_or,
      not_false_eq_true, List.nodup_nil, and_true]
    refine ⟨⟨?_, ?_, ?_, ?_⟩, ⟨?_, ?_, ?_⟩, ⟨?_, ?_⟩, ?_⟩
    · exact hne htype hzero (by decide)
    · exact hne htype hdecoder (by decide)
    · exact hne htype hencoder (by decide)
    · exact hne htype hfuzzer (by decide)
    · exact hne hzero hdecoder (by decide)
    · exact hne hzero hencoder (by decide)
    · exact hne hzero hfuzzer (by decide)
    · exact hne hdecoder hencoder (by decide)
    · exact hne hdecoder hfuzzer (by decide)
    · exact hne hencoder hfuzzer (by decide)
  · intro name hname
    refine ⟨fullName, List.mem_singleton_self fullName, ?_⟩
    simp only [Binding.names, List.mem_cons, List.not_mem_nil, or_false] at hname
    rcases hname with rfl | rfl | rfl | rfl | rfl
    · exact ⟨_, htype⟩
    · exact ⟨_, hzero⟩
    · exact ⟨_, hdecoder⟩
    · exact ⟨_, hencoder⟩
    · exact ⟨_, hfuzzer⟩

/-- Owned identifiers of a sound ledger are legal and not reserved. -/
theorem Owned.legal (hsound : ledger.Sound settings) (howned : ledger.Owned ids names)
    (hid : id ∈ ids) : Name.isIdentifier id = true ∧ Name.isReserved id = false := by
  rcases howned.owner id hid with ⟨name, -, use, huse⟩
  refine ⟨hsound.legal_of_id huse, ?_⟩
  rw [Name.isReserved, Bool.eq_false_iff, ne_eq, List.contains_iff_mem]
  exact hsound.unreserved_of_id huse

end Ledger

end ElmBinding
