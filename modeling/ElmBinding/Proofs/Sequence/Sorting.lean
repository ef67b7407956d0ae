import ElmBinding.Sequence.Sorting
import Mathlib.Data.List.Forall2
import Mathlib.Data.List.Nodup

/-!
# Order of sorted lists

A sorted list ascends.  If no two elements share a key, there is one ascending order only, so
rearranged lists are sorted alike.  For the same reason a search by key finds the same element
in a rearranged list.

Main results:

- Theorem {lit}`pairwise_sortedBy`: a sorted list ascends.
- Theorem {lit}`pairwise_lt_of_nodup`: a list without common keys ascends strictly.
- Theorem {lit}`pairwise_sortedSet`: a sorted set ascends strictly.
- Theorem {lit}`sortedSet_eq_of_mem_iff`: lists of the same texts have the same sorted set.
- Theorem {lit}`sortedBy_eq_of_perm`: rearranged lists are sorted alike.
- Theorem {lit}`find?_eq_of_perm`: a search by key does not depend on the order.
- Theorem {lit}`find?_eq_some_of_mem`: a search by the key of an element finds the element.
- Theorem {lit}`find?_eq_some_iff_of_nodup`: a search finds nothing but the element with the key.
- Theorem {lit}`filter_eq_singleton_of_mem`: no other element has that key.
- Theorem {lit}`filter_eq_toList_find?`: a search finds all that there is with a key.
-/

namespace ElmBinding
namespace Sequence

variable {α β : Type} {key : α → String}

/-! ## Sorting -/

/-- Insertion keeps a list ascending. -/
theorem pairwise_insertBy (a : α) {items : List α}
    (hitems : items.Pairwise fun b c => key b ≤ key c) :
    (insertBy key a items).Pairwise fun b c => key b ≤ key c := by
  induction items with
  | nil => exact List.pairwise_singleton _ a
  | cons b rest ih =>
      rcases List.pairwise_cons.mp hitems with ⟨hhead, hrest⟩
      unfold insertBy
      split
      · rename_i hlt
        refine List.pairwise_cons.mpr ⟨?_, ih hrest⟩
        intro c hc
        rcases List.mem_cons.mp ((insertBy_perm key a rest).mem_iff.mp hc) with rfl | hc
        · exact String.not_lt.mp (String.lt_asymm hlt)
        · exact hhead c hc
      · rename_i hle
        refine List.pairwise_cons.mpr ⟨?_, hitems⟩
        intro c hc
        rcases List.mem_cons.mp hc with rfl | hc
        · exact String.not_lt.mp hle
        · exact String.le_trans (String.not_lt.mp hle) (hhead c hc)

/-- A sorted list ascends. -/
theorem pairwise_sortedBy (key : α → String) (items : List α) :
    (sortedBy key items).Pairwise fun a b => key a ≤ key b := by
  induction items with
  | nil => exact List.Pairwise.nil
  | cons a rest ih => exact pairwise_insertBy a ih

/-- A list that ascends does so strictly if no two elements share a key. -/
theorem pairwise_lt_of_nodup {items : List α} (hitems : items.Pairwise fun a b => key a ≤ key b)
    (hkeys : (items.map key).Nodup) : items.Pairwise fun a b => key a < key b := by
  apply (hitems.and (List.pairwise_map.mp hkeys)).imp
  rintro a b ⟨hle, hne⟩
  by_contra hlt
  exact hne (String.le_antisymm hle (String.not_lt.mp hlt))

/-- Insertion keeps texts strictly ascending. -/
theorem pairwise_insertText (text : String) {texts : List String}
    (htexts : texts.Pairwise (· < ·)) : (insertText text texts).Pairwise (· < ·) := by
  induction texts with
  | nil => exact List.pairwise_singleton _ text
  | cons head rest ih =>
      rcases List.pairwise_cons.mp htexts with ⟨hhead, hrest⟩
      unfold insertText
      split
      · rename_i hlt
        refine List.pairwise_cons.mpr ⟨?_, htexts⟩
        intro other hother
        rcases List.mem_cons.mp hother with rfl | hother
        · exact hlt
        · exact String.lt_trans hlt (hhead other hother)
      · split
        · exact htexts
        · rename_i hle hne
          refine List.pairwise_cons.mpr ⟨?_, ih hrest⟩
          intro other hother
          rcases mem_insertText.mp hother with rfl | hother
          · by_contra hge
            exact hne (String.le_antisymm (String.not_lt.mp hge) (String.not_lt.mp hle))
          · exact hhead other hother

/-- A sorted set ascends strictly. -/
theorem pairwise_sortedSet (texts : List String) : (sortedSet texts).Pairwise (· < ·) := by
  induction texts with
  | nil => exact List.Pairwise.nil
  | cons text rest ih => exact pairwise_insertText text ih

/-- Lists of the same texts have the same sorted set. -/
theorem sortedSet_eq_of_mem_iff {texts texts' : List String}
    (h : ∀ text, text ∈ texts ↔ text ∈ texts') : sortedSet texts = sortedSet texts' := by
  have hnodup : ∀ items : List String, (sortedSet items).Nodup := by
    intro items
    apply (pairwise_sortedSet items).imp
    rintro text other hlt rfl
    exact String.lt_irrefl text hlt
  have hperm : (sortedSet texts).Perm (sortedSet texts') := by
    rw [List.perm_ext_iff_of_nodup (hnodup texts) (hnodup texts')]
    intro text
    rw [mem_sortedSet, mem_sortedSet, h]
  refine hperm.eq_of_pairwise ?_ (pairwise_sortedSet texts) (pairwise_sortedSet texts')
  intro text other _ _ hlt hgt
  exact absurd hgt (String.lt_asymm hlt)

/-- Rearranged lists without common keys are sorted alike. -/
theorem sortedBy_eq_of_perm {items items' : List α} (hperm : items.Perm items')
    (hkeys : (items.map key).Nodup) : sortedBy key items = sortedBy key items' := by
  have hsorted := (sortedBy_perm key items).trans (hperm.trans (sortedBy_perm key items').symm)
  apply List.Perm.eq_of_pairwise _ (pairwise_sortedBy key items) (pairwise_sortedBy key items')
    hsorted
  intro a b ha hb hle hge
  have ha' : a ∈ items := (sortedBy_perm key items).mem_iff.mp ha
  have hb' : b ∈ items := (sortedBy_perm key items).mem_iff.mp (hsorted.mem_iff.mpr hb)
  exact List.inj_on_of_nodup_map hkeys ha' hb' (String.le_antisymm hle hge)

/-- A map that keeps keys may come before sorting. -/
theorem sortedBy_map {key' : β → String} (f : α → β) (hf : ∀ a, key' (f a) = key a)
    (items : List α) : sortedBy key' (items.map f) = (sortedBy key items).map f := by
  have hinsert : ∀ a sorted,
      insertBy key' (f a) (sorted.map f) = (insertBy key a sorted).map f := by
    intro a sorted
    induction sorted with
    | nil => rfl
    | cons b rest ih =>
        simp only [List.map_cons, insertBy, hf]
        split
        · rw [ih, List.map_cons]
        · rfl
  induction items with
  | nil => rfl
  | cons a rest ih =>
      have hcons : sortedBy key' ((a :: rest).map f) =
          insertBy key' (f a) (sortedBy key' (rest.map f)) := rfl
      rw [hcons, ih, hinsert]
      rfl

/-- Lists whose elements are related one by one, and share their keys, are so after insertion. -/
theorem forall₂_insertBy {key' : β → String} {related : α → β → Prop}
    (hkey : ∀ {a b}, related a b → key' b = key a) {a : α} {b : β} {items : List α}
    {items' : List β} (hfirst : related a b) (hitems : List.Forall₂ related items items') :
    List.Forall₂ related (insertBy key a items) (insertBy key' b items') := by
  induction hitems with
  | nil => exact .cons hfirst .nil
  | cons hhead htail ih =>
      simp only [insertBy, hkey hfirst, hkey hhead]
      split
      · exact .cons hhead ih
      · exact .cons hfirst (.cons hhead htail)

/-- Lists whose elements are related one by one, and share their keys, are so after sorting. -/
theorem forall₂_sortedBy {key' : β → String} {related : α → β → Prop}
    (hkey : ∀ {a b}, related a b → key' b = key a) {items : List α} {items' : List β}
    (h : List.Forall₂ related items items') :
    List.Forall₂ related (sortedBy key items) (sortedBy key' items') := by
  induction h with
  | nil => exact .nil
  | cons hhead _ ih => exact forall₂_insertBy (fun hrelated => hkey hrelated) hhead ih

/-! ## Search -/

/-- A search by key does not depend on the order of elements without common keys. -/
theorem find?_eq_of_perm {items items' : List α} (hperm : items.Perm items')
    (hkeys : (items.map key).Nodup) (text : String) :
    (items.find? fun item => key item = text) = items'.find? fun item => key item = text := by
  induction hperm with
  | nil => rfl
  | cons a hrest ih =>
      have hcons := (List.nodup_cons.mp hkeys).2
      rw [List.find?_cons, List.find?_cons, ih hcons]
  | swap a b rest =>
      have hne : key b ≠ key a := by
        intro heq
        exact (List.nodup_cons.mp hkeys).1 (heq ▸ List.mem_cons_self)
      by_cases ha : key a = text
      · have hb : key b ≠ text := fun heq => hne (heq.trans ha.symm)
        simp [ha, hb]
      · simp [List.find?_cons, ha]
  | trans hfirst hsecond ih ih' =>
      rw [ih hkeys]
      exact ih' ((hfirst.map key).nodup_iff.mp hkeys)

/-- A search by the key of an element finds the element, if it shares its key with no other. -/
theorem find?_eq_some_of_mem {items : List α} (hkeys : (items.map key).Nodup) {a : α}
    (ha : a ∈ items) : (items.find? fun item => key item = key a) = some a := by
  induction items with
  | nil => contradiction
  | cons b rest ih =>
      rcases List.nodup_cons.mp hkeys with ⟨hnew, hrest⟩
      rcases List.mem_cons.mp ha with rfl | ha
      · simp
      · have hne : key b ≠ key a := fun heq => hnew (heq ▸ List.mem_map_of_mem ha)
        rw [List.find?_cons_of_neg (by simpa using hne)]
        exact ih hrest ha

/-- A search by key finds the element with the key, if keys are not shared. -/
theorem find?_eq_some_iff_of_nodup {items : List α} (hkeys : (items.map key).Nodup)
    {text : String} {a : α} :
    (items.find? fun item => key item = text) = some a ↔ a ∈ items ∧ key a = text := by
  constructor
  · intro hfind
    exact ⟨List.mem_of_find?_eq_some hfind, by simpa using List.find?_some hfind⟩
  · rintro ⟨ha, rfl⟩
    exact find?_eq_some_of_mem hkeys ha

/-- A search in a list that ascends strictly finds the element with the key. -/
theorem find?_eq_some_iff_of_pairwise {items : List α}
    (hitems : items.Pairwise fun a b => key a < key b) {text : String} {a : α} :
    (items.find? fun item => key item = text) = some a ↔ a ∈ items ∧ key a = text :=
  find?_eq_some_iff_of_nodup
    (List.pairwise_map.mpr (hitems.imp fun hlt => String.ne_of_lt hlt))

/-- The only element with the key of an element is the element, if keys are not shared. -/
theorem filter_eq_singleton_of_mem {items : List α} (hkeys : (items.map key).Nodup) {a : α}
    (ha : a ∈ items) : (items.filter fun item => key item = key a) = [a] := by
  induction items with
  | nil => contradiction
  | cons b rest ih =>
      rcases List.nodup_cons.mp hkeys with ⟨hnew, hrest⟩
      rcases List.mem_cons.mp ha with rfl | ha
      · have hnone : (rest.filter fun item => key item = key a) = [] := by
          rw [List.filter_eq_nil_iff]
          intro item hitem
          rw [decide_eq_true_eq]
          exact fun heq => hnew (heq ▸ List.mem_map_of_mem hitem)
        rw [List.filter_cons_of_pos (by simp), hnone]
      · have hne : key b ≠ key a := fun heq => hnew (heq ▸ List.mem_map_of_mem ha)
        rw [List.filter_cons_of_neg (by simpa using hne)]
        exact ih hrest ha

/-- The elements with a key are the one that a search finds, or none, if keys are not shared. -/
theorem filter_eq_toList_find? {items : List α} (hkeys : (items.map key).Nodup) (text : String) :
    (items.filter fun item => key item = text) =
      (items.find? fun item => key item = text).toList := by
  cases hfind : items.find? fun item => key item = text with
  | none =>
      rw [List.find?_eq_none] at hfind
      exact List.filter_eq_nil_iff.mpr hfind
  | some a =>
      obtain rfl : key a = text := by simpa using List.find?_some hfind
      exact filter_eq_singleton_of_mem hkeys (List.mem_of_find?_eq_some hfind)

end Sequence
end ElmBinding
