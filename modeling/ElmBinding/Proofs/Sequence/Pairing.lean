import Mathlib.Data.List.Flatten
import Mathlib.Data.List.Forall2
import Mathlib.Data.List.Perm.Basic

/-!
# One-to-one matches

Two lists match one to one if there are pairs that run through the elements of both, each as
often as it occurs there, in any order.

Main results:

- Definition {lit}`Pairing`: pairs that match two lists one to one.
- Theorem {lit}`Pairing.of_forall₂`: lists that are alike item by item match one to one.
- Theorem {lit}`Pairing.flatMap`: matches one after another make a match.
-/

namespace ElmBinding

variable {α β γ : Type} {sources sources' : List α} {items items' : List β}
  {pairs pairs' : List (α × β)}

/-- What comes out of a list item by item comes from one of its items. -/
theorem exists_of_forall₂_of_mem {made : α → β → Prop} {item : β}
    (hmade : List.Forall₂ made sources items) (hitem : item ∈ items) :
    ∃ source ∈ sources, made source item := by
  induction hmade with
  | nil => contradiction
  | cons hhead _ ih =>
      rcases List.mem_cons.mp hitem with rfl | hitem
      · exact ⟨_, List.mem_cons_self, hhead⟩
      · rcases ih hitem with ⟨source, hsource, hmade⟩
        exact ⟨source, List.mem_cons_of_mem _ hsource, hmade⟩

/-- Pairs that run through the elements of two lists, in any order. -/
structure Pairing (sources : List α) (items : List β) (pairs : List (α × β)) : Prop where
  sources : (pairs.map Prod.fst).Perm sources
  items : (pairs.map Prod.snd).Perm items

namespace Pairing

/-- Lists that are alike item by item match one to one. -/
theorem of_forall₂ {alike : α → β → Prop} (h : List.Forall₂ alike sources items) :
    Pairing sources items (sources.zip items) where
  sources := by
    rw [List.map_fst_zip (Nat.le_of_eq h.length_eq)]
  items := by
    rw [List.map_snd_zip (Nat.le_of_eq h.length_eq.symm)]

/-- The order of matched elements does not matter. -/
theorem perm (h : Pairing sources items pairs) (hsources : sources.Perm sources')
    (hitems : items.Perm items') : Pairing sources' items' pairs where
  sources := h.sources.trans hsources
  items := h.items.trans hitems

/-- Matches side by side make a match. -/
theorem append (h : Pairing sources items pairs) (h' : Pairing sources' items' pairs') :
    Pairing (sources ++ sources') (items ++ items') (pairs ++ pairs') where
  sources := by
    rw [List.map_append]
    exact h.sources.append h'.sources
  items := by
    rw [List.map_append]
    exact h.items.append h'.items

/-- Matches one after another make a match. -/
theorem flatMap {entries : List γ} {sourcesOf : γ → List α} {itemsOf : γ → List β}
    {pairsOf : γ → List (α × β)}
    (h : ∀ entry ∈ entries, Pairing (sourcesOf entry) (itemsOf entry) (pairsOf entry)) :
    Pairing (entries.flatMap sourcesOf) (entries.flatMap itemsOf) (entries.flatMap pairsOf) := by
  induction entries with
  | nil => exact ⟨List.Perm.refl _, List.Perm.refl _⟩
  | cons entry rest ih =>
      rcases List.forall_mem_cons.mp h with ⟨hfirst, hrest⟩
      exact hfirst.append (ih hrest)

/-- Every source has a pair. -/
theorem exists_of_source (h : Pairing sources items pairs) {source : α}
    (hsource : source ∈ sources) : ∃ item ∈ items, (source, item) ∈ pairs := by
  rcases List.mem_map.mp (h.sources.mem_iff.mpr hsource) with ⟨⟨_, item⟩, hpair, rfl⟩
  exact ⟨item, h.items.mem_iff.mp (List.mem_map_of_mem hpair), hpair⟩

/-- Every item has a pair. -/
theorem exists_of_item (h : Pairing sources items pairs) {item : β} (hitem : item ∈ items) :
    ∃ source ∈ sources, (source, item) ∈ pairs := by
  rcases List.mem_map.mp (h.items.mem_iff.mpr hitem) with ⟨⟨source, _⟩, hpair, rfl⟩
  exact ⟨source, h.sources.mem_iff.mp (List.mem_map_of_mem hpair), hpair⟩

end Pairing
end ElmBinding
