import Mathlib.Data.List.TakeWhile

/-!
# Spans of a class

The elements of a list that belong to some class stand in maximal groups of neighbours.  Such a
group is described by two places: where it begins, and the first place behind it.

Main results:

- Definition {lit}`IsSpan`: places between which a maximal group stands.
- Definition {lit}`spans`: the maximal groups of a list, in their order.
- Theorem {lit}`mem_spans_iff`: the groups are all maximal groups.
- Theorem {lit}`pairwise_spans`: each group ends before the next one begins.
- Theorem {lit}`existsUnique_span`: each element of the class is in one group.
- Theorem {lit}`areSpans_spans`: these three facts together.
- Theorem {lit}`spans_eq_append`: a group in front, if there is one, and the later groups.
- Theorem {lit}`spans_append`: the groups of two lists with a gap between them.
- Definition {lit}`spanItems`: the elements of a span.
-/

namespace ElmBinding
namespace Sequence

variable {α : Type} {inClass : α → Bool} {items : List α} {first last : Nat}

/-- The elements from one place up to another are a maximal group of a class. -/
structure IsSpan (inClass : α → Bool) (items : List α) (first last : Nat) : Prop where
  nonempty : first < last
  inside : ∀ i, first ≤ i → i < last → items[i]?.any inClass = true
  before : ∀ i, i + 1 = first → items[i]?.any inClass = false
  behind : items[last]?.any inClass = false

/-- A span that stands some places further on. -/
def movedBy (count : Nat) (span : Nat × Nat) : Nat × Nat :=
  (span.1 + count, span.2 + count)

/-- The maximal groups of a class in a list, in their order. -/
def spans (inClass : α → Bool) : List α → List (Nat × Nat)
  | [] => []
  | a :: rest =>
      if inClass a then
        (0, (rest.takeWhile inClass).length + 1) ::
          ((spans inClass rest).filter fun span => span.1 ≠ 0).map (movedBy 1)
      else
        (spans inClass rest).map (movedBy 1)

/-- Shifted spans do not begin in front. -/
@[simp] theorem zero_notMem_map_movedBy {places : List (Nat × Nat)} :
    (0, last) ∉ places.map (movedBy 1) := by
  simp [movedBy]

/-- No shifted span begins in front. -/
theorem filter_map_movedBy (count : Nat) (places : List (Nat × Nat)) :
    ((places.map (movedBy (count + 1))).filter fun span => span.1 ≠ 0) =
      places.map (movedBy (count + 1)) := by
  rw [List.filter_eq_self, List.forall_mem_map]
  intro span _
  simp [movedBy]

/-! ## Groups -/

/-- The elements in front that belong to a class, and the first place behind them. -/
theorem any_getElem?_takeWhile (inClass : α → Bool) (items : List α) :
    (∀ i, i < (items.takeWhile inClass).length → items[i]?.any inClass = true) ∧
      items[(items.takeWhile inClass).length]?.any inClass = false := by
  induction items with
  | nil => simp
  | cons a rest ih =>
      cases ha : inClass a with
      | false => simp [ha]
      | true =>
          rw [List.takeWhile_cons_of_pos ha]
          refine ⟨?_, ih.2⟩
          intro i hi
          cases i with
          | zero => simpa using ha
          | succ i => exact ih.1 i (Nat.lt_of_succ_lt_succ hi)

/-- A group in front ends behind the elements in front that belong to the class. -/
theorem isSpan_zero_iff : IsSpan inClass items 0 last ↔
    0 < last ∧ last = (items.takeWhile inClass).length := by
  rcases any_getElem?_takeWhile inClass items with ⟨hinside, hbehind⟩
  constructor
  · intro h
    refine ⟨h.nonempty, ?_⟩
    -- Each of the two places is behind a group, so neither is inside the other group.
    by_contra hne
    rcases Nat.lt_or_gt_of_ne hne with hlt | hgt
    · have hat := hinside last hlt
      rw [h.behind] at hat
      contradiction
    · have hat := h.inside _ (Nat.zero_le _) hgt
      rw [hbehind] at hat
      contradiction
  · rintro ⟨hpos, rfl⟩
    exact ⟨hpos, fun i _ hi => hinside i hi, fun i hi => absurd hi (Nat.succ_ne_zero i), hbehind⟩

/-- A later group of a list with one more element in front; it may not begin right behind one. -/
theorem isSpan_cons_iff {a : α} : IsSpan inClass (a :: items) (first + 1) (last + 1) ↔
    IsSpan inClass items first last ∧ (first = 0 → inClass a = false) := by
  constructor
  · intro h
    refine ⟨⟨Nat.lt_of_succ_lt_succ h.nonempty, ?_, ?_, h.behind⟩, ?_⟩
    · intro i hfirst hlast
      exact h.inside (i + 1) (Nat.succ_le_succ hfirst) (Nat.succ_lt_succ hlast)
    · intro i hi
      exact h.before (i + 1) (congrArg Nat.succ hi)
    · rintro rfl
      exact h.before 0 rfl
  · rintro ⟨h, hfront⟩
    refine ⟨Nat.succ_lt_succ h.nonempty, ?_, ?_, h.behind⟩
    · intro i hfirst hlast
      cases i with
      | zero => contradiction
      | succ i => exact h.inside i (Nat.le_of_succ_le_succ hfirst) (Nat.lt_of_succ_lt_succ hlast)
    · intro i hi
      cases i with
      | zero => exact hfront (Nat.succ.inj hi).symm
      | succ i => exact h.before i (Nat.succ.inj hi)

/-- The groups of a list are its maximal groups. -/
theorem mem_spans_iff : (first, last) ∈ spans inClass items ↔ IsSpan inClass items first last := by
  induction items generalizing first last with
  | nil =>
      constructor
      · intro h
        contradiction
      · intro h
        have hat := h.inside first (Nat.le_refl first) h.nonempty
        contradiction
  | cons a rest ih =>
      rw [spans]
      cases first with
      | zero =>
          rw [isSpan_zero_iff]
          cases ha : inClass a with
          | false =>
              rw [if_neg Bool.false_ne_true, List.takeWhile_cons_of_neg (by simp [ha])]
              refine iff_of_false zero_notMem_map_movedBy ?_
              rintro ⟨hpos, rfl⟩
              contradiction
          | true =>
              rw [if_pos rfl, List.mem_cons, List.takeWhile_cons_of_pos ha, List.length_cons]
              simp only [zero_notMem_map_movedBy, or_false, Prod.mk.injEq, true_and]
              omega
      | succ first =>
          cases last with
          | zero =>
              have hnone : ¬IsSpan inClass (a :: rest) (first + 1) 0 :=
                fun h => absurd h.nonempty (Nat.not_lt_zero _)
              cases ha : inClass a <;> simp [hnone, movedBy]
          | succ last =>
              rw [isSpan_cons_iff, ← ih]
              cases ha : inClass a <;> simp [movedBy]

/-- A group of a list begins and ends in it. -/
theorem bounds_of_mem_spans {span : Nat × Nat} (h : span ∈ spans inClass items) :
    span.1 < span.2 ∧ span.2 ≤ items.length := by
  have hspan : IsSpan inClass items span.1 span.2 := mem_spans_iff.mp h
  refine ⟨hspan.nonempty, ?_⟩
  have hat := hspan.inside (span.2 - 1) (by have := hspan.nonempty; omega)
    (by have := hspan.nonempty; omega)
  by_contra hlt
  rw [List.getElem?_eq_none (by omega)] at hat
  contradiction

/-- Each group ends before the next one begins. -/
theorem pairwise_spans (inClass : α → Bool) (items : List α) :
    (spans inClass items).Pairwise fun span later => span.2 < later.1 := by
  induction items with
  | nil => exact List.Pairwise.nil
  | cons a rest ih =>
      have hshift : ∀ places : List (Nat × Nat),
          places.Pairwise (fun span later => span.2 < later.1) →
            (places.map (movedBy 1)).Pairwise fun span later => span.2 < later.1 := by
        intro places hplaces
        rw [List.pairwise_map]
        exact hplaces.imp Nat.succ_lt_succ
      rw [spans]
      split
      · refine List.pairwise_cons.mpr ⟨?_, hshift _ (ih.filter _)⟩
        intro later hlater
        rcases List.mem_map.mp hlater with ⟨span, hspan, rfl⟩
        rcases List.mem_filter.mp hspan with ⟨hmem, hfirst⟩
        have hgroup : IsSpan inClass rest span.1 span.2 := mem_spans_iff.mp hmem
        have hpos : span.1 ≠ 0 := by simpa using hfirst
        -- The element before the later group is not in the class, so the front does not reach it.
        have hgap := hgroup.before (span.1 - 1) (by omega)
        have hfront := (any_getElem?_takeWhile inClass rest).1 (span.1 - 1)
        rw [hgap] at hfront
        by_contra hle
        exact absurd (hfront (by simp only [movedBy] at hle; omega)) Bool.false_ne_true
      · exact hshift _ ih

/-- Two groups with a common element are one group. -/
theorem IsSpan.eq_of_common {first' last' i : Nat} (h : IsSpan inClass items first last)
    (h' : IsSpan inClass items first' last') (hi : first ≤ i ∧ i < last)
    (hi' : first' ≤ i ∧ i < last') : first = first' ∧ last = last' := by
  have hfirst : ∀ {first last first' last' : Nat}, IsSpan inClass items first last →
      IsSpan inClass items first' last' → first ≤ i ∧ i < last → first' ≤ i ∧ i < last' →
      first ≤ first' := by
    intro first last first' last' h h' hi hi'
    by_contra hlt
    have hin := h'.inside (first - 1) (by omega) (by omega)
    rw [h.before (first - 1) (by omega)] at hin
    contradiction
  have hlast : ∀ {first last first' last' : Nat}, IsSpan inClass items first last →
      IsSpan inClass items first' last' → first ≤ i ∧ i < last → first' ≤ i ∧ i < last' →
      last' ≤ last := by
    intro first last first' last' h h' hi hi'
    by_contra hlt
    have hin := h'.inside last (by omega) (by omega)
    rw [h.behind] at hin
    contradiction
  exact ⟨Nat.le_antisymm (hfirst h h' hi hi') (hfirst h' h hi' hi),
    Nat.le_antisymm (hlast h' h hi' hi) (hlast h h' hi hi')⟩

/-- An element of the class is in a group. -/
theorem exists_mem_spans {i : Nat} (h : items[i]?.any inClass = true) :
    ∃ span ∈ spans inClass items, span.1 ≤ i ∧ i < span.2 := by
  induction items generalizing i with
  | nil => contradiction
  | cons a rest ih =>
      rw [spans]
      cases i with
      | zero =>
          have ha : inClass a = true := by simpa using h
          rw [if_pos ha]
          exact ⟨_, List.mem_cons_self, Nat.le_refl 0, Nat.succ_pos _⟩
      | succ i =>
          rcases ih h with ⟨span, hspan, hfirst, hlast⟩
          have hlater : (movedBy 1 span).1 ≤ i + 1 ∧ i + 1 < (movedBy 1 span).2 :=
            ⟨Nat.succ_le_succ hfirst, Nat.succ_lt_succ hlast⟩
          split
          · rcases Nat.eq_zero_or_pos span.1 with hzero | hpos
            · -- The group of the rest that begins in front is continued by the new element.
              have hgroup : IsSpan inClass rest span.1 span.2 := mem_spans_iff.mp hspan
              rw [hzero] at hgroup
              refine ⟨_, List.mem_cons_self, Nat.zero_le _, ?_⟩
              have hend := (isSpan_zero_iff.mp hgroup).2
              omega
            · refine ⟨movedBy 1 span, List.mem_cons_of_mem _ (List.mem_map_of_mem ?_), hlater⟩
              exact List.mem_filter.mpr ⟨hspan, by simpa using Nat.ne_of_gt hpos⟩
          · exact ⟨movedBy 1 span, List.mem_map_of_mem hspan, hlater⟩

/-- Each element of the class is in exactly one group. -/
theorem existsUnique_span {i : Nat} (h : items[i]?.any inClass = true) :
    ∃! span, span ∈ spans inClass items ∧ span.1 ≤ i ∧ i < span.2 := by
  rcases exists_mem_spans h with ⟨span, hspan, hi⟩
  refine ⟨span, ⟨hspan, hi⟩, ?_⟩
  rintro other ⟨hother, hi'⟩
  rcases (mem_spans_iff.mp hother).eq_of_common (mem_spans_iff.mp hspan) hi' hi with ⟨h1, h2⟩
  exact Prod.ext h1 h2

/-- Places are those of the maximal groups of a class, in their order. -/
structure AreSpans (inClass : α → Bool) (items : List α) (groups : List (Nat × Nat)) : Prop where
  maximal : ∀ first last, (first, last) ∈ groups ↔ IsSpan inClass items first last
  ordered : groups.Pairwise fun group later => group.2 < later.1
  once : ∀ i, items[i]?.any inClass = true →
    ∃! group, group ∈ groups ∧ group.1 ≤ i ∧ i < group.2

/-- The groups of a list are its maximal groups, in their order, and each element is in one. -/
theorem areSpans_spans (inClass : α → Bool) (items : List α) :
    AreSpans inClass items (spans inClass items) where
  maximal _ _ := mem_spans_iff
  ordered := pairwise_spans inClass items
  once _ h := existsUnique_span h

/-- The groups of a list are one in front, if there is one, and those that begin later. -/
theorem spans_eq_append (inClass : α → Bool) (items : List α) :
    spans inClass items =
      (if items.takeWhile inClass = [] then [] else [(0, (items.takeWhile inClass).length)]) ++
        (spans inClass items).filter fun span => span.1 ≠ 0 := by
  cases items with
  | nil => rfl
  | cons a rest =>
      rw [spans]
      cases ha : inClass a with
      | false =>
          rw [if_neg Bool.false_ne_true, filter_map_movedBy,
            List.takeWhile_cons_of_neg (by simp [ha]), if_pos rfl, List.nil_append]
      | true =>
          rw [if_pos rfl, List.takeWhile_cons_of_pos ha, if_neg (List.cons_ne_nil _ _),
            List.filter_cons_of_neg (by simp), filter_map_movedBy, List.length_cons,
            List.singleton_append]

/-- Elements that are all in the class are one group, unless there are none. -/
theorem spans_of_forall (h : ∀ a ∈ items, inClass a = true) :
    spans inClass items = if items = [] then [] else [(0, items.length)] := by
  have hfront : items.takeWhile inClass = items := List.takeWhile_eq_self_iff.mpr h
  have hlater : ((spans inClass items).filter fun span => span.1 ≠ 0) = [] := by
    rw [List.filter_eq_nil_iff]
    rintro ⟨first, last⟩ hspan
    have hgroup : IsSpan inClass items first last := mem_spans_iff.mp hspan
    have hbound := bounds_of_mem_spans hspan
    rw [decide_eq_true_eq, not_not]
    by_contra hpos
    have hgap := hgroup.before (first - 1) (by omega)
    rw [List.getElem?_eq_getElem (by omega), Option.any_some] at hgap
    rw [h _ (List.getElem_mem _)] at hgap
    contradiction
  rw [spans_eq_append, hlater, hfront, List.append_nil]

/-! ## Gaps -/

/-- The groups before and behind an element that is not in the class. -/
theorem spans_append_cons {a : α} (front back : List α) (ha : inClass a = false) :
    spans inClass (front ++ a :: back) = spans inClass front ++
      (spans inClass back).map (movedBy (front.length + 1)) := by
  induction front with
  | nil => simp [spans, ha]
  | cons b rest ih =>
      have hfront : (rest ++ a :: back).takeWhile inClass = rest.takeWhile inClass := by
        rw [List.takeWhile_append]
        split
        · rename_i hall
          rw [List.takeWhile_cons_of_neg (by simp [ha]), List.append_nil]
          exact ((List.takeWhile_prefix inClass).eq_of_length hall).symm
        · rfl
      have hmoved : movedBy 1 ∘ movedBy (rest.length + 1) = movedBy ((b :: rest).length + 1) := rfl
      rw [List.cons_append, spans, spans, ih, hfront]
      split
      · rw [List.filter_append, filter_map_movedBy, List.map_append, List.map_map, hmoved,
          List.cons_append]
      · rw [List.map_append, List.map_map, hmoved]

/-- The groups of two lists, when the first list does not end in the class. -/
theorem spans_append {front : List α} (back : List α)
    (hlast : ∀ a ∈ front.getLast?, inClass a = false) :
    spans inClass (front ++ back) = spans inClass front ++
      (spans inClass back).map (movedBy front.length) := by
  rcases List.eq_nil_or_concat front with rfl | ⟨init, a, rfl⟩
  · have hmoved : movedBy ([] : List α).length = id := rfl
    rw [hmoved, List.map_id]
    rfl
  · have ha : inClass a = false := hlast a (by simp)
    have hinit := spans_append_cons init [] ha
    rw [spans, List.map_nil, List.append_nil] at hinit
    rw [List.concat_eq_append, List.append_assoc, List.singleton_append,
      spans_append_cons init back ha, hinit, List.length_append, List.length_singleton]

/-- A list that does not end in the class has something behind each of its groups. -/
theorem lt_length_of_mem_spans {span : Nat × Nat} (h : span ∈ spans inClass items)
    (hlast : ∀ a ∈ items.getLast?, inClass a = false) : span.2 < items.length := by
  have hspan : IsSpan inClass items span.1 span.2 := mem_spans_iff.mp h
  have hbounds := bounds_of_mem_spans h
  by_contra hend
  have hat := hspan.inside (items.length - 1) (by omega) (by omega)
  rw [← List.getLast?_eq_getElem?, Option.any_eq_true] at hat
  rcases hat with ⟨a, ha, hclass⟩
  rw [hlast a ha] at hclass
  contradiction

/-! ## Elements -/

/-- The elements from one place up to another. -/
def spanItems (items : List α) (span : Nat × Nat) : List α :=
  (items.drop span.1).take (span.2 - span.1)

/-- The elements in front, up to a place. -/
@[simp] theorem spanItems_zero (items : List α) (last : Nat) :
    spanItems items (0, last) = items.take last := rfl

/-- The elements of a span behind a front. -/
theorem spanItems_append_movedBy (front back : List α) (span : Nat × Nat) :
    spanItems (front ++ back) (movedBy front.length span) = spanItems back span := by
  have hcount : span.2 + front.length - (span.1 + front.length) = span.2 - span.1 := by omega
  rw [spanItems, movedBy, hcount, Nat.add_comm span.1, List.drop_length_add_append, spanItems]

/-- The elements of a span in front. -/
theorem spanItems_append_of_le {front : List α} (back : List α) {span : Nat × Nat}
    (hlast : span.2 ≤ front.length) (hfirst : span.1 < span.2) :
    spanItems (front ++ back) span = spanItems front span := by
  have hdrop : span.1 ≤ front.length := by omega
  have htake : span.2 - span.1 ≤ (front.drop span.1).length := by rw [List.length_drop]; omega
  rw [spanItems, List.drop_append_of_le_length hdrop, List.take_append_of_le_length htake,
    spanItems]

end Sequence
end ElmBinding
