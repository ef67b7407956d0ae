/-!
# Sorting by a text key

Lists are put in the order of a key, code point by code point.  Elements with equal keys
keep their order.  A sorted set of texts is built the same way, dropping repeats.

Main results:

- Definition {lit}`sortedBy`: a list in the order of a key.
- Definition {lit}`sortedSet`: the distinct texts of a list, ascending.
- Theorem {lit}`sortedBy_perm`: sorting rearranges and does nothing else.
- Theorem {lit}`mem_sortedSet`: the sorted set holds the texts of the list.
-/

namespace ElmBinding
namespace Sequence

variable {α : Type}

/-- Put an element in front of the first one whose key is not smaller. -/
def insertBy (key : α → String) (a : α) : List α → List α
  | [] => [a]
  | b :: rest => if key b < key a then b :: insertBy key a rest else a :: b :: rest

/-- A list in ascending order of a key; equal keys keep their order. -/
def sortedBy (key : α → String) (items : List α) : List α :=
  items.foldr (insertBy key) []

/-- Insertion adds the element and keeps the others. -/
theorem insertBy_perm (key : α → String) (a : α) (items : List α) :
    (insertBy key a items).Perm (a :: items) := by
  induction items with
  | nil => simp [insertBy]
  | cons b rest ih =>
      by_cases hlt : key b < key a
      · simp only [insertBy, if_pos hlt]
        exact (ih.cons b).trans (List.Perm.swap a b rest)
      · simp [insertBy, hlt]

/-- Sorting rearranges a list and does nothing else. -/
theorem sortedBy_perm (key : α → String) (items : List α) :
    (sortedBy key items).Perm items := by
  induction items with
  | nil => simp [sortedBy]
  | cons a rest ih => exact (insertBy_perm key a (sortedBy key rest)).trans (ih.cons a)

/-- Put a text at its place among ascending texts, unless it is there already. -/
def insertText (text : String) : List String → List String
  | [] => [text]
  | other :: rest =>
      if text < other then
        text :: other :: rest
      else if text = other then
        other :: rest
      else
        other :: insertText text rest

/-- The distinct texts of a list, ascending. -/
def sortedSet (texts : List String) : List String :=
  texts.foldr insertText []

/-- Insertion adds one text to the members. -/
theorem mem_insertText {text other : String} {texts : List String} :
    other ∈ insertText text texts ↔ other = text ∨ other ∈ texts := by
  induction texts with
  | nil => simp [insertText]
  | cons head rest ih =>
      by_cases hlt : text < head
      · simp [insertText, hlt]
      · by_cases heq : text = head
        · subst heq
          simp [insertText]
        · simp only [insertText, if_neg hlt, if_neg heq, List.mem_cons, ih]
          constructor
          · rintro (h | h | h) <;> simp [h]
          · rintro (h | h | h) <;> simp [h]

/-- The sorted set holds the texts of the list. -/
theorem mem_sortedSet {text : String} {texts : List String} :
    text ∈ sortedSet texts ↔ text ∈ texts := by
  induction texts with
  | nil => simp [sortedSet]
  | cons head rest ih =>
      have hstep : text ∈ sortedSet (head :: rest) ↔ text = head ∨ text ∈ sortedSet rest :=
        mem_insertText
      simp [hstep, ih]

end Sequence
end ElmBinding
