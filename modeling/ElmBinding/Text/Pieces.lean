/-!
# Cutting and trimming text

Cutting at a character keeps every piece, the empty ones too, so joining the pieces with
that character gives the text back.

Main results:

- Definition {lit}`splitAtChar`: the pieces of a text between the occurrences of a character.
- Definition {lit}`trimWhile`: a text without the characters of a class at its ends.
- Theorem {lit}`splitAtChar_ne_nil`: a text has at least one piece.
- Theorem {lit}`intercalate_splitAtChar`: the joined pieces are the text.
- Theorems {lit}`splitAtChar_of_notMem` and {lit}`splitAtChar_append`: where a text is cut.
-/

namespace ElmBinding
namespace Text

/-- The pieces of a text between the occurrences of {lit}`mark`. -/
def splitAtChar (mark : Char) : List Char → List (List Char)
  | [] => [[]]
  | c :: rest =>
      if c = mark then
        [] :: splitAtChar mark rest
      else
        match splitAtChar mark rest with
        | [] => [[c]]
        | piece :: pieces => (c :: piece) :: pieces

/-- A text has at least one piece. -/
theorem splitAtChar_ne_nil (mark : Char) (text : List Char) : splitAtChar mark text ≠ [] := by
  cases text with
  | nil => simp [splitAtChar]
  | cons c rest =>
      by_cases hc : c = mark
      · simp [splitAtChar, hc]
      · cases hrest : splitAtChar mark rest <;> simp [splitAtChar, hc, hrest]

/-- Joining the pieces with the character that cut them gives the text back. -/
theorem intercalate_splitAtChar (mark : Char) (text : List Char) :
    [mark].intercalate (splitAtChar mark text) = text := by
  induction text with
  | nil => simp [splitAtChar, List.intercalate]
  | cons c rest ih =>
      cases hrest : splitAtChar mark rest with
      | nil => exact absurd hrest (splitAtChar_ne_nil mark rest)
      | cons piece pieces =>
          rw [hrest] at ih
          by_cases hc : c = mark
          · subst hc
            simp only [splitAtChar, if_true, hrest]
            simpa [List.intercalate, List.intersperse] using ih
          · simp only [splitAtChar, if_neg hc, hrest]
            cases pieces with
            | nil => simpa [List.intercalate] using ih
            | cons next others => simpa [List.intercalate, List.intersperse] using ih

/-- A text without the mark is a single piece. -/
theorem splitAtChar_of_notMem {mark : Char} {text : List Char} (h : mark ∉ text) :
    splitAtChar mark text = [text] := by
  induction text with
  | nil => rfl
  | cons c rest ih =>
      rcases not_or.mp (mt List.mem_cons.mpr h) with ⟨hc, hrest⟩
      rw [splitAtChar, if_neg (Ne.symm hc), ih hrest]

/-- At a mark the pieces before it and those behind it are cut apart. -/
theorem splitAtChar_append (mark : Char) (front back : List Char) :
    splitAtChar mark (front ++ mark :: back) = splitAtChar mark front ++ splitAtChar mark back := by
  induction front with
  | nil => simp [splitAtChar]
  | cons c rest ih =>
      rw [List.cons_append, splitAtChar, splitAtChar, ih]
      split
      · rfl
      · cases hrest : splitAtChar mark rest with
        | nil => exact absurd hrest (splitAtChar_ne_nil mark rest)
        | cons piece pieces => rfl

/-- A text without the leading and trailing characters of a class. -/
def trimWhile (inClass : Char → Bool) (text : List Char) : List Char :=
  ((text.dropWhile inClass).reverse.dropWhile inClass).reverse

/-- Whether a text occurs in another one. -/
def occursIn (part : List Char) : List Char → Bool
  | [] => part.isEmpty
  | c :: rest => part.isPrefixOf (c :: rest) || occursIn part rest

end Text
end ElmBinding
