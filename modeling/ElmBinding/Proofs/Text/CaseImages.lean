import ElmBinding.Name.Legal
import ElmBinding.Text.Lowercase
import ElmBinding.Text.Upper
import Mathlib.Data.List.Chain

/-!
# Images of case mappings

Where a case mapping takes a character to one other character, both are letters.  The tables
say so run by run, since a run and its image lie in ranges of letters.  Characters with an
expansion are letters too, and an expansion begins with a letter, but it may go on with marks
that are none.  In lowercase only {lit}`İ` does so.

Main results:

- Theorem {lit}`Ranges.covers_of_mem`: a table covers the code points of its ranges.
- Theorem {lit}`imageOf_mapCase`: which of three rules gives the image of a character.
- Theorems {lit}`imageOf_upperChar`, {lit}`imageOf_lowerChar`: images are expansions, other
  letters or the character itself.
- Theorem {lit}`all_lowercaseAfter_iff`: which words stay legal in lowercase.
- Theorem {lit}`isIdentifierChar_of_upperChar`: what is legal in uppercase is legal itself.
- Theorem {lit}`exists_head_upperChar`: letters begin with a letter in uppercase.
-/

namespace ElmBinding
namespace Text

/-! ## Tables of ranges -/

/-- The code points of a table as the bits of a number, in which they are quickly looked up. -/
def Ranges.mask (table : Ranges) : Nat :=
  table.foldr (fun range mask => (1 <<< (range.2 + 1 - range.1) - 1) <<< range.1 ||| mask) 0

/-- A bit stands for a code point of one of the ranges. -/
theorem Ranges.exists_of_testBit {table : Ranges} {n : Nat} (h : table.mask.testBit n = true) :
    ∃ range ∈ table, range.1 ≤ n ∧ n ≤ range.2 := by
  induction table with
  | nil => simp [mask] at h
  | cons head rest ih =>
      have hcons : mask (head :: rest) =
          (1 <<< (head.2 + 1 - head.1) - 1) <<< head.1 ||| mask rest := rfl
      rw [hcons, Nat.testBit_or, Bool.or_eq_true, Nat.one_shiftLeft] at h
      rcases h with hhead | hrest
      · rw [Nat.testBit_shiftLeft, Nat.testBit_two_pow_sub_one, Bool.and_eq_true,
          decide_eq_true_eq, decide_eq_true_eq] at hhead
        exact ⟨head, List.mem_cons_self, hhead.1, by omega⟩
      · rcases ih hrest with ⟨range, hrange, hbounds⟩
        exact ⟨range, List.mem_cons_of_mem head hrange, hbounds⟩

/-- Two ranges one of which lies before the other. -/
def precedes (range later : Nat × Nat) : Prop :=
  range.1 ≤ range.2 ∧ range.2 < later.1

instance : DecidableRel precedes := fun _ _ => inferInstanceAs (Decidable (_ ∧ _))

/-- A table covers the code points of its ranges, if the ranges ascend. -/
theorem Ranges.covers_of_mem {table : Ranges} (hascends : table.Pairwise precedes)
    {range : Nat × Nat} (hrange : range ∈ table) {n : Nat} (hlow : range.1 ≤ n)
    (hhigh : n ≤ range.2) : table.covers n = true := by
  induction table with
  | nil => contradiction
  | cons head rest ih =>
      rcases List.pairwise_cons.mp hascends with ⟨hhead, hrest⟩
      rcases List.mem_cons.mp hrange with rfl | hrange
      · simp [covers, Nat.not_lt.mpr hlow, hhigh]
      · have hbehind := hhead range hrange
        unfold precedes at hbehind
        have hnotBefore : ¬n < head.1 := by omega
        have hnotIn : ¬n ≤ head.2 := by omega
        simp only [covers, hnotBefore, hnotIn, if_false]
        exact ih hrest hrange

/-- The relation of ranges one before the other is transitive. -/
instance : Trans precedes precedes precedes where
  trans := by
    unfold precedes
    omega

/-- The ranges of letters ascend. -/
theorem pairwise_alphabeticRanges : alphabeticRanges.Pairwise precedes := by
  rw [← List.isChain_iff_pairwise]
  decide +kernel

/-- The ranges of letters hold code points of characters only. -/
theorem isValidChar_of_alphabeticRanges {range : Nat × Nat} (hrange : range ∈ alphabeticRanges)
    {n : Nat} (hlow : range.1 ≤ n) (hhigh : n ≤ range.2) : n.isValidChar := by
  have hvalid : ∀ range ∈ alphabeticRanges,
      range.2 < 0xD800 ∨ 0xDFFF < range.1 ∧ range.2 < 0x110000 := by
    decide +kernel
  unfold Nat.isValidChar
  rcases hvalid range hrange with hbefore | hbehind <;> omega

/-- A code point among the bits of letters is that of a letter. -/
theorem isAlphabetic_of_testBit {n : Nat} (h : alphabeticRanges.mask.testBit n = true) :
    isAlphabetic (Char.ofNat n) = true := by
  rcases Ranges.exists_of_testBit h with ⟨range, hrange, hlow, hhigh⟩
  have hchar := isValidChar_of_alphabeticRanges hrange hlow hhigh
  have hsame : Char.ofNat n = Char.ofNatAux n hchar := dif_pos hchar
  have hpoint : (Char.ofNat n).toNat = n := by
    rw [hsame]
    rfl
  rw [isAlphabetic, hpoint]
  exact Ranges.covers_of_mem pairwise_alphabeticRanges hrange hlow hhigh

/-! ## Runs -/

namespace CaseRun

/-- A run that moves a code point. -/
structure Moves (run : CaseRun) (n : Nat) : Prop where
  first_le : run.first ≤ n
  le_last : n ≤ run.last
  step : (n - run.first) % run.step = 0

/-- The image of a code point under a run. -/
def image (run : CaseRun) (n : Nat) : Nat :=
  (n + run.shift).toNat

/-- The code points of a run. -/
def points (run : CaseRun) : List Nat :=
  (List.range ((run.last - run.first) / run.step + 1)).map fun count =>
    run.first + run.step * count

/-- Whether a run takes letters to letters. -/
def staysAlphabetic (run : CaseRun) : Bool :=
  run.points.all fun n =>
    alphabeticRanges.mask.testBit n && alphabeticRanges.mask.testBit (run.image n)

/-- A code point that a run moves is one of its points. -/
theorem Moves.mem_points {run : CaseRun} {n : Nat} (h : run.Moves n) : n ∈ run.points := by
  have hfirst := h.first_le
  have hlast := h.le_last
  have hsplit := Nat.mod_add_div (n - run.first) run.step
  rw [h.step, Nat.zero_add] at hsplit
  refine List.mem_map.mpr ⟨(n - run.first) / run.step, List.mem_range.mpr ?_, by omega⟩
  exact Nat.lt_succ_of_le (Nat.div_le_div_right (by omega))

/-- A run that takes letters to letters does so at every code point that it moves. -/
theorem Moves.isAlphabetic {run : CaseRun} {n : Nat} (h : run.Moves n)
    (hrun : run.staysAlphabetic = true) :
    isAlphabetic (Char.ofNat n) = true ∧ isAlphabetic (Char.ofNat (run.image n)) = true := by
  have hbits := List.all_eq_true.mp hrun n h.mem_points
  rw [Bool.and_eq_true] at hbits
  exact ⟨isAlphabetic_of_testBit hbits.1, isAlphabetic_of_testBit hbits.2⟩

end CaseRun

/-- A table moves a code point by the distance of one of its runs. -/
theorem exists_run_of_shiftIn {runs : List CaseRun} {n : Nat} {shift : Int}
    (h : shiftIn runs n = some shift) : ∃ run ∈ runs, run.Moves n ∧ run.shift = shift := by
  induction runs with
  | nil => contradiction
  | cons run rest ih =>
      unfold shiftIn at h
      split at h
      · contradiction
      · split at h
        · split at h
          · rename_i hfirst hlast hstep
            exact ⟨run, List.mem_cons_self, ⟨Nat.not_lt.mp hfirst, hlast, hstep⟩,
              Option.some.inj h⟩
          · contradiction
        · rcases ih h with ⟨other, hother, hmoves⟩
          exact ⟨other, List.mem_cons_of_mem run hother, hmoves⟩

/-- The expansion of a code point is listed. -/
theorem mem_of_expansionIn {expansions : List (Nat × List Nat)} {n : Nat} {image : List Nat}
    (h : expansionIn expansions n = some image) : (n, image) ∈ expansions := by
  induction expansions with
  | nil => contradiction
  | cons head rest ih =>
      unfold expansionIn at h
      split at h
      · contradiction
      · split at h
        · rename_i heq
          rw [← Option.some.inj h, heq]
          exact List.mem_cons_self
        · exact List.mem_cons_of_mem head (ih h)

/-! ## Images -/

/-- An image that is listed, or a single letter for a letter, or the character itself. -/
inductive ImageOf (expansions : List (Nat × List Nat)) (c : Char) : List Char → Prop
  | expansion {image : List Nat} (hlisted : (c.toNat, image) ∈ expansions) :
      ImageOf expansions c (image.map Char.ofNat)
  | letter {other : Char} (hsource : isAlphabetic c = true) (himage : isAlphabetic other = true) :
      ImageOf expansions c [other]
  | same : ImageOf expansions c [c]

/-- Where runs take letters to letters, a case mapping has images of these kinds only. -/
theorem imageOf_mapCase {expansions : List (Nat × List Nat)} {runs : List CaseRun}
    (hruns : runs.all CaseRun.staysAlphabetic = true) (c : Char) :
    ImageOf expansions c (mapCase expansions runs c) := by
  unfold mapCase
  cases hexpansion : expansionIn expansions c.toNat with
  | some image => exact .expansion (mem_of_expansionIn hexpansion)
  | none =>
      cases hshift : shiftIn runs c.toNat with
      | none => exact .same
      | some shift =>
          rcases exists_run_of_shiftIn hshift with ⟨run, hrun, hmoves, rfl⟩
          have hletters := hmoves.isAlphabetic (List.all_eq_true.mp hruns run hrun)
          rw [Char.ofNat_toNat] at hletters
          exact .letter hletters.1 hletters.2

/-- The runs of both tables take letters to letters. -/
theorem staysAlphabetic_runs :
    upperRuns.all CaseRun.staysAlphabetic = true ∧
      lowerRuns.all CaseRun.staysAlphabetic = true := by
  decide +kernel

/-- The images of characters in uppercase. -/
theorem imageOf_upperChar (c : Char) : ImageOf upperExpansions c (upperChar c) :=
  imageOf_mapCase staysAlphabetic_runs.1 c

/-- The images of characters in lowercase. -/
theorem imageOf_lowerChar (c : Char) : ImageOf lowerExpansions c (lowerChar c) :=
  imageOf_mapCase staysAlphabetic_runs.2 c

/-- Expansions in uppercase are of letters and begin with one, and have no dots. -/
theorem upperExpansions_letters : ∀ expansion ∈ upperExpansions,
    isAlphabetic (Char.ofNat expansion.1) = true ∧
      (∃ first rest, expansion.2.map Char.ofNat = first :: rest ∧ isAlphabetic first = true) ∧
      '.' ∉ expansion.2.map Char.ofNat := by
  have hbits : ∀ expansion ∈ upperExpansions,
      alphabeticRanges.mask.testBit expansion.1 = true ∧
        expansion.2.head?.any alphabeticRanges.mask.testBit = true ∧
        '.' ∉ expansion.2.map Char.ofNat := by
    decide +kernel
  rintro ⟨source, image⟩ hlisted
  rcases hbits _ hlisted with ⟨hsource, hhead, hdot⟩
  refine ⟨isAlphabetic_of_testBit hsource, ?_, hdot⟩
  cases image with
  | nil => simp only [List.head?_nil, Option.any_none, Bool.false_eq_true] at hhead
  | cons first rest =>
      rw [List.head?_cons, Option.any_some] at hhead
      exact ⟨Char.ofNat first, rest.map Char.ofNat, rfl, isAlphabetic_of_testBit hhead⟩

/-- The only expansion in lowercase has no dot. -/
theorem lowerExpansions_dotted : ∀ expansion ∈ lowerExpansions,
    Char.ofNat expansion.1 = 'İ' ∧ expansion.2.map Char.ofNat = ['i', '\u0307'] := by
  decide +kernel

end Text

namespace Name

open Text

/-- Letters may stand in identifiers. -/
theorem isIdentifierChar_of_isAlphabetic {c : Char} (h : isAlphabetic c = true) :
    isIdentifierChar c = true := by
  simp [isIdentifierChar, h]

/-- What is legal in uppercase is legal itself. -/
theorem isIdentifierChar_of_upperChar {c : Char}
    (h : (upperChar c).all isIdentifierChar = true) : isIdentifierChar c = true := by
  have himage := imageOf_upperChar c
  generalize upperChar c = image at h himage
  cases himage with
  | expansion hlisted =>
      have hletter := (upperExpansions_letters _ hlisted).1
      rw [Char.ofNat_toNat] at hletter
      exact isIdentifierChar_of_isAlphabetic hletter
  | letter hsource _ => exact isIdentifierChar_of_isAlphabetic hsource
  | same => simpa using h

/-- A letter begins with a letter in uppercase. -/
theorem exists_head_upperChar {c : Char} (h : isAlphabetic c = true) :
    ∃ first rest, upperChar c = first :: rest ∧ isAlphabetic first = true := by
  have himage := imageOf_upperChar c
  generalize upperChar c = image at himage
  cases himage with
  | expansion hlisted => exact (upperExpansions_letters _ hlisted).2.1
  | @letter other _ hletter => exact ⟨other, [], rfl, hletter⟩
  | same => exact ⟨c, [], rfl, h⟩

/-- No other character becomes a dot in uppercase. -/
theorem dot_notMem_upperChar {c : Char} (h : c ≠ '.') : '.' ∉ upperChar c := by
  have himage := imageOf_upperChar c
  generalize upperChar c = image at himage
  cases himage with
  | expansion hlisted => exact (upperExpansions_letters _ hlisted).2.2
  | letter _ hletter =>
      rw [List.mem_singleton]
      rintro rfl
      exact absurd hletter (by decide)
  | same => simpa using Ne.symm h

/-- No other character becomes a dot in lowercase. -/
theorem dot_notMem_lowerChar {c : Char} (h : c ≠ '.') : '.' ∉ lowerChar c := by
  have himage := imageOf_lowerChar c
  generalize lowerChar c = image at himage
  cases himage with
  | expansion hlisted =>
      rw [(lowerExpansions_dotted _ hlisted).2]
      decide
  | letter _ hletter =>
      rw [List.mem_singleton]
      rintro rfl
      exact absurd hletter (by decide)
  | same => simpa using Ne.symm h

/-- All characters but {lit}`İ` are as legal in lowercase as they are themselves. -/
theorem all_lowerChar_iff {c : Char} :
    (lowerChar c).all isIdentifierChar = true ↔ isIdentifierChar c = true ∧ c ≠ 'İ' := by
  by_cases hdotted : c = 'İ'
  · subst hdotted
    simp only [ne_eq, not_true_eq_false, and_false, iff_false]
    decide
  · have himage := imageOf_lowerChar c
    generalize lowerChar c = image at himage
    simp only [ne_eq, hdotted, not_false_eq_true, and_true]
    cases himage with
    | expansion hlisted =>
        have hsource := (lowerExpansions_dotted _ hlisted).1
        rw [Char.ofNat_toNat] at hsource
        contradiction
    | letter hsource hletter =>
        simp [isIdentifierChar_of_isAlphabetic hsource, isIdentifierChar_of_isAlphabetic hletter]
    | same => simp

/-! ## Words -/

/-- All words but those with {lit}`İ` are as legal in lowercase as they are themselves. -/
theorem all_lowercaseAfter_iff {word : List Char} {casedBefore : Bool} :
    (lowercaseAfter casedBefore word).all isIdentifierChar = true ↔
      ∀ c ∈ word, isIdentifierChar c = true ∧ c ≠ 'İ' := by
  induction word generalizing casedBefore with
  | nil => simp [lowercaseAfter]
  | cons c rest ih =>
      rw [lowercaseAfter, List.all_append, Bool.and_eq_true, ih, List.forall_mem_cons]
      split
      · rename_i hsigma
        subst hsigma
        have hlegal : isIdentifierChar 'Σ' = true ∧ 'Σ' ≠ 'İ' := by decide
        have hsmall : isIdentifierChar 'ς' = true ∧ isIdentifierChar 'σ' = true := by decide
        split <;> simp [hlegal, hsmall]
      · rw [all_lowerChar_iff]

/-- No dot comes up in lowercase. -/
theorem dot_notMem_lowercaseAfter {word : List Char} {casedBefore : Bool} (h : '.' ∉ word) :
    '.' ∉ lowercaseAfter casedBefore word := by
  induction word generalizing casedBefore with
  | nil => exact List.not_mem_nil
  | cons c rest ih =>
      rw [List.mem_cons, not_or] at h
      rw [lowercaseAfter, List.mem_append, not_or]
      refine ⟨?_, ih h.2⟩
      split
      · split <;> decide
      · exact dot_notMem_lowerChar (Ne.symm h.1)

end Name
end ElmBinding
