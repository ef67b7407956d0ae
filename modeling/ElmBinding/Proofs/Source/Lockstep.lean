import ElmBinding.Proofs.Grammar.Parallel
import ElmBinding.Source.Rules
import Mathlib.Data.List.TakeWhile
import Mathlib.Logic.Relation

/-!
# Texts with other comments

A text is a sequence of lexemes: comments, string literals, words and single characters.  Two
places in two texts are abreast of each other if they are behind the same lexemes, except that
what stands in the comments may differ.  Texts whose ends are abreast differ in their comments
alone.

Main results:

- Definition {lit}`lexemeLength`: the lexeme at the front of a text.
- Definition {lit}`Abreast`: places behind the same lexemes.
- Definition {lit}`Inside`: places that are abreast or in the same word.
- Theorem {lit}`Inside.front`: what two texts begin with at such places.
- Theorem {lit}`skip_of_front`: gaps lead from such places to such places.
- Theorems {lit}`parallel_word` and {lit}`parallel_char`: what is read side by side there.
- Theorem {lit}`Inside.literal`: the literals at such places.
-/

namespace ElmBinding
namespace Source

open Grammar

/-! ## Lexemes -/

/--
The number of characters before the closing mark of a quoted text, in which a backslash goes with
the character behind it.
-/
def quotedBody (mark : Char) : List Char → Nat
  | [] => 0
  | '\\' :: _ :: rest => 2 + quotedBody mark rest
  | c :: rest => if c = mark then 0 else 1 + quotedBody mark rest

/-- Whether a character opens and closes a string literal. -/
def isQuote (c : Char) : Bool :=
  c = '"' || c = '\''

/-- The length of a string literal at the front of a text; one that is never closed is none. -/
def literalLength : List Char → Nat
  | [] => 0
  | c :: rest =>
      if isQuote c && (rest.drop (quotedBody c rest)).head? = some c then
        quotedBody c rest + 2
      else
        0

/-- The length of a string literal, word or other character at the front of a text. -/
def tokenLength : List Char → Nat
  | [] => 0
  | c :: rest =>
      if isIdentChar c then
        1 + (rest.takeWhile isIdentChar).length
      else
        max 1 (literalLength (c :: rest))

/-- The length of a comment, string literal, word or other character at the front of a text. -/
def lexemeLength (text : List Char) : Nat :=
  match commentLength text with
  | 0 => tokenLength text
  | more + 1 => more + 1

/-- Two texts that begin with the same lexeme, or with any two comments. -/
inductive SameLexeme : List Char → List Char → Prop
  | comment {text text' : List Char} (hcomment : 0 < commentLength text)
      (hcomment' : 0 < commentLength text') : SameLexeme text text'
  | token {text text' : List Char} (hnone : commentLength text = 0)
      (hnone' : commentLength text' = 0) (hnonempty : text ≠ [])
      (hsame : text.take (tokenLength text) = text'.take (tokenLength text')) :
      SameLexeme text text'

/-- A text without its first lexeme. -/
def behindLexeme (text : List Char) : List Char :=
  text.drop (lexemeLength text)

/-- Two texts that begin with the same lexeme, without it. -/
def Passes (texts rests : List Char × List Char) : Prop :=
  SameLexeme texts.1 texts.2 ∧ rests = (behindLexeme texts.1, behindLexeme texts.2)

/-- Two places in two texts that are behind the same lexemes, and behind any comments. -/
def Abreast (source source' rest rest' : List Char) : Prop :=
  Relation.ReflTransGen Passes (source, source') (rest, rest')

/-- Two texts with the same lexemes, except that what stands in the comments may differ. -/
def Alike (source source' : List Char) : Prop :=
  Abreast source source' [] []

/-! ## Lengths of lexemes -/

/-- A character that begins neither comments nor literals. -/
def isDull (c : Char) : Bool :=
  c ≠ '/' && !isQuote c

/-- A comment begins with a slash. -/
theorem commentLength_of_ne {c : Char} (hc : c ≠ '/') (rest : List Char) :
    commentLength (c :: rest) = 0 := by
  unfold commentLength
  split
  · rename_i heq
    exact absurd (List.cons.inj heq).1 hc
  · rename_i heq
    exact absurd (List.cons.inj heq).1 hc
  · rfl

/-- A character of a class is none that is not of the class. -/
theorem ne_of_class {inClass : Char → Bool} {c : Char} (hc : inClass c = true) (d : Char)
    (hd : inClass d = false) : c ≠ d := by
  rintro rfl
  rw [hd] at hc
  contradiction

/-- What may begin a word is dull. -/
theorem isDull_of_isIdentChar {c : Char} (hc : isIdentChar c = true) : isDull c = true := by
  simp [isDull, isQuote, ne_of_class hc '/' rfl, ne_of_class hc '"' rfl, ne_of_class hc '\'' rfl]

/-- A dull character begins no comment. -/
theorem commentLength_of_isDull {c : Char} (hc : isDull c = true) (rest : List Char) :
    commentLength (c :: rest) = 0 := by
  simp only [isDull, Bool.and_eq_true, decide_eq_true_eq] at hc
  exact commentLength_of_ne hc.1 rest

/-- A dull character begins no literal. -/
theorem literalLength_of_isDull {c : Char} (hc : isDull c = true) (rest : List Char) :
    literalLength (c :: rest) = 0 := by
  simp only [isDull, Bool.and_eq_true, Bool.not_eq_true'] at hc
  simp [literalLength, hc.2]

/-- A dull character that may not stand in words is a lexeme. -/
theorem behindLexeme_of_isDull {c : Char} (hc : isDull c = true) (hword : isIdentChar c = false)
    (rest : List Char) : behindLexeme (c :: rest) = rest := by
  simp [behindLexeme, lexemeLength, commentLength_of_isDull hc, tokenLength, hword,
    literalLength_of_isDull hc]

/-- The lexeme at the front of a text that begins with a comment is the comment. -/
theorem behindLexeme_of_comment {text : List Char} (h : 0 < commentLength text) :
    behindLexeme text = text.drop (commentLength text) := by
  rw [behindLexeme, lexemeLength]
  split
  · omega
  · rename_i heq
    rw [heq]

/-- The first lexeme of a text without a comment in front is its first token. -/
theorem behindLexeme_of_token {text : List Char} (h : commentLength text = 0) :
    behindLexeme text = text.drop (tokenLength text) := by
  rw [behindLexeme, lexemeLength, h]

/-! ## Gaps -/

/-- A text without the gap at its front. -/
def skip (text : List Char) : List Char :=
  text.drop (gapLength text)

/-- Whether a character is a gap or a part of one by itself. -/
def isGapChar (c : Char) : Bool :=
  c = ' ' || c = '\t' || c = '\n' || c = '\r'

/-- A block comment is closed inside the text. -/
theorem closingLength?_le {text : List Char} {length : Nat}
    (h : closingLength? text = some length) : length ≤ text.length := by
  induction text using closingLength?.induct generalizing length with
  | case1 => simp [closingLength?] at h
  | case2 rest =>
      simp only [closingLength?, Option.some.injEq] at h
      simp [← h]
  | case3 c rest hmark ih =>
      rw [closingLength?] at h
      · rcases Option.map_eq_some_iff.mp h with ⟨more, hmore, rfl⟩
        have hle := ih hmore
        rw [List.length_cons]
        omega
      · exact hmark

/-- A comment is a part of the text. -/
theorem commentLength_le (text : List Char) : commentLength text ≤ text.length := by
  unfold commentLength
  split
  · rename_i rest
    have hle := (List.takeWhile_sublist (p := isInLine) (l := rest)).length_le
    simp only [List.length_cons]
    omega
  · rename_i rest
    cases hclosing : closingLength? rest with
    | none => simp
    | some length =>
        have hle := closingLength?_le hclosing
        simp only [Option.elim_some, List.length_cons]
        omega
  · exact Nat.zero_le _

/-- The rest of a separator goes with the gap behind it. -/
theorem gapLengthFrom_eq {known : Nat} {text : List Char} (h : known ≤ text.length) :
    gapLengthFrom known text = known + gapLength (text.drop known) := by
  induction known generalizing text with
  | zero => rw [Nat.zero_add, List.drop_zero, gapLength]
  | succ known ih =>
      cases text with
      | nil => simp at h
      | cons c rest =>
          rw [gapLengthFrom, ih (Nat.le_of_succ_le_succ h), List.drop_succ_cons]
          omega

/-- A separator at the front of a text goes with the gap behind it. -/
theorem skip_of_separator {text : List Char} (hpos : 0 < separatorLength text)
    (hle : separatorLength text ≤ text.length) :
    skip text = skip (text.drop (separatorLength text)) := by
  cases text with
  | nil => simp at hle; omega
  | cons c rest =>
      rw [skip, gapLength, gapLengthFrom]
      generalize hlength : separatorLength (c :: rest) = length at hpos hle
      cases length with
      | zero => omega
      | succ more =>
          change (c :: rest).drop (1 + gapLengthFrom more rest) = _
          rw [gapLengthFrom_eq (Nat.le_of_succ_le_succ hle), List.drop_succ_cons, skip,
            List.drop_drop, Nat.add_comm 1, List.drop_succ_cons]

/-- Without a separator at the front there is no gap. -/
theorem gapLength_of_separator {text : List Char} (h : separatorLength text = 0) :
    gapLength text = 0 := by
  cases text with
  | nil => rfl
  | cons c rest => rw [gapLength, gapLengthFrom, h]

/-- A comment at the front of a text goes with the gap behind it. -/
theorem skip_comment {text : List Char} (h : 0 < commentLength text) :
    skip text = skip (text.drop (commentLength text)) := by
  have hblank : blankLength text = 0 := by
    unfold commentLength at h
    split at h
    · rfl
    · rfl
    · contradiction
  have hlength : separatorLength text = commentLength text := by rw [separatorLength, hblank]
  rw [← hlength]
  exact skip_of_separator (by omega) (by rw [hlength]; exact commentLength_le text)

/-- A blank at the front of a text goes with the gap behind it. -/
theorem skip_blank {c : Char} (hc : isGapChar c = true) (rest : List Char) :
    skip (c :: rest) = skip rest := by
  have hone : ∀ {c rest}, separatorLength (c :: rest) = 1 → skip (c :: rest) = skip rest := by
    intro c rest h
    rw [skip_of_separator (by omega) (by rw [h]; simp), h, List.drop_one, List.tail_cons]
  simp only [isGapChar, Bool.or_eq_true, decide_eq_true_eq] at hc
  rcases hc with ((rfl | rfl) | rfl) | rfl
  · exact hone rfl
  · exact hone rfl
  · exact hone rfl
  · -- A carriage return takes a line feed behind it along, which would be a gap by itself.
    cases rest with
    | nil => exact hone rfl
    | cons d rest =>
        by_cases hd : d = '\n'
        · subst hd
          have htwo : separatorLength ('\r' :: '\n' :: rest) = 2 := rfl
          rw [skip_of_separator (by omega) (by rw [htwo]; simp), htwo, hone rfl]
          rfl
        · exact hone (by simp [separatorLength, blankLength, newlineLength, hd])

/-- Any other character at the front of a text is behind no gap. -/
theorem gapLength_of_not_gapChar {c : Char} {rest : List Char} (hc : isGapChar c = false)
    (hnone : commentLength (c :: rest) = 0) : gapLength (c :: rest) = 0 := by
  simp only [isGapChar, Bool.or_eq_false_iff, decide_eq_false_iff_not] at hc
  apply gapLength_of_separator
  simp [separatorLength, blankLength, newlineLength, hc, hnone]

/-- Induction over the gap at the front of a text. -/
theorem gap_induction {motive : List Char → Prop} (nil : motive [])
    (comment : ∀ text, 0 < commentLength text → motive (text.drop (commentLength text)) →
      motive text)
    (blank : ∀ c rest, isGapChar c = true → motive rest → motive (c :: rest))
    (other : ∀ c rest, isGapChar c = false → commentLength (c :: rest) = 0 → motive (c :: rest))
    (text : List Char) : motive text := by
  induction hlength : text.length using Nat.strongRecOn generalizing text with
  | ind length ih =>
      subst hlength
      by_cases hcomment : 0 < commentLength text
      · refine comment text hcomment (ih _ ?_ _ rfl)
        have hle := commentLength_le text
        rw [List.length_drop]
        omega
      · cases text with
        | nil => exact nil
        | cons c rest =>
            by_cases hc : isGapChar c = true
            · exact blank c rest hc (ih _ (Nat.lt_succ_self _) rest rfl)
            · exact other c rest (by simpa using hc) (by omega)

/-- Behind a gap there is no other. -/
theorem gapLength_skip (text : List Char) : gapLength (skip text) = 0 := by
  induction text using gap_induction with
  | nil => rfl
  | comment text hcomment ih => rw [skip_comment hcomment, ih]
  | blank c rest hc ih => rw [skip_blank hc, ih]
  | other c rest hc hnone =>
      have hgap := gapLength_of_not_gapChar hc hnone
      rw [skip, hgap, List.drop_zero, hgap]

/-- Behind a gap nothing more is skipped. -/
theorem skip_skip (text : List Char) : skip (skip text) = skip text := by
  rw [skip, gapLength_skip, List.drop_zero]

/-! ## Fronts -/

/--
What two texts that are related begin with: nothing, comments, or the same character.  They are
related again behind the comments, and behind the character if it is of some class.
-/
inductive Front (steps : Char → Bool) (related : List Char → List Char → Prop) :
    List Char → List Char → Prop
  | ended : Front steps related [] []
  | comment {text text' : List Char} (hcomment : 0 < commentLength text)
      (hcomment' : 0 < commentLength text')
      (hrest : related (text.drop (commentLength text)) (text'.drop (commentLength text'))) :
      Front steps related text text'
  | char {c : Char} {rest rest' : List Char} (hnone : commentLength (c :: rest) = 0)
      (hnone' : commentLength (c :: rest') = 0) (hrest : steps c = true → related rest rest') :
      Front steps related (c :: rest) (c :: rest')

/-- Of fewer characters less has to hold. -/
theorem Front.mono {steps steps' : Char → Bool} {related : List Char → List Char → Prop}
    {text text' : List Char} (h : Front steps related text text')
    (hsteps : ∀ {c}, steps' c = true → steps c = true) : Front steps' related text text' := by
  cases h with
  | ended => exact .ended
  | comment hcomment hcomment' hrest => exact .comment hcomment hcomment' hrest
  | char hnone hnone' hrest => exact .char hnone hnone' fun hc => hrest (hsteps hc)

/-- Texts that are related behind blanks and comments are related behind gaps. -/
theorem skip_of_front {related : List Char → List Char → Prop}
    (hfront : ∀ {text text'}, related text text' → Front isGapChar related text text')
    {text text' : List Char} (h : related text text') : related (skip text) (skip text') := by
  induction text using gap_induction generalizing text' with
  | nil =>
      cases hfront h with
      | ended => exact h
      | comment hcomment _ _ => contradiction
  | comment text hcomment ih =>
      cases hfront h with
      | ended => contradiction
      | comment _ hcomment' hrest =>
          rw [skip_comment hcomment, skip_comment hcomment']
          exact ih hrest
      | char hnone _ _ => omega
  | blank c rest hc ih =>
      cases hfront h with
      | comment hcomment _ _ =>
          rw [commentLength_of_ne] at hcomment
          · contradiction
          · rintro rfl
            contradiction
      | char _ _ hrest =>
          rw [skip_blank hc, skip_blank hc]
          exact ih (hrest hc)
  | other c rest hc hnone =>
      cases hfront h with
      | comment hcomment _ _ => omega
      | char _ hnone' _ =>
          rw [skip, skip, gapLength_of_not_gapChar hc hnone, gapLength_of_not_gapChar hc hnone']
          exact h

/-- What two texts begin with, the other way round. -/
theorem Front.symm {steps : Char → Bool} {related : List Char → List Char → Prop}
    {text text' : List Char} (h : Front steps related text text') :
    Front steps (fun rest' rest => related rest rest') text' text := by
  cases h with
  | ended => exact .ended
  | comment hcomment hcomment' hrest => exact .comment hcomment' hcomment hrest
  | char hnone hnone' hrest => exact .char hnone' hnone hrest

/-- A text with a comment in front begins with a slash. -/
theorem exists_of_comment {text : List Char} (h : 0 < commentLength text) :
    ∃ rest, text = '/' :: rest := by
  cases text with
  | nil => contradiction
  | cons c rest =>
      by_cases hc : c = '/'
      · exact ⟨rest, by rw [hc]⟩
      · rw [commentLength_of_ne hc] at h
        contradiction

/-- Any character but a slash in front of one text is in front of the other. -/
theorem Front.of_cons {steps : Char → Bool} {related : List Char → List Char → Prop} {c : Char}
    {rest text' : List Char} (hc : c ≠ '/') (h : Front steps related (c :: rest) text') :
    ∃ rest', text' = c :: rest' ∧ (steps c = true → related rest rest') := by
  cases h with
  | comment hcomment _ _ =>
      rw [commentLength_of_ne hc] at hcomment
      contradiction
  | @char _ _ rest' _ _ hrest => exact ⟨rest', rfl, hrest⟩

section Fronts

variable {steps : Char → Bool} {related : List Char → List Char → Prop}
  {gaps : List Char → Nat} {call : Rule → Cursor → Outcome Rule} {texts : Rule → Bool}
  {exact : Prop}

/--
Characters in front of one text are in front of the other, if none is a slash and all but the last
one are of the class.
-/
theorem exists_of_append {text more rest' : List Char}
    (hfront : ∀ {rest rest'}, related rest rest' → Front steps related rest rest')
    (hslash : ∀ c ∈ text, c ≠ '/') (hsteps : ∀ c ∈ text.dropLast, steps c = true)
    (h : related (text ++ more) rest') : ∃ more', rest' = text ++ more' := by
  induction text generalizing rest' with
  | nil => exact ⟨rest', rfl⟩
  | cons c text ih =>
      rcases List.forall_mem_cons.mp hslash with ⟨hc, hothers⟩
      rcases (hfront h).of_cons hc with ⟨rest', rfl, hrest⟩
      cases text with
      | nil => exact ⟨rest', rfl⟩
      | cons d text =>
          rw [List.dropLast_cons_of_ne_nil (by simp)] at hsteps
          rcases List.forall_mem_cons.mp hsteps with ⟨hfirst, hsteps⟩
          rcases ih hothers hsteps (hrest hfirst) with ⟨more', rfl⟩
          exact ⟨more', rfl⟩

/-- Behind the same characters of the class two texts are related again. -/
theorem related_of_append {text more more' : List Char}
    (hfront : ∀ {rest rest'}, related rest rest' → Front steps related rest rest')
    (htext : ∀ c ∈ text, c ≠ '/' ∧ steps c = true) (h : related (text ++ more) (text ++ more')) :
    related more more' := by
  induction text with
  | nil => exact h
  | cons c text ih =>
      rcases List.forall_mem_cons.mp htext with ⟨⟨hc, hsteps⟩, hothers⟩
      rcases (hfront h).of_cons hc with ⟨rest', heq, hrest⟩
      obtain rfl := (List.cons.inj heq).2
      exact ih hothers (hrest hsteps)

/-- A fixed text without slashes is read side by side. -/
theorem parallel_word {text : String} {post : List Char → List Char → Prop}
    (hfront : ∀ {rest rest'}, related rest rest' → Front steps related rest rest')
    (hslash : ∀ c ∈ text.toList, c ≠ '/') (hsteps : ∀ c ∈ text.toList.dropLast, steps c = true)
    (hpost : ∀ {more more'}, related (text.toList ++ more) (text.toList ++ more') →
      post more more') :
    Parallel gaps call texts exact related (.word text) post := by
  refine Parallel.word fun {rest rest'} h => ⟨⟨?_, ?_⟩, ?_⟩
  · rintro ⟨more, rfl⟩
    rcases exists_of_append hfront hslash hsteps h with ⟨more', rfl⟩
    exact List.prefix_append _ _
  · rintro ⟨more', rfl⟩
    rcases exists_of_append (fun h => (hfront h).symm) hslash hsteps h with ⟨more, rfl⟩
    exact List.prefix_append _ _
  · rintro more more' rfl rfl
    exact hpost h

/-- A class of characters without slashes is read side by side. -/
theorem parallel_char {inClass : Char → Bool}
    (hfront : ∀ {rest rest'}, related rest rest' → Front steps related rest rest')
    (hclass : ∀ c, inClass c = true → c ≠ '/' ∧ steps c = true) :
    Parallel gaps call texts exact related (.char inClass) related := by
  refine Parallel.char fun hrelated => ?_
  have hslash : inClass '/' = false := by
    rw [Bool.eq_false_iff]
    exact fun h => (hclass '/' h).1 rfl
  cases hfront hrelated with
  | ended => exact Or.inr ⟨rfl, rfl⟩
  | comment hcomment hcomment' _ =>
      rcases exists_of_comment hcomment with ⟨more, rfl⟩
      rcases exists_of_comment hcomment' with ⟨more', rfl⟩
      exact Or.inr ⟨hslash, hslash⟩
  | @char c more more' _ _ hrest =>
      by_cases hc : inClass c = true
      · exact Or.inl ⟨c, hc, more, more', rfl, rfl, hrest (hclass c hc).2⟩
      · have hnone : inClass c = false := by simpa using hc
        exact Or.inr ⟨hnone, hnone⟩

/-- The ends of texts are read side by side. -/
theorem parallel_finish
    (hfront : ∀ {rest rest'}, related rest rest' → Front steps related rest rest') :
    Parallel gaps call texts exact related .finish related := by
  refine Parallel.finish fun hrelated => ?_
  cases hfront hrelated with
  | ended => exact ⟨fun _ => rfl, fun _ => rfl⟩
  | comment hcomment hcomment' _ =>
      rcases exists_of_comment hcomment with ⟨more, rfl⟩
      rcases exists_of_comment hcomment' with ⟨more', rfl⟩
      simp
  | char _ _ _ => simp

end Fronts

/-! ## Places in step -/

/-- A literal has its quotes at least, and is a part of the text. -/
theorem literalLength_bounds {text : List Char} (h : literalLength text ≠ 0) :
    2 ≤ literalLength text ∧ literalLength text ≤ text.length := by
  cases text with
  | nil => contradiction
  | cons c rest =>
      rw [literalLength] at h ⊢
      split at h
      · rename_i hclosed
        rw [if_pos hclosed]
        simp only [Bool.and_eq_true, decide_eq_true_eq] at hclosed
        have hhead := hclosed.2
        rw [List.head?_drop] at hhead
        have hless := (List.getElem?_eq_some_iff.mp hhead).1
        rw [List.length_cons]
        omega
      · contradiction

/-- A token is a part of the text. -/
theorem tokenLength_le (text : List Char) : tokenLength text ≤ text.length := by
  cases text with
  | nil => exact Nat.le_refl 0
  | cons c rest =>
      rw [tokenLength]
      split
      · have hle := (List.takeWhile_sublist (p := isIdentChar) (l := rest)).length_le
        rw [List.length_cons]
        omega
      · by_cases hliteral : literalLength (c :: rest) = 0
        · rw [hliteral, List.length_cons]
          omega
        · have hbounds := literalLength_bounds hliteral
          omega

/-- A text that is not empty begins with a token. -/
theorem tokenLength_pos {text : List Char} (h : text ≠ []) : 0 < tokenLength text := by
  cases text with
  | nil => contradiction
  | cons c rest =>
      rw [tokenLength]
      split <;> omega

variable {source source' rest rest' : List Char}

/-- What is behind the same lexemes is determined by what was in front of them. -/
theorem passes_rightUnique : Relator.RightUnique Passes := by
  rintro texts rests others ⟨-, rfl⟩ ⟨-, rfl⟩
  rfl

/-- Behind the same lexemes again. -/
theorem Abreast.next (h : Abreast source source' rest rest') (hsame : SameLexeme rest rest') :
    Abreast source source' (behindLexeme rest) (behindLexeme rest') :=
  Relation.ReflTransGen.tail h ⟨hsame, rfl⟩

/-- Where two texts are in step to their ends, the same lexeme comes next, or both have ended. -/
theorem Abreast.sameLexeme (halike : Alike source source')
    (h : Abreast source source' rest rest') :
    (rest = [] ∧ rest' = []) ∨ SameLexeme rest rest' := by
  rcases Relation.ReflTransGen.total_of_right_unique passes_rightUnique h halike with hon | hback
  · rcases Relation.ReflTransGen.cases_head hon with heq | ⟨next, ⟨hsame, -⟩, -⟩
    · exact Or.inl ⟨congrArg Prod.fst heq, congrArg Prod.snd heq⟩
    · exact Or.inr hsame
  · rcases Relation.ReflTransGen.cases_head hback with heq | ⟨next, ⟨hsame, -⟩, -⟩
    · exact Or.inl ⟨(congrArg Prod.fst heq).symm, (congrArg Prod.snd heq).symm⟩
    · cases hsame with
      | comment hcomment _ => contradiction
      | token _ _ hnonempty _ => contradiction

/-- Two places in two texts that are abreast, or have the same rest of a word before them. -/
def Inside (source source' rest rest' : List Char) : Prop :=
  ∃ word more more', (∀ c ∈ word, isIdentChar c = true) ∧ rest = word ++ more ∧
    rest' = word ++ more' ∧ Abreast source source' more more'

/-- Places that are abreast. -/
theorem Abreast.inside (h : Abreast source source' rest rest') :
    Inside source source' rest rest' :=
  ⟨[], rest, rest', by simp, rfl, rfl, h⟩

/-- Before a character that may not stand in words, places inside of words are abreast. -/
theorem Inside.abreast {c : Char} (hc : isIdentChar c = false)
    (h : Inside source source' (c :: rest) rest') : Abreast source source' (c :: rest) rest' := by
  rcases h with ⟨word, more, more', hword, hrest, rfl, h⟩
  cases word with
  | nil =>
      rw [hrest]
      exact h
  | cons d word =>
      have hd := hword d List.mem_cons_self
      rw [← (List.cons.inj hrest).1, hc] at hd
      contradiction

/-- Whether a character is a lexeme by itself wherever it stands between comments and literals. -/
def isMark (c : Char) : Bool :=
  isDull c && !isIdentChar c

/-- Blanks and line breaks are marks. -/
theorem isMark_of_isGapChar {c : Char} (hc : isGapChar c = true) : isMark c = true := by
  simp only [isGapChar, Bool.or_eq_true, decide_eq_true_eq] at hc
  rcases hc with ((rfl | rfl) | rfl) | rfl <;> decide

/-- The word at the front of a text is a token. -/
theorem tokenLength_word {c : Char} (hc : isIdentChar c = true) (rest : List Char) :
    (c :: rest).take (tokenLength (c :: rest)) = c :: rest.takeWhile isIdentChar ∧
      (c :: rest).drop (tokenLength (c :: rest)) = rest.dropWhile isIdentChar := by
  have hlength : tokenLength (c :: rest) = (rest.takeWhile isIdentChar).length + 1 := by
    rw [tokenLength, if_pos hc, Nat.add_comm]
  have htake := List.prefix_iff_eq_take.mp (List.takeWhile_prefix isIdentChar (l := rest))
  have hsplit := List.takeWhile_append_dropWhile (p := isIdentChar) (l := rest)
  rw [hlength, List.take_succ_cons, List.drop_succ_cons, ← htake]
  refine ⟨rfl, ?_⟩
  calc rest.drop (rest.takeWhile isIdentChar).length
      = (rest.takeWhile isIdentChar ++ rest.dropWhile isIdentChar).drop
          (rest.takeWhile isIdentChar).length := by rw [hsplit]
    _ = rest.dropWhile isIdentChar := List.drop_left

/-- The same token in front of two texts begins with the same character. -/
theorem exists_of_sameToken (hnonempty : rest ≠ [])
    (hsame : rest.take (tokenLength rest) = rest'.take (tokenLength rest')) :
    ∃ c more more', rest = c :: more ∧ rest' = c :: more' := by
  have hpos := tokenLength_pos hnonempty
  cases rest with
  | nil => contradiction
  | cons c more =>
      rcases Nat.exists_eq_succ_of_ne_zero (Nat.pos_iff_ne_zero.mp hpos) with ⟨length, hlength⟩
      rw [hlength, List.take_succ_cons] at hsame
      cases rest' with
      | nil => simp at hsame
      | cons d more' =>
          have hpos' : 0 < tokenLength (d :: more') := tokenLength_pos (by simp)
          rcases Nat.exists_eq_succ_of_ne_zero (Nat.pos_iff_ne_zero.mp hpos') with
            ⟨length', hlength'⟩
          rw [hlength', List.take_succ_cons] at hsame
          rw [(List.cons.inj hsame).1]
          exact ⟨d, more, more', rfl, rfl⟩

/-- What two texts begin with at places that are abreast. -/
theorem Abreast.front (halike : Alike source source') (h : Abreast source source' rest rest') :
    Front isMark (Abreast source source') rest rest' := by
  rcases h.sameLexeme halike with ⟨rfl, rfl⟩ | hsame
  · exact .ended
  · have hnext := h.next hsame
    cases hsame with
    | comment hcomment hcomment' =>
        rw [behindLexeme_of_comment hcomment, behindLexeme_of_comment hcomment'] at hnext
        exact .comment hcomment hcomment' hnext
    | token hnone hnone' hnonempty hsame =>
        rcases exists_of_sameToken hnonempty hsame with ⟨c, more, more', rfl, rfl⟩
        refine .char hnone hnone' fun hc => ?_
        simp only [isMark, Bool.and_eq_true, Bool.not_eq_true'] at hc
        rw [behindLexeme_of_isDull hc.1 hc.2, behindLexeme_of_isDull hc.1 hc.2] at hnext
        exact hnext

/-- Behind the first character of a word at places that are abreast, its rest is the same. -/
theorem Abreast.inside_of_word {c : Char} (halike : Alike source source')
    (hc : isIdentChar c = true) (h : Abreast source source' (c :: rest) (c :: rest')) :
    Inside source source' rest rest' := by
  have hnone := commentLength_of_isDull (isDull_of_isIdentChar hc)
  rcases h.sameLexeme halike with ⟨hended, -⟩ | hsame
  · contradiction
  · have hnext := h.next hsame
    rw [behindLexeme_of_token (hnone rest), behindLexeme_of_token (hnone rest'),
      (tokenLength_word hc rest).2, (tokenLength_word hc rest').2] at hnext
    cases hsame with
    | comment hcomment _ =>
        rw [hnone rest] at hcomment
        contradiction
    | token _ _ _ hsame =>
        rw [(tokenLength_word hc rest).1, (tokenLength_word hc rest').1] at hsame
        refine ⟨rest.takeWhile isIdentChar, _, _, fun d hd => List.mem_takeWhile_imp hd,
          List.takeWhile_append_dropWhile.symm, ?_, hnext⟩
        rw [(List.cons.inj hsame).2, List.takeWhile_append_dropWhile]

/-- What two texts begin with at places inside of words or between them. -/
theorem Inside.front (halike : Alike source source') (h : Inside source source' rest rest') :
    Front isDull (Inside source source') rest rest' := by
  rcases h with ⟨word, more, more', hword, rfl, rfl, h⟩
  cases word with
  | cons c word =>
      rcases List.forall_mem_cons.mp hword with ⟨hc, hothers⟩
      have hdull := isDull_of_isIdentChar hc
      exact .char (commentLength_of_isDull hdull _) (commentLength_of_isDull hdull _)
        fun _ => ⟨word, more, more', hothers, rfl, rfl, h⟩
  | nil =>
      rw [List.nil_append, List.nil_append]
      have hfront := h.front halike
      cases hfront with
      | ended => exact .ended
      | comment hcomment hcomment' hrest => exact .comment hcomment hcomment' hrest.inside
      | @char c rest rest' hnone hnone' hrest =>
          refine .char hnone hnone' fun hdull => ?_
          by_cases hc : isIdentChar c = true
          · exact h.inside_of_word halike hc
          · exact (hrest (by simp [isMark, hdull, hc])).inside

/-- Behind the same mark at places that are abreast, places are abreast. -/
theorem Abreast.of_mark {c : Char} (halike : Alike source source') (hc : isMark c = true)
    (h : Abreast source source' (c :: rest) (c :: rest')) : Abreast source source' rest rest' := by
  have hfront := h.front halike
  cases hfront with
  | comment hcomment _ _ =>
      rw [commentLength_of_isDull (Bool.and_eq_true_iff.mp hc).1] at hcomment
      contradiction
  | char _ _ hrest => exact hrest hc

/-- Gaps lead from places that are abreast to places that are abreast. -/
theorem Abreast.skip (halike : Alike source source') (h : Abreast source source' rest rest') :
    Abreast source source' (Source.skip rest) (Source.skip rest') :=
  skip_of_front (fun h => (h.front halike).mono isMark_of_isGapChar) h

/-- Gaps lead from places inside of words or between them to such places. -/
theorem Inside.skip (halike : Alike source source') (h : Inside source source' rest rest') :
    Inside source source' (Source.skip rest) (Source.skip rest') :=
  skip_of_front (fun h => (h.front halike).mono fun hc =>
    (Bool.and_eq_true_iff.mp (isMark_of_isGapChar hc)).1) h

/-! ## Comparing texts -/

/-- There is no lexeme at the end of a text. -/
theorem SameLexeme.ne_nil (h : SameLexeme rest rest') : rest ≠ [] := by
  cases h with
  | comment hcomment _ =>
      rintro rfl
      contradiction
  | token _ _ hnonempty _ => exact hnonempty

/-- A lexeme is not empty. -/
theorem length_behindLexeme {text : List Char} (h : text ≠ []) :
    (behindLexeme text).length < text.length := by
  have hpos : 0 < lexemeLength text := by
    unfold lexemeLength
    split
    · exact tokenLength_pos h
    · omega
  have hlength := List.length_pos_iff.mpr h
  rw [behindLexeme, List.length_drop]
  omega

instance (text text' : List Char) : Decidable (SameLexeme text text') :=
  decidable_of_iff
    ((0 < commentLength text ∧ 0 < commentLength text') ∨
      (commentLength text = 0 ∧ commentLength text' = 0 ∧ text ≠ [] ∧
        text.take (tokenLength text) = text'.take (tokenLength text'))) (by
    constructor
    · rintro (⟨hcomment, hcomment'⟩ | ⟨hnone, hnone', hnonempty, hsame⟩)
      · exact .comment hcomment hcomment'
      · exact .token hnone hnone' hnonempty hsame
    · intro h
      cases h with
      | comment hcomment hcomment' => exact Or.inl ⟨hcomment, hcomment'⟩
      | token hnone hnone' hnonempty hsame => exact Or.inr ⟨hnone, hnone', hnonempty, hsame⟩)

/-- Whether two texts have the same lexemes but for comments, and no more than a number of them. -/
def isAlike : Nat → List Char → List Char → Bool
  | 0, text, text' => text.isEmpty && text'.isEmpty
  | count + 1, text, text' =>
      (text.isEmpty && text'.isEmpty) ||
        (decide (SameLexeme text text') && isAlike count (behindLexeme text) (behindLexeme text'))

/-- Two texts are alike if both are empty, or if they are alike behind the same lexeme. -/
theorem alike_iff_head (text text' : List Char) :
    Alike text text' ↔ (text = [] ∧ text' = []) ∨
      (SameLexeme text text' ∧ Alike (behindLexeme text) (behindLexeme text')) := by
  rw [Alike, Abreast, Relation.ReflTransGen.cases_head_iff, Prod.mk.injEq]
  constructor
  · rintro (hended | ⟨_, ⟨hsame, rfl⟩, hrest⟩)
    · exact Or.inl hended
    · exact Or.inr ⟨hsame, hrest⟩
  · rintro (hended | ⟨hsame, hrest⟩)
    · exact Or.inl hended
    · exact Or.inr ⟨_, ⟨hsame, rfl⟩, hrest⟩

/-- As many lexemes as there are characters are enough. -/
theorem alike_iff {count : Nat} {text : List Char} (hcount : text.length ≤ count)
    (text' : List Char) : Alike text text' ↔ isAlike count text text' = true := by
  rw [alike_iff_head]
  induction count generalizing text text' with
  | zero =>
      have hended : text = [] := List.length_eq_zero_iff.mp (Nat.le_zero.mp hcount)
      have hnone : ¬SameLexeme text text' := fun hsame => hsame.ne_nil hended
      simp [isAlike, hnone]
  | succ count ih =>
      have hrest : SameLexeme text text' → (Alike (behindLexeme text) (behindLexeme text') ↔
          isAlike count (behindLexeme text) (behindLexeme text') = true) := by
        intro hsame
        have hless := length_behindLexeme hsame.ne_nil
        rw [alike_iff_head]
        exact ih (by omega) _
      simp only [isAlike, Bool.or_eq_true, Bool.and_eq_true, List.isEmpty_iff, decide_eq_true_eq]
      exact or_congr Iff.rfl (and_congr_right hrest)

instance (text text' : List Char) : Decidable (Alike text text') :=
  decidable_of_iff _ (alike_iff (Nat.le_refl text.length) text').symm

/-! ## Literals -/

/-- The same literal in front of two texts, or none in front of either. -/
inductive SameLiteral (source source' : List Char) : List Char → List Char → Prop
  | none {rest rest' : List Char} (hnone : literalLength rest = 0)
      (hnone' : literalLength rest' = 0) : SameLiteral source source' rest rest'
  | literal {rest rest' : List Char} (hpos : 0 < literalLength rest)
      (hlength : literalLength rest' = literalLength rest)
      (hsame : rest.take (literalLength rest) = rest'.take (literalLength rest))
      (hrest : Abreast source source' (rest.drop (literalLength rest))
        (rest'.drop (literalLength rest))) : SameLiteral source source' rest rest'

/-- A literal in front of a text is a token. -/
theorem tokenLength_of_literal {text : List Char} (h : 0 < literalLength text) :
    tokenLength text = literalLength text := by
  cases text with
  | nil => contradiction
  | cons c rest =>
      have hc : isIdentChar c ≠ true := by
        intro hc
        rw [literalLength_of_isDull (isDull_of_isIdentChar hc)] at h
        contradiction
      rw [tokenLength, if_neg hc]
      omega

/-- The same token in front of two texts is the same literal, or no literal. -/
theorem literalLength_eq_of_sameToken (hnonempty : rest ≠ [])
    (hsame : rest.take (tokenLength rest) = rest'.take (tokenLength rest')) :
    literalLength rest' = literalLength rest := by
  rcases exists_of_sameToken hnonempty hsame with ⟨c, more, more', rfl, rfl⟩
  by_cases hc : isIdentChar c = true
  · rw [literalLength_of_isDull (isDull_of_isIdentChar hc),
      literalLength_of_isDull (isDull_of_isIdentChar hc)]
  · have hlength := congrArg List.length hsame
    rw [List.length_take_of_le (tokenLength_le _), List.length_take_of_le (tokenLength_le _),
      tokenLength, tokenLength, if_neg hc, if_neg hc] at hlength
    have hbounds := fun h => (@literalLength_bounds (c :: more) h).1
    have hbounds' := fun h => (@literalLength_bounds (c :: more') h).1
    omega

/-- In front of a comment there is no literal. -/
theorem literalLength_of_comment {text : List Char} (h : 0 < commentLength text) :
    literalLength text = 0 := by
  rcases exists_of_comment h with ⟨rest, rfl⟩
  rw [literalLength, if_neg (by simp [isQuote])]

/-- Places inside of words or between them have the same literal before them, or none. -/
theorem Inside.literal (halike : Alike source source') (h : Inside source source' rest rest') :
    SameLiteral source source' rest rest' := by
  rcases h with ⟨word, more, more', hword, rfl, rfl, h⟩
  cases word with
  | cons c word =>
      have hdull := isDull_of_isIdentChar (hword c List.mem_cons_self)
      exact .none (literalLength_of_isDull hdull _) (literalLength_of_isDull hdull _)
  | nil =>
      rw [List.nil_append, List.nil_append]
      rcases h.sameLexeme halike with ⟨rfl, rfl⟩ | hsame
      · exact .none rfl rfl
      · have hnext := h.next hsame
        cases hsame with
        | comment hcomment hcomment' =>
            exact .none (literalLength_of_comment hcomment) (literalLength_of_comment hcomment')
        | token hnone hnone' hnonempty hsame =>
            have hlength := literalLength_eq_of_sameToken hnonempty hsame
            by_cases hliteral : literalLength more = 0
            · exact .none hliteral (hlength.trans hliteral)
            · have hpos : 0 < literalLength more := Nat.pos_of_ne_zero hliteral
              have htoken := tokenLength_of_literal hpos
              have htoken' := tokenLength_of_literal (hlength ▸ hpos)
              rw [behindLexeme_of_token hnone, behindLexeme_of_token hnone', htoken, htoken',
                hlength] at hnext
              rw [htoken, htoken', hlength] at hsame
              exact .literal hpos hlength hsame hnext

end Source
end ElmBinding
