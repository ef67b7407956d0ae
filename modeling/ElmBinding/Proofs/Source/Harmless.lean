import ElmBinding.Proofs.Source.Passages

/-!
# Passages without harmful literals

A passage is read without regard to string literals.  That makes no difference as long as the
literals in it have no slash, which may seem to begin a comment, and no mark that opens or closes a
passage.  Then what stands in a passage is passed over lexeme by lexeme, and in two texts that
differ in comments alone all passages correspond.

Main results:

- Definition {lit}`HarmlessLiterals`: texts without such literals.
- Theorem {lit}`passagesAlike_of_harmless`: all passages correspond.
-/

namespace ElmBinding
namespace Source

open Grammar

/-- Whether a character opens no comments, closes no passages and opens none inside of others. -/
def isHarmless (c : Char) : Bool :=
  c ∉ ['/', ';', '\x7b', '\x7d']

/-- The places between the lexemes of a text, up to a number of lexemes. -/
def lexemePlaces : Nat → List Char → List (List Char)
  | 0, text => [text]
  | count + 1, text =>
      text :: if text.isEmpty then [] else lexemePlaces count (behindLexeme text)

/-- No string literal between the lexemes of a text has a slash, a semicolon or a brace in it. -/
def HarmlessLiterals (source : List Char) : Prop :=
  ∀ place ∈ lexemePlaces source.length source,
    ∀ c ∈ place.take (literalLength place), isHarmless c = true

instance (source : List Char) : Decidable (HarmlessLiterals source) :=
  decidable_of_iff
    ((lexemePlaces source.length source).all fun place =>
      (place.take (literalLength place)).all isHarmless)
    (by simp only [List.all_eq_true, HarmlessLiterals])

section Harmless

variable {source source' rest rest' : List Char} {passage : Passage} {depth : Nat}

/-- Places behind lexemes are among those between the lexemes. -/
theorem mem_lexemePlaces {texts rests : List Char × List Char}
    (h : Relation.ReflTransGen Passes texts rests) {count : Nat} (hcount : texts.1.length ≤ count) :
    rests.1 ∈ lexemePlaces count texts.1 := by
  induction h using Relation.ReflTransGen.head_induction_on generalizing count with
  | refl => cases count <;> exact List.mem_cons_self
  | @head texts middle hstep _ ih =>
      rcases hstep with ⟨hsame, rfl⟩
      have hless := length_behindLexeme hsame.ne_nil
      cases count with
      | zero => omega
      | succ count =>
          have hle : (behindLexeme texts.1).length ≤ count := by omega
          have hempty : texts.1.isEmpty ≠ true := mt List.isEmpty_iff.mp hsame.ne_nil
          rw [lexemePlaces, if_neg hempty]
          exact List.mem_cons_of_mem _ (ih hle)

/-- What is no harm is plain in every passage. -/
theorem isPlain_of_isHarmless (hmem : passage ∈ passages) {c : Char} (hc : isHarmless c = true) :
    passage.isPlain c = true ∧ c ≠ '/' := by
  simp only [isHarmless, List.mem_cons, List.not_mem_nil, or_false, not_or, decide_eq_true_eq] at hc
  rcases hc with ⟨hslash, hsemicolon, hopening, hclosing⟩
  refine ⟨?_, hslash⟩
  simp only [passages, List.mem_cons, List.not_mem_nil, or_false] at hmem
  rcases hmem with rfl | rfl | rfl | rfl
  · simp [Passage.isPlain, Passage.reserved, hsemicolon]
  · simp [Passage.isPlain, Passage.extensions, hsemicolon]
  · simp [Passage.isPlain, Passage.extendBlock, hclosing]
  · simp [Passage.isPlain, Passage.aggregate, hclosing, hopening]

/-- Characters of words are no harm. -/
theorem isHarmless_of_isIdentChar {c : Char} (hc : isIdentChar c = true) : isHarmless c = true := by
  simp [isHarmless, ne_of_class hc '/' rfl, ne_of_class hc ';' rfl, ne_of_class hc '\x7b' rfl,
    ne_of_class hc '\x7d' rfl]

/-- Plain characters are passed over one by one. -/
theorem passedOver_append {behind : List Char → List Char → Prop} {word : List Char}
    (hword : ∀ c ∈ word, passage.isPlain c = true ∧ c ≠ '/')
    (h : PassedOver passage behind depth rest rest') :
    PassedOver passage behind depth (word ++ rest) (word ++ rest') := by
  induction word with
  | nil => exact h
  | cons c word ih =>
      rcases List.forall_mem_cons.mp hword with ⟨⟨hplain, hslash⟩, hothers⟩
      exact .char hplain (commentLength_of_ne hslash _) (commentLength_of_ne hslash _) (ih hothers)

/-- A character between lexemes is passed over, whatever it is. -/
theorem passedOver_cons {behind : List Char → List Char → Prop} {c : Char}
    (hnone : commentLength (c :: rest) = 0) (hnone' : commentLength (c :: rest') = 0)
    (hbehind : behind rest rest') (hrest : ∀ depth, PassedOver passage behind depth rest rest') :
    PassedOver passage behind depth (c :: rest) (c :: rest') := by
  by_cases hmark : c = passage.mark
  · subst hmark
    cases depth with
    | zero => exact .last hbehind
    | succ depth => exact .closed hbehind (hrest depth)
  · by_cases hopened : passage.nested = true ∧ c = '\x7b'
    · rw [hopened.2]
      exact .opened hopened.1 (hrest (depth + 1))
    · refine .char ?_ hnone hnone' (hrest depth)
      rw [not_and_or, Bool.not_eq_true] at hopened
      simpa [Passage.isPlain, hmark] using hopened

/-- A token with harm in it is a character that is no part of a word or literal. -/
theorem exists_of_harm (hliteral : ∀ c ∈ rest.take (literalLength rest), isHarmless c = true)
    (hharm : ¬∀ c ∈ rest.take (tokenLength rest), isHarmless c = true) :
    ∃ c more, rest = c :: more ∧ tokenLength rest = 1 := by
  cases rest with
  | nil => simp at hharm
  | cons c more =>
      refine ⟨c, more, rfl, ?_⟩
      by_cases hc : isIdentChar c = true
      · rw [(tokenLength_word hc more).1] at hharm
        have hword : ∀ d ∈ c :: more.takeWhile isIdentChar, isIdentChar d = true :=
          List.forall_mem_cons.mpr ⟨hc, fun d hd => List.mem_takeWhile_imp hd⟩
        exact absurd (fun d hd => isHarmless_of_isIdentChar (hword d hd)) hharm
      · by_cases hnone : literalLength (c :: more) = 0
        · rw [tokenLength, if_neg hc, hnone]
          rfl
        · rw [tokenLength_of_literal (Nat.pos_of_ne_zero hnone)] at hharm
          exact absurd hliteral hharm

/-- From places that are abreast a passage is passed over, if no literal does harm. -/
theorem Abreast.passedOver (halike : Alike source source') (hharmless : HarmlessLiterals source)
    (hmem : passage ∈ passages) (h : Abreast source source' rest rest') :
    PassedOver passage (Abreast source source') depth rest rest' := by
  induction hlength : rest.length using Nat.strongRecOn generalizing rest rest' depth with
  | ind length ih =>
      subst hlength
      rcases h.sameLexeme halike with ⟨rfl, rfl⟩ | hsame
      · exact .ended
      · have hnext := h.next hsame
        have hbehind : ∀ depth, PassedOver passage (Abreast source source') depth
            (behindLexeme rest) (behindLexeme rest') := fun depth =>
          ih _ (length_behindLexeme hsame.ne_nil) hnext rfl
        cases hsame with
        | comment hcomment hcomment' =>
            rw [behindLexeme_of_comment hcomment, behindLexeme_of_comment hcomment'] at hbehind
            exact .comment hcomment hcomment' (hbehind depth)
        | token hnone hnone' hnonempty hsame =>
            rw [behindLexeme_of_token hnone, behindLexeme_of_token hnone'] at hbehind hnext
            by_cases hharm : ∀ c ∈ rest.take (tokenLength rest), isHarmless c = true
            · have hall := passedOver_append
                (fun c hc => isPlain_of_isHarmless hmem (hharm c hc)) (hbehind depth)
              rw [List.take_append_drop, hsame, List.take_append_drop] at hall
              exact hall
            · have hplace := hharmless rest (mem_lexemePlaces h (Nat.le_refl _))
              rcases exists_of_harm hplace hharm with ⟨c, more, rfl, hone⟩
              rcases exists_of_sameToken hnonempty hsame with ⟨d, _, more', heq, rfl⟩
              obtain ⟨rfl, -⟩ := List.cons.inj heq
              have hone' : tokenLength (c :: more') = 1 := by
                have hlengths := congrArg List.length hsame
                rw [List.length_take_of_le (tokenLength_le _),
                  List.length_take_of_le (tokenLength_le _), hone] at hlengths
                exact hlengths.symm
              rw [hone, hone'] at hbehind hnext
              exact passedOver_cons hnone hnone' hnext hbehind

/-- Passages correspond if no literal does harm. -/
theorem passagesAlike_of_harmless (halike : Alike source source')
    (hharmless : HarmlessLiterals source) : PassagesAlike source source' := by
  intro passage hmem text text' rest rest' _ _ _ hinside
  rcases hinside with ⟨word, more, more', hword, rfl, rfl, h⟩
  refine passedOver_append (fun c hc => ?_) (h.passedOver halike hharmless hmem)
  exact isPlain_of_isHarmless hmem (isHarmless_of_isIdentChar (hword c hc))

end Harmless

end Source
end ElmBinding
