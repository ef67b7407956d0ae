import ElmBinding.Proofs.Source.Lockstep

/-!
# Passages

Reserved names and numbers, ranges of extensions, extensions and aggregates are passed over up to a
closing mark.  In such a passage there are no lexemes: between its gaps it is read character by
character, the quotes and what stands between them too.  So a passage ends where its closing mark
stands first, even if that is in a string literal, and a slash in a literal may open a comment.

Two passages in two texts correspond to each other if they differ in comments alone when they are
read in this way, and if behind their closing marks the texts are in step again.

Main results:

- Definition {lit}`passages`: how passages are opened and closed.
- Definition {lit}`PassedOver`: corresponding passages.
- Theorem {lit}`parallel_upTo`: corresponding passages are passed over side by side.
- Theorem {lit}`parallel_aggregate`: so are aggregates inside of each other.
-/

namespace ElmBinding
namespace Source

open Grammar Grammar.Pattern

/-- How a passage is opened, and the mark that closes it. -/
structure Passage where
  opening : Pattern Rule
  /-- Whether an opening brace inside the passage needs a closing mark of its own. -/
  nested : Bool := false
  mark : Char
  isMark_mark : isMark mark = true := by decide
  isGapChar_mark : isGapChar mark = false := by decide
  mark_ne_brace : mark ≠ '\x7b' := by decide

namespace Passage

/-- Reserved names and numbers. -/
def reserved : Passage where
  opening := sub .reservedKeyword
  mark := ';'

/-- Ranges of extensions. -/
def extensions : Passage where
  opening := sub .extensionsKeyword
  mark := ';'

/-- Extensions of a message. -/
def extendBlock : Passage where
  opening := chain [chain [word "extend", sub .messageType], bodyStart]
  mark := '\x7d'

/-- An aggregate as the value of an option. -/
def aggregate : Passage where
  opening := chain [word "=", bodyStart]
  nested := true
  mark := '\x7d'

/-- Whether a character neither closes a passage nor opens another one inside. -/
def isPlain (passage : Passage) (c : Char) : Bool :=
  c ≠ passage.mark && !(passage.nested && c = '\x7b')

/-- A passage may be opened at the front of a text and leave the rest. -/
def Opens (passage : Passage) (text rest : List Char) : Prop :=
  ∃ budget pos taken,
    (passage.opening.run gapLength (schemaGrammar.read budget) ⟨pos, text⟩).taken = some taken ∧
      taken.cursor.rest = rest

end Passage

/-- All passages. -/
def passages : List Passage :=
  [.reserved, .extensions, .extendBlock, .aggregate]

/--
Two places in two texts inside a passage, below a number of braces that are open in it.  Up to
the closing mark the texts differ in comments alone, and behind it they correspond.
-/
inductive PassedOver (passage : Passage) (behind : List Char → List Char → Prop) :
    Nat → List Char → List Char → Prop
  | ended {depth : Nat} : PassedOver passage behind depth [] []
  | comment {depth : Nat} {rest rest' : List Char} (hcomment : 0 < commentLength rest)
      (hcomment' : 0 < commentLength rest')
      (hrest : PassedOver passage behind depth (rest.drop (commentLength rest))
        (rest'.drop (commentLength rest'))) :
      PassedOver passage behind depth rest rest'
  | char {depth : Nat} {c : Char} {rest rest' : List Char} (hplain : passage.isPlain c = true)
      (hnone : commentLength (c :: rest) = 0) (hnone' : commentLength (c :: rest') = 0)
      (hrest : PassedOver passage behind depth rest rest') :
      PassedOver passage behind depth (c :: rest) (c :: rest')
  | opened {depth : Nat} {rest rest' : List Char} (hnested : passage.nested = true)
      (hrest : PassedOver passage behind (depth + 1) rest rest') :
      PassedOver passage behind depth ('\x7b' :: rest) ('\x7b' :: rest')
  | closed {depth : Nat} {rest rest' : List Char} (hbehind : behind rest rest')
      (hrest : PassedOver passage behind depth rest rest') :
      PassedOver passage behind (depth + 1) (passage.mark :: rest) (passage.mark :: rest')
  | last {rest rest' : List Char} (hbehind : behind rest rest') :
      PassedOver passage behind 0 (passage.mark :: rest) (passage.mark :: rest')

/--
Two texts in which all passages correspond that are opened at places abreast of each other.
-/
def PassagesAlike (source source' : List Char) : Prop :=
  ∀ passage ∈ passages, ∀ {text text' rest rest' : List Char},
    Abreast source source' text text' → passage.Opens text rest → passage.Opens text' rest' →
    Inside source source' rest rest' → PassedOver passage (Abreast source source') 0 rest rest'

/-! ## Steps in a passage -/

section Steps

variable {passage : Passage} {behind : List Char → List Char → Prop} {depth : Nat}
  {rest rest' : List Char}

/-- Two places in a passage below at least a number of open braces. -/
def PassedBelow (passage : Passage) (behind : List Char → List Char → Prop) (depth : Nat)
    (rest rest' : List Char) : Prop :=
  ∃ deeper, depth ≤ deeper ∧ PassedOver passage behind deeper rest rest'

/-- The mark that closes a passage begins no comment. -/
theorem Passage.commentLength_mark (passage : Passage) (rest : List Char) :
    commentLength (passage.mark :: rest) = 0 :=
  commentLength_of_isDull (Bool.and_eq_true_iff.mp passage.isMark_mark).1 rest

/-- What two texts begin with inside a passage. -/
theorem PassedBelow.front (h : PassedBelow passage behind depth rest rest') :
    Front (fun c => c ≠ passage.mark) (PassedBelow passage behind depth) rest rest' := by
  rcases h with ⟨deeper, hle, h⟩
  cases h with
  | ended => exact .ended
  | comment hcomment hcomment' hrest => exact .comment hcomment hcomment' ⟨deeper, hle, hrest⟩
  | char hplain hnone hnone' hrest => exact .char hnone hnone' fun _ => ⟨deeper, hle, hrest⟩
  | opened _ hrest =>
      exact .char rfl rfl fun _ => ⟨deeper + 1, Nat.le_succ_of_le hle, hrest⟩
  | closed _ _ =>
      exact .char (passage.commentLength_mark _) (passage.commentLength_mark _) (by simp)
  | last _ =>
      exact .char (passage.commentLength_mark _) (passage.commentLength_mark _) (by simp)

/-- Behind an opening brace in a passage with nesting, one more brace is open. -/
theorem PassedBelow.opened (hnested : passage.nested = true)
    (h : PassedBelow passage behind depth ('\x7b' :: rest) ('\x7b' :: rest')) :
    PassedBelow passage behind (depth + 1) rest rest' := by
  rcases h with ⟨deeper, hle, h⟩
  generalize htext : '\x7b' :: rest = text at h
  generalize htext' : '\x7b' :: rest' = text' at h
  cases h with
  | ended => contradiction
  | comment hcomment _ _ =>
      rw [← htext] at hcomment
      contradiction
  | char hplain _ _ _ =>
      simp [Passage.isPlain, hnested, ← (List.cons.inj htext).1] at hplain
  | opened _ hrest =>
      rw [(List.cons.inj htext).2, (List.cons.inj htext').2]
      exact ⟨deeper + 1, Nat.succ_le_succ hle, hrest⟩
  | closed _ _ => exact absurd (List.cons.inj htext).1.symm passage.mark_ne_brace
  | last _ => exact absurd (List.cons.inj htext).1.symm passage.mark_ne_brace

/-- Behind a closing mark texts correspond, and one brace less is open. -/
theorem PassedBelow.closed
    (h : PassedBelow passage behind depth (passage.mark :: rest) (passage.mark :: rest')) :
    behind rest rest' ∧ ∀ less, depth = less + 1 → PassedBelow passage behind less rest rest' := by
  rcases h with ⟨deeper, hle, h⟩
  generalize htext : passage.mark :: rest = text at h
  generalize htext' : passage.mark :: rest' = text' at h
  cases h with
  | ended => contradiction
  | comment hcomment _ _ =>
      rw [← htext, passage.commentLength_mark] at hcomment
      contradiction
  | char hplain _ _ _ => simp [Passage.isPlain, ← (List.cons.inj htext).1] at hplain
  | opened _ _ => exact absurd (List.cons.inj htext).1 passage.mark_ne_brace
  | closed hbehind hrest =>
      rw [(List.cons.inj htext).2, (List.cons.inj htext').2]
      exact ⟨hbehind, fun less hless => ⟨_, by omega, hrest⟩⟩
  | last hbehind =>
      rw [(List.cons.inj htext).2, (List.cons.inj htext').2]
      exact ⟨hbehind, fun less hless => by omega⟩

/-- Gaps in a passage. -/
theorem PassedBelow.skip (h : PassedBelow passage behind depth rest rest') :
    PassedBelow passage behind depth (Source.skip rest) (Source.skip rest') :=
  skip_of_front (fun h => h.front.mono fun {c} hc => by
    have hne : c ≠ passage.mark := by
      rintro rfl
      rw [passage.isGapChar_mark] at hc
      contradiction
    exact decide_eq_true hne) h

end Steps

/-! ## Passing over -/

section Reading

variable {call : Rule → Cursor → Outcome Rule} {texts : Rule → Bool} {exact : Prop}
  {passage : Passage} {behind : List Char → List Char → Prop} {depth : Nat}

/-- Texts that are related, without gaps in front. -/
def Ungapped (related : List Char → List Char → Prop) (rest rest' : List Char) : Prop :=
  related rest rest' ∧ gapLength rest = 0 ∧ gapLength rest' = 0

/-- Behind a gap there is none. -/
theorem Ungapped.of_skip {related : List Char → List Char → Prop} {rest rest' : List Char}
    (h : related (skip rest) (skip rest')) :
    Ungapped related (rest.drop (gapLength rest)) (rest'.drop (gapLength rest')) :=
  ⟨h, gapLength_skip rest, gapLength_skip rest'⟩

/-- In front of a comment there is a gap. -/
theorem gapLength_ne_of_comment {text : List Char} (h : 0 < commentLength text) :
    gapLength text ≠ 0 := by
  intro hnone
  have hskip : skip text = text := by rw [skip, hnone, List.drop_zero]
  have hlength : (skip text).length ≤ text.length - commentLength text := by
    rw [skip_comment h, skip, List.length_drop, List.length_drop]
    omega
  have hle := commentLength_le text
  rw [hskip] at hlength
  omega

/-- What two texts without gaps in front begin with inside a passage, but for the closing mark. -/
theorem PassedBelow.next {rest rest' : List Char} {c : Char}
    (h : Ungapped (PassedBelow passage behind depth) (c :: rest) rest') (hc : c ≠ passage.mark) :
    ∃ more', rest' = c :: more' ∧ PassedBelow passage behind depth rest more' := by
  rcases h with ⟨h, hgap, -⟩
  cases h.front with
  | comment hcomment _ _ => exact absurd hgap (gapLength_ne_of_comment hcomment)
  | char _ _ hrest => exact ⟨_, rfl, hrest (decide_eq_true hc)⟩

/-- The closing mark of a passage is read side by side. -/
theorem parallel_mark {closing : String} (hclosing : closing.toList = [passage.mark]) :
    Parallel gapLength call texts exact (PassedBelow passage behind depth) (word closing)
      fun rest rest' => behind rest rest' ∧
        ∀ less, depth = less + 1 → PassedBelow passage behind less rest rest' := by
  have hslash : passage.mark ≠ '/' := by
    have hdull := (Bool.and_eq_true_iff.mp passage.isMark_mark).1
    exact of_decide_eq_true (Bool.and_eq_true_iff.mp hdull).1
  refine parallel_word PassedBelow.front ?_ ?_ fun h => ?_
  · simpa [hclosing] using hslash
  · simp [hclosing]
  · rw [hclosing] at h
    exact h.closed

/-- In a passage, a character other than the closing mark is passed over side by side. -/
theorem parallel_any {closing : String} (hclosing : closing.toList = [passage.mark])
    (hinexact : ¬exact) :
    Parallel gapLength call texts exact (Ungapped (PassedBelow passage behind depth))
      (.seq (.absent (word closing)) any) (PassedBelow passage behind depth) := by
  have hmark : Parallel gapLength call texts exact
      (Ungapped (PassedBelow passage behind depth)) (word closing) _ :=
    (parallel_mark hclosing).mono And.left id
  have habsent : Parallel gapLength call texts exact
      (Ungapped (PassedBelow passage behind depth)) (.absent (word closing)) _ :=
    Parallel.absent hmark
  have hany : Parallel gapLength call texts exact
      (fun rest rest' => Ungapped (PassedBelow passage behind depth) rest rest' ∧
        rest.head? ≠ some passage.mark) any (PassedBelow passage behind depth) := by
    refine Parallel.char fun {rest rest'} h => ?_
    cases rest with
    | nil =>
        cases h.1.1.front with
        | ended => exact Or.inr ⟨rfl, rfl⟩
        | comment hcomment _ _ => contradiction
    | cons c more =>
        rcases PassedBelow.next h.1 (by simpa using h.2) with ⟨more', rfl, hmore⟩
        exact Or.inl ⟨c, rfl, more, more', rfl, rfl, hmore⟩
  refine Parallel.seq habsent ?_ (fun h => absurd h hinexact) hany
  rintro rest rest' ⟨h, pos, hrefused⟩
  rw [h.2.1, h.2.2, List.drop_zero, List.drop_zero]
  refine ⟨h, fun hhead => ?_⟩
  cases rest with
  | nil => contradiction
  | cons c more =>
      rw [List.head?_cons, Option.some.injEq] at hhead
      subst hhead
      simp [Pattern.run, hclosing] at hrefused

/-- A passage is passed over side by side up to its closing mark. -/
theorem parallel_upTo {closing : String} (hclosing : closing.toList = [passage.mark])
    (hinexact : ¬exact) {advancing : Rule → Bool} (hcall : Shrinks advancing call) :
    Parallel gapLength call texts exact (Ungapped (PassedBelow passage behind 0))
      (.seq (upTo (word closing)) (word closing)) behind := by
  have hmany : Parallel gapLength call texts exact (Ungapped (PassedBelow passage behind 0))
      (upTo (word closing)) (PassedBelow passage behind 0) :=
    Parallel.many (parallel_any hclosing hinexact) (length_lt_of_run hcall rfl)
      (fun h => Ungapped.of_skip h.skip) (fun h => absurd h hinexact) And.left
  exact Parallel.seq hmany PassedBelow.skip (fun h => absurd h hinexact)
    ((parallel_mark hclosing).mono id And.left)

/-- A passage is read side by side from its opening to its closing mark. -/
theorem parallel_passage {source source' : List Char} (hpassages : PassagesAlike source source')
    (passage : Passage) (hmem : passage ∈ passages) (closing : String)
    (hclosing : closing.toList = [passage.mark]) (hinexact : ¬exact) {budget : Nat}
    {advancing : Rule → Bool} (hcall : Shrinks advancing (schemaGrammar.read budget))
    (hopening : Parallel gapLength (schemaGrammar.read budget) texts exact
      (Abreast source source') passage.opening (Inside source source')) :
    Parallel gapLength (schemaGrammar.read budget) texts exact (Abreast source source')
      (.seq passage.opening (.seq (upTo (word closing)) (word closing)))
      (Abreast source source') := by
  intro cursor cursor' hpre
  rw [Pattern.run, Pattern.run]
  apply (hopening cursor cursor' hpre).andThen
  intro taken taken' htaken htaken' hinside
  have hpassed : PassedBelow passage (Abreast source source') 0 taken.cursor.rest
      taken'.cursor.rest :=
    ⟨0, Nat.le_refl 0, hpassages passage hmem hpre ⟨budget, cursor.pos, taken, htaken, rfl⟩
      ⟨budget, cursor'.pos, taken', htaken', rfl⟩ hinside⟩
  exact (parallel_upTo hclosing hinexact hcall _ _ (Ungapped.of_skip hpassed.skip)).behind_gap
    fun h => absurd h hinexact

/-- An aggregate is passed over side by side, if the aggregates inside of it are. -/
theorem parallel_aggregate_of {budget : Nat} {pre post : List Char → List Char → Prop}
    (htexts : texts .aggregate = false) {advancing : Rule → Bool}
    (hcall : Shrinks advancing (schemaGrammar.read budget)) (hadvancing : advancing .aggregate)
    (hinner : ∀ depth, Parallel gapLength (schemaGrammar.read budget) texts False
      (PassedBelow .aggregate behind depth) (.sub .aggregate)
      (PassedBelow .aggregate behind depth))
    (hopened : Parallel gapLength (schemaGrammar.read budget) texts False pre bodyStart
      (PassedBelow .aggregate behind depth))
    (hpost : ∀ {rest rest'}, (behind rest rest' ∧ ∀ less, depth = less + 1 →
      PassedBelow .aggregate behind less rest rest') → post rest rest') :
    Parallel gapLength (schemaGrammar.read (budget + 1)) texts False pre (.sub .aggregate)
      post := by
  have hclosing : "\x7d".toList = [Passage.aggregate.mark] := by decide
  have hitem : Parallel gapLength (schemaGrammar.read budget) texts False
      (Ungapped (PassedBelow .aggregate behind depth))
      (choice [.sub .aggregate, chain [bodyEnd.absent, any]])
      (PassedBelow .aggregate behind depth) :=
    Parallel.alt ((hinner depth).mono And.left id) (parallel_any hclosing id)
  have hadvances : (choice [.sub .aggregate, chain [bodyEnd.absent, any]]).advances advancing := by
    simp [choice, chain, advances, hadvancing, any]
  have hmany : Parallel gapLength (schemaGrammar.read budget) texts False
      (Ungapped (PassedBelow .aggregate behind depth))
      (choice [.sub .aggregate, chain [bodyEnd.absent, any]]).many
      (PassedBelow .aggregate behind depth) :=
    Parallel.many hitem (length_lt_of_run hcall hadvances) (fun h => Ungapped.of_skip h.skip)
      False.elim And.left
  have hrest := Parallel.seq hmany PassedBelow.skip False.elim (parallel_mark hclosing)
  have hbody := Parallel.seq hopened (fun h => Ungapped.of_skip h.skip) False.elim hrest
  exact Parallel.sub (hbody.mono id hpost) (by simp [htexts])

/-- The opening mark of a body is read side by side where texts are related in front of it. -/
theorem parallel_bodyStart {pre post : List Char → List Char → Prop} {steps : Char → Bool}
    (hfront : ∀ {rest rest'}, pre rest rest' → Front steps pre rest rest')
    (hpost : ∀ {more more'}, pre ('\x7b' :: more) ('\x7b' :: more') → post more more') :
    Parallel gapLength call texts exact pre bodyStart post := by
  have hbrace : "\x7b".toList = ['\x7b'] := by decide
  refine parallel_word hfront ?_ ?_ fun h => ?_
  · simp [hbrace]
  · simp [hbrace]
  · rw [hbrace] at h
    exact hpost h

/-- Aggregates inside of each other are passed over side by side. -/
theorem parallel_aggregate (htexts : texts .aggregate = false) {advancing : Rule → Bool}
    (hcall : ∀ budget, Shrinks advancing (schemaGrammar.read budget))
    (hadvancing : advancing .aggregate) (budget depth : Nat) :
    Parallel gapLength (schemaGrammar.read budget) texts False
      (PassedBelow .aggregate behind depth) (.sub .aggregate)
      (PassedBelow .aggregate behind depth) := by
  induction budget generalizing depth with
  | zero => exact Parallel.sub_zero
  | succ budget ih =>
      exact parallel_aggregate_of htexts (hcall budget) hadvancing ih
        (parallel_bodyStart PassedBelow.front (PassedBelow.opened rfl)) fun h => h.2 depth rfl

end Reading

/-! ## Values -/

/-- Two places abreast of each other behind an equals sign, where a passage may be opened. -/
def AtValue (source source' rest rest' : List Char) : Prop :=
  Abreast source source' rest rest' ∧ ∀ {more more' : List Char},
    skip rest = '\x7b' :: more → skip rest' = '\x7b' :: more' →
    PassedOver .aggregate (Abreast source source') 0 more more'

section Values

variable {source source' rest rest' : List Char} {texts : Rule → Bool}

/-- Gaps lead from values to values. -/
theorem AtValue.skip (halike : Alike source source') (h : AtValue source source' rest rest') :
    AtValue source source' (Source.skip rest) (Source.skip rest') := by
  refine ⟨h.1.skip halike, fun {more more'} hrest hrest' => ?_⟩
  rw [skip_skip] at hrest hrest'
  exact h.2 hrest hrest'

/-- What two texts begin with at values. -/
theorem AtValue.front (halike : Alike source source') (h : AtValue source source' rest rest') :
    Front (fun _ => false) (AtValue source source') rest rest' := by
  have hfront := h.1.front halike
  cases hfront with
  | ended => exact .ended
  | comment hcomment hcomment' hrest =>
      refine .comment hcomment hcomment' ⟨hrest, fun {more more'} hmore hmore' => ?_⟩
      rw [← skip_comment hcomment] at hmore
      rw [← skip_comment hcomment'] at hmore'
      exact h.2 hmore hmore'
  | char hnone hnone' _ => exact .char hnone hnone' (by simp)

/-- A brace is behind no gap. -/
theorem skip_brace (rest : List Char) : skip ('\x7b' :: rest) = '\x7b' :: rest := by
  rw [skip, gapLength_of_not_gapChar (by decide) (commentLength_of_ne (by decide) rest),
    List.drop_zero]

/-- An aggregate as a value is passed over side by side. -/
theorem parallel_aggregate_of_value (halike : Alike source source')
    (htexts : texts .aggregate = false) {advancing : Rule → Bool}
    (hcall : ∀ budget, Shrinks advancing (schemaGrammar.read budget))
    (hadvancing : advancing .aggregate) (budget : Nat) :
    Parallel gapLength (schemaGrammar.read budget) texts False (AtValue source source')
      (.sub .aggregate) (Abreast source source') := by
  cases budget with
  | zero => exact Parallel.sub_zero
  | succ budget =>
      have hopened : Parallel gapLength (schemaGrammar.read budget) texts False
          (AtValue source source') bodyStart
          (PassedBelow .aggregate (Abreast source source') 0) :=
        parallel_bodyStart (AtValue.front halike) fun h =>
          ⟨0, Nat.le_refl 0, h.2 (skip_brace _) (skip_brace _)⟩
      exact parallel_aggregate_of htexts (hcall budget) hadvancing
        (parallel_aggregate htexts hcall hadvancing budget) hopened And.left

end Values

end Source
end ElmBinding
