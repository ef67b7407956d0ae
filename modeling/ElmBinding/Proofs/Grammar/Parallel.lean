import ElmBinding.Proofs.Grammar.Budgets
import ElmBinding.Proofs.Grammar.Sketches

/-!
# Readings side by side

Two texts that correspond to each other are read side by side: a pattern takes something from
both or from neither, what is left corresponds again, and the trees are the same up to places and
the texts of some rules.  Each way to build patterns has its own law.  A repetition needs a part
that takes a character, because only then it ends for want of text and not for want of turns.

Main results:

- Definition {lit}`Parallel`: a pattern that reads corresponding texts side by side.
- Theorems {lit}`Parallel.seq`, {lit}`Parallel.alt` and {lit}`Parallel.many`: the laws.
- Theorem {lit}`Parallel.ofRule`: a rule reads side by side if its production does.
-/

namespace ElmBinding
namespace Grammar

variable {ρ : Type}

/-! ## Corresponding outcomes -/

/-- Two places that are equally many characters behind two others, and the same ones. -/
def SameSpan (start start' stop stop' : Cursor) : Prop :=
  ∃ count, stop = start.advance count ∧ stop' = start'.advance count ∧
    start.rest.take count = start'.rest.take count

/-- Places with nothing between them. -/
theorem SameSpan.refl (start start' : Cursor) : SameSpan start start' start start' :=
  ⟨0, rfl, rfl, rfl⟩

/-- The same characters behind the same characters. -/
theorem SameSpan.trans {start start' middle middle' stop stop' : Cursor}
    (hfirst : SameSpan start start' middle middle')
    (hsecond : SameSpan middle middle' stop stop') : SameSpan start start' stop stop' := by
  rcases hfirst with ⟨count, rfl, rfl, htext⟩
  rcases hsecond with ⟨more, rfl, rfl, hmore⟩
  refine ⟨count + more, start.advance_advance count more, start'.advance_advance count more, ?_⟩
  rw [List.take_add, List.take_add, htext]
  exact congrArg _ hmore

/--
Two readings from two places that take something or not alike.  What they leave corresponds, and
their nodes have the same sketches.  If the reading is exact, they take the same characters.
-/
inductive Alongside (texts : ρ → Bool) (exact : Prop) (post : List Char → List Char → Prop)
    (cursor cursor' : Cursor) : Option (Taken ρ) → Option (Taken ρ) → Prop
  | none : Alongside texts exact post cursor cursor' none none
  | some {taken taken' : Taken ρ} (hrest : post taken.cursor.rest taken'.cursor.rest)
      (hnodes : sketches texts taken.nodes = sketches texts taken'.nodes)
      (hspan : exact → SameSpan cursor cursor' taken.cursor taken'.cursor) :
      Alongside texts exact post cursor cursor' (some taken) (some taken')

namespace Alongside

variable {texts : ρ → Bool} {exact : Prop} {pre mid post : List Char → List Char → Prop}
  {cursor cursor' : Cursor} {first first' : Option (Taken ρ)}

/-- A weaker correspondence of what is left. -/
theorem mono (h : Alongside texts exact mid cursor cursor' first first')
    (hpost : ∀ {rest rest'}, mid rest rest' → post rest rest') :
    Alongside texts exact post cursor cursor' first first' := by
  cases h with
  | none => exact .none
  | some hrest hnodes hspan => exact .some (hpost hrest) hnodes hspan

/-- A reading that need not be exact. -/
theorem inexact {exact' : Prop} (h : Alongside texts exact post cursor cursor' first first')
    (himp : exact' → exact) : Alongside texts exact' post cursor cursor' first first' := by
  cases h with
  | none => exact .none
  | some hrest hnodes hspan => exact .some hrest hnodes fun h => hspan (himp h)

/-- Staying at corresponding places. -/
theorem stay (h : post cursor.rest cursor'.rest) :
    Alongside texts exact post cursor cursor' (Outcome.stay cursor : Outcome ρ).taken
      (Outcome.stay cursor').taken :=
  .some h rfl fun _ => SameSpan.refl cursor cursor'

/-- Two readings behind gaps, which are empty if the readings are exact. -/
theorem behind_gap {count count' : Nat}
    (h : Alongside texts exact post (cursor.advance count) (cursor'.advance count') first first')
    (hexact : exact → count = 0 ∧ count' = 0) :
    Alongside texts exact post cursor cursor' first first' := by
  cases h with
  | none => exact .none
  | some hrest hnodes hspan =>
      refine .some hrest hnodes fun h => ?_
      have hstop := hspan h
      rw [(hexact h).1, (hexact h).2] at hstop
      exact hstop

/-- Going on where two readings have ended alike. -/
theorem andThen {outcome outcome' : Outcome ρ} {next next' : Cursor → Outcome ρ}
    (hfirst : Alongside texts exact mid cursor cursor' outcome.taken outcome'.taken)
    (hnext : ∀ {taken taken'}, outcome.taken = Option.some taken →
      outcome'.taken = Option.some taken' → mid taken.cursor.rest taken'.cursor.rest →
      Alongside texts exact post taken.cursor taken'.cursor (next taken.cursor).taken
        (next' taken'.cursor).taken) :
    Alongside texts exact post cursor cursor' (outcome.andThen next).taken
      (outcome'.andThen next').taken := by
  rw [Outcome.taken_andThen, Outcome.taken_andThen]
  generalize hone : outcome.taken = first at hfirst
  generalize hone' : outcome'.taken = first' at hfirst
  cases hfirst with
  | none => exact .none
  | @some taken taken' hrest hnodes hspan =>
      have hsecond := hnext hone hone' hrest
      simp only [Option.bind_some]
      generalize (next taken.cursor).taken = last at hsecond
      generalize (next' taken'.cursor).taken = last' at hsecond
      cases hsecond with
      | none => exact .none
      | some hlast hlastNodes hlastSpan =>
          refine .some hlast ?_ fun h => (hspan h).trans (hlastSpan h)
          rw [sketches_append, sketches_append, hnodes, hlastNodes]

/-- Reading in another way where two readings take nothing. -/
theorem orElse {outcome outcome' other other' : Outcome ρ}
    (hfirst : Alongside texts exact post cursor cursor' outcome.taken outcome'.taken)
    (hother : Alongside texts exact post cursor cursor' other.taken other'.taken) :
    Alongside texts exact post cursor cursor' (outcome.orElse other).taken
      (outcome'.orElse other').taken := by
  rw [Outcome.taken_orElse, Outcome.taken_orElse]
  generalize outcome.taken = first at hfirst
  generalize outcome'.taken = first' at hfirst
  cases hfirst with
  | none => exact hother
  | some hrest hnodes hspan => exact .some hrest hnodes hspan

end Alongside

/-! ## Patterns side by side -/

/--
A pattern that reads corresponding texts side by side, given the length of gaps and the readings
of the rules.
-/
def Parallel (gaps : List Char → Nat) (call : ρ → Cursor → Outcome ρ) (texts : ρ → Bool)
    (exact : Prop) (pre : List Char → List Char → Prop) (pattern : Pattern ρ)
    (post : List Char → List Char → Prop) : Prop :=
  ∀ cursor cursor', pre cursor.rest cursor'.rest →
    Alongside texts exact post cursor cursor' (pattern.run gaps call cursor).taken
      (pattern.run gaps call cursor').taken

namespace Parallel

variable {gaps : List Char → Nat} {call : ρ → Cursor → Outcome ρ} {texts : ρ → Bool}
  {exact : Prop} {pre mid post : List Char → List Char → Prop} {first second part : Pattern ρ}

/-- From fewer texts to more. -/
theorem mono {pre' post' : List Char → List Char → Prop}
    (h : Parallel gaps call texts exact pre part post)
    (hpre : ∀ {rest rest'}, pre' rest rest' → pre rest rest')
    (hpost : ∀ {rest rest'}, post rest rest' → post' rest rest') :
    Parallel gaps call texts exact pre' part post' :=
  fun cursor cursor' hrest => (h cursor cursor' (hpre hrest)).mono hpost

/-- Readings that need not be exact. -/
theorem inexact {exact' : Prop} (h : Parallel gaps call texts exact pre part post)
    (himp : exact' → exact) : Parallel gaps call texts exact' pre part post :=
  fun cursor cursor' hpre => (h cursor cursor' hpre).inexact himp

/-- A fixed text that both texts begin with or neither does. -/
theorem word {text : String}
    (h : ∀ {rest rest'}, pre rest rest' →
      (text.toList <+: rest ↔ text.toList <+: rest') ∧
        ∀ {more more'}, rest = text.toList ++ more → rest' = text.toList ++ more' →
          post more more') :
    Parallel gaps call texts exact pre (.word text) post := by
  intro cursor cursor' hpre
  rcases h hpre with ⟨hiff, hpost⟩
  rw [Pattern.run, Pattern.run]
  by_cases hfront : text.toList <+: cursor.rest
  · have hfront' := hiff.mp hfront
    rw [if_pos (List.isPrefixOf_iff_prefix.mpr hfront),
      if_pos (List.isPrefixOf_iff_prefix.mpr hfront')]
    rcases hfront with ⟨more, hmore⟩
    rcases hfront' with ⟨more', hmore'⟩
    refine .some ?_ rfl fun _ => ⟨_, rfl, rfl, ?_⟩
    · simp only [Cursor.advance, ← hmore, ← hmore', List.drop_left]
      exact hpost hmore.symm hmore'.symm
    · rw [← hmore, ← hmore', List.take_left, List.take_left]
  · have hfront' := fun h => hfront (hiff.mpr h)
    rw [if_neg (mt List.isPrefixOf_iff_prefix.mp hfront),
      if_neg (mt List.isPrefixOf_iff_prefix.mp hfront')]
    exact .none

/-- A character of a class that both texts begin with or neither does. -/
theorem char {inClass : Char → Bool}
    (h : ∀ {rest rest'}, pre rest rest' →
      ((∃ c, inClass c = true ∧ ∃ more more', rest = c :: more ∧ rest' = c :: more' ∧
        post more more') ∨ (rest.head?.any inClass = false ∧ rest'.head?.any inClass = false))) :
    Parallel gaps call texts exact pre (.char inClass) post := by
  intro cursor cursor' hpre
  rw [Pattern.run, Pattern.run]
  rcases h hpre with ⟨c, hc, more, more', hrest, hrest', hpost⟩ | ⟨hnone, hnone'⟩
  · rw [hrest, hrest', List.head?_cons, List.head?_cons, Option.any_some, if_pos hc, if_pos hc]
    refine .some ?_ rfl fun _ => ⟨1, rfl, rfl, ?_⟩
    · simpa [Cursor.advance, hrest, hrest'] using hpost
    · rw [hrest, hrest']
      rfl
  · rw [hnone, hnone']
    exact .none

/-- The end of both texts or of neither. -/
theorem finish (h : ∀ {rest rest'}, pre rest rest' → (rest = [] ↔ rest' = [])) :
    Parallel gaps call texts exact pre .finish pre := by
  intro cursor cursor' hpre
  rw [Pattern.run, Pattern.run]
  by_cases hend : cursor.rest = []
  · have hend' := (h hpre).mp hend
    rw [if_pos (List.isEmpty_iff.mpr hend), if_pos (List.isEmpty_iff.mpr hend')]
    exact Alongside.stay hpre
  · have hend' := fun hnil => hend ((h hpre).mpr hnil)
    rw [if_neg (mt List.isEmpty_iff.mp hend), if_neg (mt List.isEmpty_iff.mp hend')]
    exact .none

/-- Two parts with the gap between them. -/
theorem seq {behind : List Char → List Char → Prop}
    (hfirst : Parallel gaps call texts exact pre first mid)
    (hgap : ∀ {rest rest'}, mid rest rest' →
      behind (rest.drop (gaps rest)) (rest'.drop (gaps rest')))
    (hexact : exact → ∀ rest, gaps rest = 0)
    (hsecond : Parallel gaps call texts exact behind second post) :
    Parallel gaps call texts exact pre (.seq first second) post := by
  intro cursor cursor' hpre
  rw [Pattern.run, Pattern.run]
  apply (hfirst cursor cursor' hpre).andThen
  intro taken taken' _ _ hmid
  exact (hsecond _ _ (hgap hmid)).behind_gap fun h => ⟨hexact h _, hexact h _⟩

/-- Three parts, grouped in the other way. -/
theorem assoc {third : Pattern ρ}
    (h : Parallel gaps call texts exact pre (.seq (.seq first second) third) post) :
    Parallel gaps call texts exact pre (.seq first (.seq second third)) post := by
  have htaken : ∀ cursor,
      ((Pattern.seq first (.seq second third)).run gaps call cursor).taken =
        ((Pattern.seq (.seq first second) third).run gaps call cursor).taken := by
    intro cursor
    simp only [Pattern.run, Outcome.taken_andThen]
    cases (first.run gaps call cursor).taken with
    | none => rfl
    | some one =>
        simp only [Option.bind_some]
        cases (second.run gaps call (one.cursor.advance (gaps one.cursor.rest))).taken with
        | none => rfl
        | some two =>
            simp [Function.comp_def]
  intro cursor cursor' hpre
  rw [htaken, htaken]
  exact h cursor cursor' hpre

/-- One of two parts. -/
theorem alt (hfirst : Parallel gaps call texts exact pre first post)
    (hsecond : Parallel gaps call texts exact pre second post) :
    Parallel gaps call texts exact pre (.alt first second) post :=
  fun cursor cursor' hpre => (hfirst cursor cursor' hpre).orElse (hsecond cursor cursor' hpre)

/-- A part that may be missing. -/
theorem opt (h : Parallel gaps call texts exact pre part post)
    (hpre : ∀ {rest rest'}, pre rest rest' → post rest rest') :
    Parallel gaps call texts exact pre (.opt part) post :=
  fun cursor cursor' hrest => (h cursor cursor' hrest).orElse (Alongside.stay (hpre hrest))

/-- A part that is only looked for. -/
theorem ahead {exact' : Prop} (h : Parallel gaps call texts exact' pre part post) :
    Parallel gaps call texts exact pre (.ahead part) pre := by
  intro cursor cursor' hpre
  have hpart := h cursor cursor' hpre
  rw [Pattern.run, Pattern.run]
  generalize (part.run gaps call cursor).taken = taken at hpart
  generalize (part.run gaps call cursor').taken = taken' at hpart
  cases hpart with
  | none => exact .none
  | some _ _ _ => exact Alongside.stay hpre

/-- A part that must not be there, and what is known where it is not. -/
theorem absent {exact' : Prop} (h : Parallel gaps call texts exact' pre part post) :
    Parallel gaps call texts exact pre (.absent part) fun rest rest' =>
      pre rest rest' ∧ ∃ pos, (part.run gaps call ⟨pos, rest⟩).taken = none := by
  intro cursor cursor' hpre
  have hpart := h cursor cursor' hpre
  rw [Pattern.run, Pattern.run]
  simp only
  generalize htaken : (part.run gaps call cursor).taken = taken at hpart
  generalize (part.run gaps call cursor').taken = taken' at hpart
  cases hpart with
  | none => exact Alongside.stay ⟨hpre, cursor.pos, htaken⟩
  | some _ _ _ => exact .none

/-! ### Repetition -/

/-- Repetitions of a part that takes a character, with as many turns as there are characters. -/
theorem repeatReading (hpart : Parallel gaps call texts exact pre part post)
    (hshrinks : ∀ {cursor taken}, (part.run gaps call cursor).taken = some taken →
      taken.cursor.rest.length < cursor.rest.length)
    (hgap : ∀ {rest rest'}, post rest rest' →
      pre (rest.drop (gaps rest)) (rest'.drop (gaps rest')))
    (hexact : exact → ∀ rest, gaps rest = 0) {bound bound' : List Char} {cursor cursor' : Cursor}
    (hbound : cursor.rest.length ≤ bound.length) (hbound' : cursor'.rest.length ≤ bound'.length)
    (hpost : post cursor.rest cursor'.rest) :
    Alongside texts exact post cursor cursor'
      (Grammar.repeatReading (fun next =>
        part.run gaps call (next.advance (gaps next.rest))) bound cursor).taken
      (Grammar.repeatReading (fun next =>
        part.run gaps call (next.advance (gaps next.rest))) bound' cursor').taken := by
  have hstep : ∀ {cursor cursor' : Cursor}, post cursor.rest cursor'.rest →
      Alongside texts exact post cursor cursor'
        (part.run gaps call (cursor.advance (gaps cursor.rest))).taken
        (part.run gaps call (cursor'.advance (gaps cursor'.rest))).taken := fun hpost =>
    (hpart _ _ (hgap hpost)).behind_gap fun h => ⟨hexact h _, hexact h _⟩
  have hlength : ∀ {cursor : Cursor} {taken},
      (part.run gaps call (cursor.advance (gaps cursor.rest))).taken = some taken →
      taken.cursor.rest.length < cursor.rest.length := fun h =>
    Nat.lt_of_lt_of_le (hshrinks h) (length_advance_le _ _)
  -- Where no character is left for a turn, the part is missing in both texts.
  have hmissing : ∀ {cursor cursor' : Cursor}, post cursor.rest cursor'.rest →
      cursor.rest.length = 0 ∨ cursor'.rest.length = 0 →
      (part.run gaps call (cursor.advance (gaps cursor.rest))).taken = none ∧
        (part.run gaps call (cursor'.advance (gaps cursor'.rest))).taken = none := by
    intro cursor cursor' hpost hend
    have hboth := hstep hpost
    generalize htaken : (part.run gaps call (cursor.advance _)).taken = taken at hboth ⊢
    generalize htaken' : (part.run gaps call (cursor'.advance _)).taken = taken' at hboth ⊢
    cases hboth with
    | none => exact ⟨rfl, rfl⟩
    | some _ _ _ =>
        have hless := hlength htaken
        have hless' := hlength htaken'
        omega
  induction bound generalizing bound' cursor cursor' with
  | nil =>
      have hend : cursor.rest.length = 0 := Nat.le_zero.mp hbound
      cases bound' with
      | nil => exact Alongside.stay hpost
      | cons c' bound' =>
          rw [Grammar.repeatReading, Grammar.repeatReading, Outcome.taken_orElse,
            Outcome.taken_andThen, (hmissing hpost (Or.inl hend)).2]
          exact Alongside.stay hpost
  | cons c bound ih =>
      cases bound' with
      | nil =>
          have hend : cursor'.rest.length = 0 := Nat.le_zero.mp hbound'
          rw [Grammar.repeatReading, Grammar.repeatReading, Outcome.taken_orElse,
            Outcome.taken_andThen, (hmissing hpost (Or.inr hend)).1]
          exact Alongside.stay hpost
      | cons c' bound' =>
          rw [Grammar.repeatReading, Grammar.repeatReading]
          refine Alongside.orElse ((hstep hpost).andThen ?_) (Alongside.stay hpost)
          intro taken taken' htaken htaken' hrest
          have hless := hlength htaken
          have hless' := hlength htaken'
          rw [List.length_cons] at hbound hbound'
          exact ih (by omega) (by omega) hrest

/-- A part that takes a character, as often as it is there. -/
theorem many (hpart : Parallel gaps call texts exact pre part post)
    (hshrinks : ∀ {cursor taken}, (part.run gaps call cursor).taken = some taken →
      taken.cursor.rest.length < cursor.rest.length)
    (hgap : ∀ {rest rest'}, post rest rest' →
      pre (rest.drop (gaps rest)) (rest'.drop (gaps rest')))
    (hexact : exact → ∀ rest, gaps rest = 0)
    (hpre : ∀ {rest rest'}, pre rest rest' → post rest rest') :
    Parallel gaps call texts exact pre (.many part) post := by
  intro cursor cursor' hrest
  rw [Pattern.run, Pattern.run]
  refine Alongside.orElse ((hpart cursor cursor' hrest).andThen ?_) (Alongside.stay (hpre hrest))
  intro taken taken' htaken htaken' hpost
  exact repeatReading hpart hshrinks hgap hexact (Nat.le_of_lt (hshrinks htaken))
    (Nat.le_of_lt (hshrinks htaken')) hpost

end Parallel

/-! ## Rules side by side -/

/-- A rule reads side by side if its production does, and keeps the texts that it takes exactly. -/
theorem Alongside.ofRule {texts : ρ → Bool} {exact : Prop} {rule : ρ}
    {post : List Char → List Char → Prop} {cursor cursor' : Cursor} {outcome outcome' : Outcome ρ}
    (h : Alongside texts exact post cursor cursor' outcome.taken outcome'.taken)
    (hexact : texts rule = true → exact) :
    Alongside texts exact post cursor cursor' (Outcome.ofRule rule cursor outcome).taken
      (Outcome.ofRule rule cursor' outcome').taken := by
  have htaken : ∀ (cursor : Cursor) (outcome : Outcome ρ),
      (Outcome.ofRule rule cursor outcome).taken = outcome.taken.map fun inside =>
        ⟨inside.cursor, [⟨rule, cursor.pos,
          cursor.rest.take (inside.cursor.pos - cursor.pos), inside.nodes⟩]⟩ := by
    intro cursor outcome
    unfold Outcome.ofRule
    cases outcome.taken <;> rfl
  rw [htaken, htaken]
  generalize outcome.taken = taken at h
  generalize outcome'.taken = taken' at h
  cases h with
  | none => exact .none
  | @some inside inside' hrest hnodes hspan =>
      refine .some hrest ?_ hspan
      by_cases hrule : texts rule = true
      · rcases hspan (hexact hrule) with ⟨count, hstop, hstop', htext⟩
        simp [sketches, Node.sketch, hnodes, hstop, hstop', Cursor.advance, htext]
      · simp [sketches, Node.sketch, hnodes, hrule]

/-- A rule reads side by side with one more call in the budget if its production does. -/
theorem Parallel.sub {grammar : Grammar ρ} {gaps : List Char → Nat} {texts : ρ → Bool}
    {exact : Prop} {pre post : List Char → List Char → Prop} {budget : Nat} {rule : ρ}
    (h : Parallel ((grammar.production rule).gaps grammar.gapLength) (grammar.read budget) texts
      exact pre (grammar.production rule).body post)
    (hexact : texts rule = true → exact) :
    Parallel gaps (grammar.read (budget + 1)) texts exact pre (.sub rule) post :=
  fun cursor cursor' hpre => (h cursor cursor' hpre).ofRule hexact

/-- Without budget no rule reads anything. -/
theorem Parallel.sub_zero {grammar : Grammar ρ} {gaps : List Char → Nat} {texts : ρ → Bool}
    {exact : Prop} {pre post : List Char → List Char → Prop} {rule : ρ} :
    Parallel gaps (grammar.read 0) texts exact pre (.sub rule) post :=
  fun _ _ _ => .none

end Grammar
end ElmBinding
