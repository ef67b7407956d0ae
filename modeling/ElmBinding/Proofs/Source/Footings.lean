import ElmBinding.Proofs.Source.Passages

/-!
# Footings

While a pattern reads two texts side by side, the two places stand on a footing: behind an equals
sign, between lexemes, or somewhere inside a word.  Where a pattern leads from a footing can be told
from the pattern, given the footings of the rules, and whether it comes through side by side at all.

Main results:

- Definition {lit}`Footing.Holds`: what two places on a footing have in common.
- Definition {lit}`Pattern.leadsTo`: the footing behind a pattern.
- Theorem {lit}`parallel_of_leadsTo`: a pattern that leads somewhere reads side by side.
-/

namespace ElmBinding
namespace Source

open Grammar

/-- What two places are on, the firmest first. -/
inductive Footing where
  /-- Places between lexemes behind an equals sign. -/
  | value
  /-- Places between lexemes. -/
  | between
  /-- Places between lexemes or inside of words. -/
  | inside
deriving DecidableEq, Repr

namespace Footing

/-- The firmest footing that two footings have in common. -/
def join : Footing → Footing → Footing
  | inside, _ => inside
  | _, inside => inside
  | between, _ => between
  | _, between => between
  | value, value => value

/-- What two places on a footing have in common. -/
def Holds (source source' : List Char) : Footing → List Char → List Char → Prop
  | value => AtValue source source'
  | between => Abreast source source'
  | inside => Inside source source'

variable {source source' rest rest' : List Char} {footing other : Footing}

/-- On every footing places are inside of words or between them. -/
theorem Holds.inside (h : footing.Holds source source' rest rest') :
    Inside source source' rest rest' := by
  cases footing with
  | value => exact h.1.inside
  | between => exact Abreast.inside h
  | inside => exact h

/-- Places on a footing are on what it has in common with another. -/
theorem Holds.join_left (h : footing.Holds source source' rest rest') :
    (footing.join other).Holds source source' rest rest' := by
  cases footing with
  | value =>
      cases other with
      | value => exact h
      | between => exact h.1
      | inside => exact h.1.inside
  | between =>
      cases other with
      | value => exact h
      | between => exact h
      | inside => exact Abreast.inside h
  | inside => exact h

/-- What two footings have in common does not depend on their order. -/
theorem join_comm (footing other : Footing) : footing.join other = other.join footing := by
  cases footing <;> cases other <;> rfl

/-- Places on the other footing are on what it has in common with the first. -/
theorem Holds.join_right (h : other.Holds source source' rest rest') :
    (footing.join other).Holds source source' rest rest' := by
  rw [join_comm]
  exact h.join_left

/-- Places on a footing are on all less firm ones. -/
theorem Holds.weaken (h : footing.Holds source source' rest rest')
    (hjoin : footing.join other = other) : other.Holds source source' rest rest' := by
  rw [← hjoin]
  exact h.join_left

/-- What two texts begin with at places on a footing. -/
theorem Holds.front (halike : Alike source source')
    (h : footing.Holds source source' rest rest') :
    Front (fun _ => false) (footing.Holds source source') rest rest' := by
  cases footing with
  | value => exact AtValue.front halike h
  | between => exact (Abreast.front halike h).mono (by simp)
  | inside => exact (Inside.front halike h).mono (by simp)

/-- Gaps lead from places on a footing to such places. -/
theorem Holds.skip (halike : Alike source source')
    (h : footing.Holds source source' rest rest') :
    footing.Holds source source' (Source.skip rest) (Source.skip rest') := by
  cases footing with
  | value => exact AtValue.skip halike h
  | between => exact Abreast.skip halike h
  | inside => exact Inside.skip halike h

end Footing

/-! ## Footings behind patterns -/

/-- Rules that take a character at least. -/
def Rule.isAdvancing (rule : Rule) : Bool :=
  rule ∉ [.endOfInput, .proto, .protoBody]

/-- The footing behind a fixed text, if it can be told. -/
def behindWord (text : List Char) : Option Footing :=
  match text with
  | [c] =>
      if c = '=' then
        some .value
      else if isMark c then
        some .between
      else if isDull c then
        some .inside
      else
        none
  | _ => if text.all isDull then some .inside else none

/-- The fixed texts with a footing behind them. -/
theorem behindWord_cases {text : List Char} {behind : Footing} (h : behindWord text = some behind) :
    (text = ['='] ∧ behind = .value) ∨ (∃ c, text = [c] ∧ isMark c = true ∧ behind = .between) ∨
      (text.all isDull = true ∧ behind = .inside) := by
  unfold behindWord at h
  split at h
  · rename_i c
    split at h
    · rename_i hc
      exact Or.inl ⟨by rw [hc], (Option.some.inj h).symm⟩
    · split at h
      · rename_i hmark
        exact Or.inr (Or.inl ⟨c, rfl, hmark, (Option.some.inj h).symm⟩)
      · split at h
        · rename_i hdull
          exact Or.inr (Or.inr ⟨by simp [hdull], (Option.some.inj h).symm⟩)
        · contradiction
  · split at h
    · rename_i hdull
      exact Or.inr (Or.inr ⟨hdull, (Option.some.inj h).symm⟩)
    · contradiction

/--
The footing that a pattern leads to from a footing, given the footings before and behind the rules
that it may call.  There is none if the pattern may not read side by side.
-/
def leadsTo (footings : Rule → Option (Footing × Footing)) : Pattern Rule → Footing → Option Footing
  | .word text, _ => behindWord text.toList
  | .char inClass, _ =>
      if inClass '/' || inClass '"' || inClass '\'' then none else some .inside
  | .start, _ => none
  | .finish, footing => some footing
  | .sub rule, footing => do
      let (before, behind) ← footings rule
      if footing.join before = before then some behind else none
  | .seq first second, footing => do
      let middle ← leadsTo footings first footing
      leadsTo footings second middle
  | .alt first second, footing => do
      let one ← leadsTo footings first footing
      let other ← leadsTo footings second footing
      return one.join other
  | .opt part, footing => do
      let behind ← leadsTo footings part footing
      return behind.join footing
  | .many part, footing => do
      let once ← leadsTo footings part footing
      let bound := once.join footing
      let again ← leadsTo footings part bound
      if part.advances Rule.isAdvancing && again.join bound = bound then some bound else none
  | .ahead part, footing => do
      let _ ← leadsTo footings part footing
      return footing
  | .absent part, footing => do
      let _ ← leadsTo footings part footing
      return footing

/--
Whether what a pattern takes is without gaps, given whether it is a part of a lexical rule and which
rules take no gaps.
-/
def isGapless (lexical : Bool) (gapless : Rule → Bool) : Pattern Rule → Bool
  | .sub rule => gapless rule
  | .seq first second =>
      lexical && isGapless lexical gapless first && isGapless lexical gapless second
  | .alt first second => isGapless lexical gapless first && isGapless lexical gapless second
  | .opt part => isGapless lexical gapless part
  | .many part => lexical && isGapless lexical gapless part
  | _ => true

/-! ## Reading from footing to footing -/

section Reading

variable {source source' : List Char} {gaps : List Char → Nat}
  {call : Rule → Cursor → Outcome Rule} {texts : Rule → Bool} {exact : Prop}
  {footings : Rule → Option (Footing × Footing)}

/-- A fixed text of dull characters is read side by side. -/
theorem parallel_dull {text : String} {footing : Footing} {post : List Char → List Char → Prop}
    (halike : Alike source source') (hdull : ∀ c ∈ text.toList, isDull c = true)
    (hpost : ∀ {more more'}, Inside source source' (text.toList ++ more) (text.toList ++ more') →
      post more more') :
    Parallel gaps call texts exact (footing.Holds source source') (.word text) post := by
  have hslash : ∀ c ∈ text.toList, c ≠ '/' := fun c hc =>
    of_decide_eq_true (Bool.and_eq_true_iff.mp (hdull c hc)).1
  have hinit : ∀ c ∈ text.toList.dropLast, isDull c = true := fun c hc =>
    hdull c ((List.dropLast_prefix _).subset hc)
  exact (parallel_word (Inside.front halike) hslash hinit hpost).mono Footing.Holds.inside id

/-- Behind an equals sign an aggregate may be opened. -/
theorem opens_aggregate {rest more : List Char} (h : skip rest = '\x7b' :: more) :
    Passage.aggregate.Opens ('=' :: rest) more := by
  have hequals : "=".toList = ['='] := by decide
  have hbrace : "\x7b".toList = ['\x7b'] := by decide
  have hrest : rest.drop (gapLength rest) = '\x7b' :: more := h
  refine ⟨0, 0, ⟨⟨1 + gapLength rest + 1, more⟩, []⟩, ?_, rfl⟩
  simp [Passage.aggregate, Pattern.chain, bodyStart, Pattern.run, Outcome.taken_andThen, hequals,
    hbrace, Cursor.advance, hrest]

/-- A fixed text with a footing behind it is read side by side. -/
theorem parallel_behindWord (halike : Alike source source')
    (hpassages : PassagesAlike source source') {text : String} {footing behind : Footing}
    (h : behindWord text.toList = some behind) :
    Parallel gaps call texts exact (footing.Holds source source') (.word text)
      (behind.Holds source source') := by
  rcases behindWord_cases h with ⟨htext, rfl⟩ | ⟨c, htext, hmark, rfl⟩ | ⟨hall, rfl⟩
  · have hdull : ∀ c ∈ text.toList, isDull c = true := by
      rw [htext]
      exact List.forall_mem_singleton.mpr rfl
    refine parallel_dull halike hdull fun {more more'} h => ?_
    rw [htext] at h
    have hbefore : Abreast source source' ('=' :: more) ('=' :: more') := h.abreast (by decide)
    have hbehind := hbefore.of_mark halike (by decide)
    refine ⟨hbehind, fun hmore hmore' => ?_⟩
    have hopened := hbehind.skip halike
    rw [hmore, hmore'] at hopened
    exact hpassages .aggregate (by simp [passages]) hbefore (opens_aggregate hmore)
      (opens_aggregate hmore') (hopened.of_mark halike (by decide)).inside
  · rcases Bool.and_eq_true_iff.mp hmark with ⟨hdull, hword⟩
    refine parallel_dull halike (by simpa [htext] using hdull) fun {more more'} h => ?_
    rw [htext] at h
    exact (h.abreast (by simpa using hword)).of_mark halike hmark
  · have hdull := List.all_eq_true.mp hall
    refine parallel_dull halike hdull (related_of_append (Inside.front halike) fun c hc => ?_)
    exact ⟨of_decide_eq_true (Bool.and_eq_true_iff.mp (hdull c hc)).1, hdull c hc⟩

/-- A class of dull characters is read side by side. -/
theorem parallel_dullClass {inClass : Char → Bool} {footing : Footing}
    (halike : Alike source source')
    (hclass : (inClass '/' || inClass '"' || inClass '\'') = false) :
    Parallel gaps call texts exact (footing.Holds source source') (.char inClass)
      (Footing.inside.Holds source source') := by
  simp only [Bool.or_eq_false_iff] at hclass
  refine (parallel_char (Inside.front halike) fun c hc => ?_).mono Footing.Holds.inside id
  have hslash := ne_of_class hc '/' hclass.1.1
  refine ⟨hslash, ?_⟩
  simp [isDull, isQuote, hslash, ne_of_class hc '"' hclass.1.2, ne_of_class hc '\'' hclass.2]

/-- A pattern that leads from a footing to another reads side by side. -/
theorem parallel_of_leadsTo (halike : Alike source source')
    (hpassages : PassagesAlike source source') (hcall : Shrinks Rule.isAdvancing call)
    (hrules : ∀ {rule before behind}, footings rule = some (before, behind) →
      Parallel gaps call texts (texts rule = true) (before.Holds source source') (.sub rule)
        (behind.Holds source source'))
    (lexical : Bool) (hgaps : gaps = if lexical then fun _ => 0 else gapLength)
    {pattern : Pattern Rule} {footing behind : Footing}
    (hleads : leadsTo footings pattern footing = some behind)
    (hexact : exact → isGapless lexical texts pattern = true) :
    Parallel gaps call texts exact (footing.Holds source source') pattern
      (behind.Holds source source') := by
  have hgap : ∀ {footing : Footing} {rest rest' : List Char},
      footing.Holds source source' rest rest' →
        footing.Holds source source' (rest.drop (gaps rest)) (rest'.drop (gaps rest')) := by
    intro footing rest rest' h
    rw [hgaps]
    cases lexical with
    | false => exact h.skip halike
    | true => exact h
  have hnone : lexical = true → ∀ rest, gaps rest = 0 := by
    rintro rfl rest
    rw [hgaps]
    rfl
  induction pattern generalizing footing behind exact with
  | word text => exact parallel_behindWord halike hpassages hleads
  | char inClass =>
      simp only [leadsTo] at hleads
      split at hleads
      · contradiction
      · rename_i hclass
        obtain rfl := Option.some.inj hleads
        exact parallel_dullClass halike (by simpa using hclass)
  | start => contradiction
  | finish =>
      obtain rfl := Option.some.inj hleads
      exact parallel_finish fun h => h.front halike
  | sub rule =>
      simp only [leadsTo, Option.bind_eq_bind, Option.bind_eq_some_iff] at hleads
      rcases hleads with ⟨⟨before, behind'⟩, hrule, hleads⟩
      split at hleads
      · rename_i hjoin
        obtain rfl := Option.some.inj hleads
        exact ((hrules hrule).inexact hexact).mono (fun h => h.weaken hjoin) id
      · contradiction
  | seq first second ihFirst ihSecond =>
      simp only [leadsTo, Option.bind_eq_bind, Option.bind_eq_some_iff] at hleads
      rcases hleads with ⟨middle, hfirst, hsecond⟩
      simp only [isGapless, Bool.and_eq_true] at hexact
      exact Parallel.seq (ihFirst hfirst fun h => (hexact h).1.2) hgap
        (fun h => hnone (hexact h).1.1) (ihSecond hsecond fun h => (hexact h).2)
  | alt first second ihFirst ihSecond =>
      simp only [leadsTo, Option.bind_eq_bind, Option.bind_eq_some_iff] at hleads
      rcases hleads with ⟨one, hfirst, other, hsecond, hbehind⟩
      obtain rfl := Option.some.inj hbehind
      simp only [isGapless, Bool.and_eq_true] at hexact
      exact Parallel.alt ((ihFirst hfirst fun h => (hexact h).1).mono id Footing.Holds.join_left)
        ((ihSecond hsecond fun h => (hexact h).2).mono id Footing.Holds.join_right)
  | opt part ih =>
      simp only [leadsTo, Option.bind_eq_bind, Option.bind_eq_some_iff] at hleads
      rcases hleads with ⟨once, hpart, hbehind⟩
      obtain rfl := Option.some.inj hbehind
      exact Parallel.opt ((ih hpart hexact).mono id Footing.Holds.join_left)
        Footing.Holds.join_right
  | many part ih =>
      simp only [leadsTo, Option.bind_eq_bind, Option.bind_eq_some_iff] at hleads
      rcases hleads with ⟨once, -, again, hagain, hbehind⟩
      split at hbehind
      · rename_i hbound
        obtain rfl := Option.some.inj hbehind
        simp only [Bool.and_eq_true, decide_eq_true_eq] at hbound
        simp only [isGapless, Bool.and_eq_true] at hexact
        have hpart := (ih hagain fun h => (hexact h).2).mono id
          fun h => h.weaken hbound.2
        exact (Parallel.many hpart (length_lt_of_run hcall hbound.1) hgap
          (fun h => hnone (hexact h).1) id).mono Footing.Holds.join_right id
      · contradiction
  | ahead part ih =>
      simp only [leadsTo, Option.bind_eq_bind, Option.bind_eq_some_iff] at hleads
      rcases hleads with ⟨once, hpart, hbehind⟩
      obtain rfl := Option.some.inj hbehind
      exact Parallel.ahead (ih hpart False.elim)
  | absent part ih =>
      simp only [leadsTo, Option.bind_eq_bind, Option.bind_eq_some_iff] at hleads
      rcases hleads with ⟨once, hpart, hbehind⟩
      obtain rfl := Option.some.inj hbehind
      exact (Parallel.absent (ih hpart False.elim)).mono id And.left

end Reading

end Source
end ElmBinding
