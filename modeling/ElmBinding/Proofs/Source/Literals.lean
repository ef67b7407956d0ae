import ElmBinding.Proofs.Source.Lockstep

/-!
# Reading string literals

The rule of string literals takes the literal at the front of a text and nothing else.  The same
literals are in front of two texts at corresponding places, so they are read side by side.

Main results:

- Theorem {lit}`taken_stringLiteral`: what the rule of string literals takes.
- Theorem {lit}`parallel_stringLiteral`: literals are read side by side.
-/

namespace ElmBinding
namespace Source

open Grammar Grammar.Pattern

section Literals

variable {call : Rule → Cursor → Outcome Rule} {text : String} {mark : Char}

/-- One character between quotes, or a backslash with the character behind it. -/
def quotedItem (mark : String) : Pattern Rule :=
  chain [(word mark).absent, choice [chain [word "\\", any], any]]

/-- The length of an item between quotes, which is none in front of the closing mark. -/
def itemLength (mark : Char) : List Char → Nat
  | [] => 0
  | c :: rest => if c = mark then 0 else if c = '\\' ∧ rest ≠ [] then 2 else 1

/-- Between quotes there is one item after the other. -/
theorem quotedBody_eq (hmark : mark ≠ '\\') (rest : List Char) :
    quotedBody mark rest = if itemLength mark rest = 0 then 0
      else itemLength mark rest + quotedBody mark (rest.drop (itemLength mark rest)) := by
  induction rest using quotedBody.induct mark with
  | case1 => rfl
  | case2 c rest _ => simp [quotedBody, itemLength, Ne.symm hmark]
  | case3 rest hescape => simp [quotedBody, itemLength]
  | case4 c rest hescape hc _ =>
      have hnone : ¬(c = '\\' ∧ rest ≠ []) := by
        rintro ⟨hc, hrest⟩
        rcases List.exists_cons_of_ne_nil hrest with ⟨d, more, hmore⟩
        exact hescape d more hc hmore
      rw [quotedBody.eq_3 _ _ _ hescape]
      simp [itemLength, hc, hnone]

/-- An item between quotes is taken where there is one. -/
theorem taken_quotedItem (htext : text.toList = [mark]) (cursor : Cursor) :
    ((quotedItem text).run (fun _ => 0) call cursor).taken =
      if itemLength mark cursor.rest = 0 then none
      else some ⟨cursor.advance (itemLength mark cursor.rest), []⟩ := by
  have hslash : "\\".toList = ['\\'] := by decide
  rcases cursor with ⟨pos, rest⟩
  simp only [quotedItem, chain, choice, any, run, Outcome.taken_andThen, Outcome.taken_orElse,
    htext, hslash]
  cases rest with
  | nil => simp [itemLength]
  | cons c rest =>
      by_cases hc : c = mark
      · simp [itemLength, hc]
      · by_cases hback : c = '\\'
        · subst hback
          cases rest with
          | nil => simp [itemLength, hc, Ne.symm hc, Cursor.advance]
          | cons d rest => simp [itemLength, hc, Ne.symm hc, Cursor.advance]
        · simp [itemLength, hc, hback, Ne.symm hc, Ne.symm hback]

/-- Items between quotes are taken as long as there are any. -/
theorem taken_repeatReading_quotedItem (htext : text.toList = [mark]) (hmark : mark ≠ '\\')
    {bound : List Char} {cursor : Cursor} (hbound : cursor.rest.length ≤ bound.length) :
    (repeatReading (fun next => (quotedItem text).run (fun _ => 0) call (next.advance 0)) bound
      cursor).taken = some ⟨cursor.advance (quotedBody mark cursor.rest), []⟩ := by
  induction bound generalizing cursor with
  | nil =>
      have hrest : cursor.rest = [] := List.length_eq_zero_iff.mp (Nat.le_zero.mp hbound)
      rw [hrest]
      rfl
  | cons c bound ih =>
      rw [repeatReading, Outcome.taken_orElse, Outcome.taken_andThen, Cursor.advance_zero,
        taken_quotedItem htext, quotedBody_eq hmark]
      by_cases hitem : itemLength mark cursor.rest = 0
      · rw [if_pos hitem, if_pos hitem]
        rfl
      · have hless : (cursor.advance (itemLength mark cursor.rest)).rest.length ≤ bound.length := by
          rw [List.length_cons] at hbound
          rw [Cursor.advance, List.length_drop]
          omega
        rw [if_neg hitem, if_neg hitem, Option.bind_some, ih hless, Cursor.advance_advance]
        rfl

/-- All items between quotes are taken. -/
theorem taken_many_quotedItem (htext : text.toList = [mark]) (hmark : mark ≠ '\\')
    (cursor : Cursor) :
    ((quotedItem text).many.run (fun _ => 0) call cursor).taken =
      some ⟨cursor.advance (quotedBody mark cursor.rest), []⟩ := by
  rw [run, Outcome.taken_orElse, Outcome.taken_andThen, taken_quotedItem htext,
    quotedBody_eq hmark]
  by_cases hitem : itemLength mark cursor.rest = 0
  · rw [if_pos hitem, if_pos hitem]
    rfl
  · have hle := length_advance_le cursor (itemLength mark cursor.rest)
    rw [if_neg hitem, if_neg hitem, Option.bind_some,
      taken_repeatReading_quotedItem htext hmark hle, Cursor.advance_advance]
    rfl

/-- A quote is taken where there is one. -/
theorem taken_quote (htext : text.toList = [mark]) (cursor : Cursor) :
    ((word text : Pattern Rule).run (fun _ => 0) call cursor).taken =
      if cursor.rest.head? = some mark then some ⟨cursor.advance 1, []⟩ else none := by
  rw [run, htext]
  cases cursor.rest with
  | nil => rfl
  | cons c rest =>
      by_cases hc : c = mark
      · simp [hc]
      · simp [hc, Ne.symm hc]

/-- A text between quotes is taken if it is closed. -/
theorem taken_quoted (htext : text.toList = [mark]) (hmark : mark ≠ '\\') (pos : Nat) (c : Char)
    (rest : List Char) :
    ((quoted text).run (fun _ => 0) call ⟨pos, c :: rest⟩).taken =
      if c = mark ∧ (rest.drop (quotedBody mark rest)).head? = some mark then
        some ⟨Cursor.advance ⟨pos, c :: rest⟩ (quotedBody mark rest + 2), []⟩
      else
        none := by
  have hchain : quoted text = .seq (word text) (.seq (quotedItem text).many (word text)) := rfl
  have hinner : ((Pattern.seq (quotedItem text).many (word text)).run (fun _ => 0) call
      (Cursor.advance ⟨pos, c :: rest⟩ 1)).taken =
        if (rest.drop (quotedBody mark rest)).head? = some mark then
          some ⟨Cursor.advance ⟨pos, c :: rest⟩ (quotedBody mark rest + 2), []⟩
        else none := by
    have hbehind : (Cursor.advance ⟨pos, c :: rest⟩ 1).rest = rest := rfl
    have hlength : 1 + quotedBody mark rest + 1 = quotedBody mark rest + 2 := by omega
    rw [run, Outcome.taken_andThen, taken_many_quotedItem htext hmark, hbehind, Option.bind_some]
    simp only [Cursor.advance_zero, taken_quote htext]
    rw [Cursor.advance_advance, Cursor.advance_advance, hlength]
    have hrest : (Cursor.advance ⟨pos, c :: rest⟩ (1 + quotedBody mark rest)).rest =
        rest.drop (quotedBody mark rest) := by
      simp [Cursor.advance, Nat.add_comm 1]
    rw [hrest]
    split <;> rfl
  rw [hchain, run, Outcome.taken_andThen, taken_quote htext]
  by_cases hc : c = mark
  · subst hc
    rw [if_pos List.head?_cons, Option.bind_some, Cursor.advance_zero, hinner]
    split <;> simp_all
  · simp [hc]

/-- The rule of string literals takes the literal at the front of a text. -/
theorem taken_stringLiteral (cursor : Cursor) :
    (Rule.stringLiteral.production.body.run (fun _ => 0) call cursor).taken =
      if literalLength cursor.rest = 0 then none
      else some ⟨cursor.advance (literalLength cursor.rest), []⟩ := by
  have hdouble : "\"".toList = ['"'] := by decide
  have hsingle : "'".toList = ['\''] := by decide
  have hbody : Rule.stringLiteral.production.body = .alt (quoted "\"") (quoted "'") := rfl
  rcases cursor with ⟨pos, rest⟩
  rw [hbody, run, Outcome.taken_orElse]
  cases rest with
  | nil => rfl
  | cons c rest =>
      rw [taken_quoted hdouble (by decide), taken_quoted hsingle (by decide)]
      by_cases hc : c = '"'
      · simp [literalLength, hc, isQuote]
        split <;> simp_all
      · by_cases hc' : c = '\''
        · simp [literalLength, hc', isQuote]
          split <;> simp_all
        · simp [literalLength, hc, hc', isQuote]

/-- Literals are read side by side. -/
theorem parallel_stringLiteral {source source' : List Char} {texts : Rule → Bool} {exact : Prop}
    (halike : Alike source source') :
    Parallel (fun _ => 0) call texts exact (Inside source source')
      Rule.stringLiteral.production.body (Abreast source source') := by
  intro cursor cursor' hpre
  rw [taken_stringLiteral, taken_stringLiteral]
  cases hpre.literal halike with
  | none hnone hnone' =>
      rw [if_pos hnone, if_pos hnone']
      exact .none
  | literal hpos hlength hsame hrest =>
      rw [if_neg (by omega), if_neg (by omega), hlength]
      exact .some hrest rfl fun _ => ⟨_, rfl, rfl, hsame⟩

end Literals

end Source
end ElmBinding
