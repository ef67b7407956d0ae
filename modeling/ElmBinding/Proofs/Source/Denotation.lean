import ElmBinding.Proofs.Grammar.Texts
import ElmBinding.Source.Literal
import ElmBinding.Source.Rules
import Mathlib.Data.Nat.Digits.Defs

/-!
# What literals denote

A literal denotes the number that its digits make up in the base that the grammar takes them for:
16 behind `0x`, 8 where only digits of that base follow a zero, and 10 otherwise.  It is read as
this number, brought into the range of 64 bits, but for two sorts of literals that count as zero:
those whose magnitude needs more than 127 bits, and decimal ones with a zero in front, whose digits
are looked up in the base 8.

Main results:

- Definition {lit}`denoted`: the number that a literal denotes.
- Definition {lit}`IsLiteral`: the texts that the rule of numbers takes.
- Theorem {lit}`spelled_of_isLiteral`: the three ways in which the rule takes a text.
- Theorem {lit}`integerValue_of_isLiteral`: what a literal is read as.
- Theorem {lit}`integerValue_eq_denoted_iff`: which literals are read as what they denote.
-/

namespace ElmBinding
namespace Source

open Grammar Grammar.Pattern

/-! ## Numbers of digits -/

/-- The worth of a digit, up to the letter {lit}`f` in both cases. -/
def digitWorth (c : Char) : Nat :=
  "0123456789abcdef".toList.idxOf c.toLower

/-- The number that digits make up in a base. -/
def positional (base : Nat) (digits : List Char) : Nat :=
  Nat.ofDigits base (digits.map digitWorth).reverse

/-- A first digit counts as often as there are numbers with the other digits. -/
theorem positional_cons (base : Nat) (c : Char) (digits : List Char) :
    positional base (c :: digits) =
      digitWorth c * base ^ digits.length + positional base digits := by
  rw [positional, List.map_cons, List.reverse_cons, Nat.ofDigits_append, Nat.ofDigits_singleton,
    List.length_reverse, List.length_map, Nat.add_comm, Nat.mul_comm]
  rfl

/-- A number with a digit that is worth something is not zero. -/
theorem positional_pos {base : Nat} (hbase : 0 < base) {digits : List Char} {c : Char}
    (hmem : c ∈ digits) (hworth : 0 < digitWorth c) : 0 < positional base digits := by
  induction digits with
  | nil => contradiction
  | cons d digits ih =>
      rw [positional_cons]
      rcases List.mem_cons.mp hmem with rfl | hmem
      · exact Nat.add_pos_left (Nat.mul_pos hworth (Nat.pow_pos hbase)) _
      · exact Nat.add_pos_right _ (ih hmem)

/-- What holds of the first characters by code point holds of them. -/
theorem of_toNat_lt (p : Char → Prop) (hall : ∀ n < 128, p (Char.ofNat n)) {c : Char}
    (hc : c.toNat < 128) : p c := by
  have hp := hall c.toNat hc
  rw [Char.ofNat_toNat] at hp
  exact hp

/-- The digits of every base are among the first characters. -/
theorem toNat_lt_of_isHexDigit {c : Char} (hc : isHexDigit c = true) : c.toNat < 128 := by
  have hval : c.toNat = c.val.toNat := rfl
  simp only [isHexDigit, Char.isDigit, Bool.or_eq_true, Bool.and_eq_true, decide_eq_true_eq,
    Char.le_def, UInt32.le_iff_toNat_le] at hc
  rcases hc with (⟨-, hc⟩ | ⟨-, hc⟩) | ⟨-, hc⟩ <;> simp at hc <;> omega

/-- A decimal digit is a hexadecimal one. -/
theorem isHexDigit_of_isDigit {c : Char} (hc : c.isDigit = true) : isHexDigit c = true := by
  simp [isHexDigit, hc]

/-- An octal digit is a decimal one. -/
theorem isDigit_of_isOctalDigit {c : Char} (hc : isOctalDigit c = true) : c.isDigit = true := by
  simp only [isOctalDigit, Char.isDigit, Bool.and_eq_true, decide_eq_true_eq, Char.le_def,
    UInt32.le_iff_toNat_le] at hc ⊢
  refine ⟨hc.1, ?_⟩
  have h := hc.2
  simp at h ⊢
  omega

/-- A hexadecimal digit is read as what it is worth. -/
theorem digitIn?_of_isHexDigit {c : Char} (hc : isHexDigit c = true) :
    digitIn? 16 c = some (digitWorth c) :=
  of_toNat_lt (fun c => isHexDigit c = true → digitIn? 16 c = some (digitWorth c))
    (by decide +kernel) (toNat_lt_of_isHexDigit hc) hc

/-- A decimal digit is read as what it is worth. -/
theorem digitIn?_of_isDigit {c : Char} (hc : c.isDigit = true) :
    digitIn? 10 c = some (digitWorth c) :=
  of_toNat_lt (fun c => c.isDigit = true → digitIn? 10 c = some (digitWorth c))
    (by decide +kernel) (toNat_lt_of_isHexDigit (isHexDigit_of_isDigit hc)) hc

/-- An octal digit is read as what it is worth. -/
theorem digitIn?_of_isOctalDigit {c : Char} (hc : isOctalDigit c = true) :
    digitIn? 8 c = some (digitWorth c) :=
  of_toNat_lt (fun c => isOctalDigit c = true → digitIn? 8 c = some (digitWorth c))
    (by decide +kernel)
    (toNat_lt_of_isHexDigit (isHexDigit_of_isDigit (isDigit_of_isOctalDigit hc))) hc

/-- A decimal digit that is no octal one is not read as an octal one, and it is not zero. -/
theorem digitIn?_of_not_isOctalDigit {c : Char} (hc : c.isDigit = true)
    (hoctal : isOctalDigit c = false) : digitIn? 8 c = none ∧ 0 < digitWorth c :=
  of_toNat_lt (fun c => c.isDigit = true → isOctalDigit c = false →
      digitIn? 8 c = none ∧ 0 < digitWorth c)
    (by decide +kernel) (toNat_lt_of_isHexDigit (isHexDigit_of_isDigit hc)) hc hoctal

/-- Digits that are read one by one as what they are worth are read as the number they make up. -/
theorem readDigitsFrom?_eq_positional {base : Nat} {digits : List Char}
    (hdigits : ∀ c ∈ digits, digitIn? base c = some (digitWorth c)) (high : Nat) :
    readDigitsFrom? base high digits =
      some (high * base ^ digits.length + positional base digits) := by
  induction digits generalizing high with
  | nil => simp [readDigitsFrom?, positional]
  | cons c digits ih =>
      rcases List.forall_mem_cons.mp hdigits with ⟨hc, hrest⟩
      rw [readDigitsFrom?, hc, Option.bind_some, ih hrest, positional_cons, List.length_cons,
        Nat.pow_succ]
      congr 1
      ring

/-- Digits are read as the number they make up. -/
theorem readDigits?_eq {base : Nat} {digits : List Char}
    (hdigits : ∀ c ∈ digits, digitIn? base c = some (digitWorth c)) :
    readDigits? base digits = some (positional base digits) := by
  rw [readDigits?, readDigitsFrom?_eq_positional hdigits, Nat.zero_mul, Nat.zero_add]

/-! ## The texts of literals -/

/-- The texts of literals without sign, with the base in which the grammar takes their digits. -/
inductive Spelled : Nat → List Char → List Char → Prop
  | hexadecimal {mark : Char} {digits : List Char} (hmark : mark = 'x' ∨ mark = 'X')
      (hdigits : ∀ c ∈ digits, isHexDigit c = true) : Spelled 16 digits ('0' :: mark :: digits)
  | octal {c : Char} {digits : List Char} (hdigits : ∀ d ∈ c :: digits, isOctalDigit d = true) :
      Spelled 8 (c :: digits) ('0' :: c :: digits)
  /-- Behind a zero, the first digit of a decimal literal is not octal. -/
  | decimal {c : Char} {digits : List Char} (hdigits : ∀ d ∈ c :: digits, d.isDigit = true)
      (hzero : c = '0' → ∀ d rest, digits = d :: rest → isOctalDigit d = false) :
      Spelled 10 (c :: digits) (c :: digits)

/-- The number that a literal without sign denotes. -/
def denotedMagnitude : List Char → Nat
  | '0' :: 'x' :: digits => positional 16 digits
  | '0' :: 'X' :: digits => positional 16 digits
  | '0' :: digit :: digits =>
      if isOctalDigit digit then
        positional 8 (digit :: digits)
      else
        positional 10 (digit :: digits)
  | digits => positional 10 digits

/-- The number that a literal denotes. -/
def denoted : List Char → Int
  | '-' :: literal => -(denotedMagnitude literal : Int)
  | literal => denotedMagnitude literal

/-- Whether a literal without sign is a decimal one with a zero in front of another digit. -/
def hasLeadingZero : List Char → Bool
  | '0' :: digit :: _ => digit.isDigit && !isOctalDigit digit
  | _ => false

/-- Whether a literal without sign is read as what it denotes. -/
def isReadableMagnitude (literal : List Char) : Bool :=
  !hasLeadingZero literal && decide (denotedMagnitude literal < 2 ^ 127)

/-- Whether a literal is read as what it denotes. -/
def isReadable : List Char → Bool
  | '-' :: literal => isReadableMagnitude literal
  | literal => isReadableMagnitude literal

/-- What comes behind a zero and is a digit is no mark of the base 16. -/
theorem ne_mark_of_isDigit {c : Char} (hc : c.isDigit = true) : c ≠ 'x' ∧ c ≠ 'X' := by
  constructor
  · rintro rfl
    contradiction
  · rintro rfl
    contradiction

/-- Behind a zero, the first digit tells the base. -/
theorem denotedMagnitude_zero {c : Char} (hc : c.isDigit = true) (digits : List Char) :
    denotedMagnitude ('0' :: c :: digits) =
      if isOctalDigit c then positional 8 (c :: digits) else positional 10 (c :: digits) := by
  rcases ne_mark_of_isDigit hc with ⟨hsmall, hcapital⟩
  rw [denotedMagnitude]
  · exact hsmall
  · exact hcapital

/-- Behind a zero, digits are read in the base 8. -/
theorem unsigned?_zero {c : Char} (hc : c.isDigit = true) (digits : List Char) :
    unsigned? ('0' :: c :: digits) = readDigits? 8 (c :: digits) := by
  rcases ne_mark_of_isDigit hc with ⟨hsmall, hcapital⟩
  rw [unsigned?]
  · exact hsmall
  · exact hcapital

namespace Spelled

variable {base : Nat} {digits text : List Char}

/-- A literal denotes the number that its digits make up in its base. -/
theorem denotedMagnitude_eq (h : Spelled base digits text) :
    denotedMagnitude text = positional base digits := by
  cases h with
  | hexadecimal hmark hdigits => rcases hmark with rfl | rfl <;> rw [denotedMagnitude]
  | @octal c digits hdigits =>
      have hc := hdigits c List.mem_cons_self
      rw [denotedMagnitude_zero (isDigit_of_isOctalDigit hc), if_pos hc]
  | @decimal c digits hdigits hzero =>
      by_cases heq : c = '0'
      · cases digits with
        | nil =>
            rw [heq]
            rfl
        | cons d rest =>
            have hd := hdigits d (List.mem_cons_of_mem _ List.mem_cons_self)
            have hoctal := hzero heq d rest rfl
            have hworth : digitWorth '0' = 0 := by decide
            rw [heq, denotedMagnitude_zero hd, hoctal, positional_cons 10 '0', hworth]
            simp
      · rw [denotedMagnitude]
        · intro _ h
          exact heq (List.cons.inj h).1
        · intro _ h
          exact heq (List.cons.inj h).1
        · intro _ _ h
          exact heq (List.cons.inj h).1

/-- A literal is read in its base, but in the base 8 if it is a decimal one behind a zero. -/
theorem unsigned?_eq (h : Spelled base digits text) :
    unsigned? text = if hasLeadingZero text then none else some (denotedMagnitude text) := by
  rw [h.denotedMagnitude_eq]
  cases h with
  | hexadecimal hmark hdigits =>
      have hread := readDigits?_eq fun c hc => digitIn?_of_isHexDigit (hdigits c hc)
      rcases hmark with rfl | rfl <;> exact hread
  | @octal c digits hdigits =>
      have hc := hdigits c List.mem_cons_self
      have hread := readDigits?_eq fun c hc => digitIn?_of_isOctalDigit (hdigits c hc)
      rw [unsigned?_zero (isDigit_of_isOctalDigit hc), hread, hasLeadingZero, hc]
      simp
  | @decimal c digits hdigits hzero =>
      have hread := readDigits?_eq fun c hc => digitIn?_of_isDigit (hdigits c hc)
      by_cases heq : c = '0'
      · cases digits with
        | nil =>
            rw [heq] at hread ⊢
            exact hread
        | cons d rest =>
            have hd := hdigits d (List.mem_cons_of_mem _ List.mem_cons_self)
            have hoctal := hzero heq d rest rfl
            rw [heq, unsigned?_zero hd, hasLeadingZero, hd, hoctal, readDigits?, readDigitsFrom?,
              (digitIn?_of_not_isOctalDigit hd hoctal).1]
            rfl
      · have hnone : hasLeadingZero (c :: digits) = false := by
          unfold hasLeadingZero
          split
          · rename_i hchars
            exact absurd (List.cons.inj hchars).1 heq
          · rfl
        rw [hnone, unsigned?]
        · exact hread
        · intro _ h
          exact heq (List.cons.inj h).1
        · intro _ h
          exact heq (List.cons.inj h).1
        · intro _ _ h
          exact heq (List.cons.inj h).1

/-- A decimal literal behind a zero does not denote zero. -/
theorem denotedMagnitude_pos (h : Spelled base digits text) (hzero : hasLeadingZero text = true) :
    0 < denotedMagnitude text := by
  unfold hasLeadingZero at hzero
  split at hzero
  · rename_i c rest
    simp only [Bool.and_eq_true, Bool.not_eq_true'] at hzero
    rcases hzero with ⟨hc, hoctal⟩
    rw [denotedMagnitude_zero hc, hoctal]
    exact positional_pos (by decide) List.mem_cons_self (digitIn?_of_not_isOctalDigit hc hoctal).2
  · contradiction

end Spelled

/-! ## What the rule of numbers takes -/

/-- A text that the rule of numbers takes from the front of an input. -/
def IsLiteral (text : List Char) : Prop :=
  schemaGrammar.Derives ⟨.integerValue, 0, text, []⟩

section Cuts

variable {call : Rule → Cursor → Outcome Rule} {cursor : Cursor} {taken first second : Taken Rule}
  {text text' : List Char}

/-- A reading that takes a text from the front of the input. -/
def Cuts (cursor : Cursor) (text : List Char) (taken : Taken Rule) : Prop :=
  ∃ rest, cursor.rest = text ++ rest ∧ taken.cursor = ⟨cursor.pos + text.length, rest⟩

/-- Two readings, one directly after the other, take two texts. -/
theorem Cuts.append (hfirst : Cuts cursor text first) (hsecond : Cuts first.cursor text' second)
    (nodes : List (Node Rule)) : Cuts cursor (text ++ text') ⟨second.cursor, nodes⟩ := by
  rcases hfirst with ⟨middle, hmiddle, hcursor⟩
  rcases hsecond with ⟨rest, hrest, hend⟩
  rw [hcursor] at hrest hend
  change middle = text' ++ rest at hrest
  refine ⟨rest, ?_, ?_⟩
  · rw [hmiddle, hrest, List.append_assoc]
  · rw [List.length_append, ← Nat.add_assoc]
    exact hend

/-- The text that is taken is the one between the places. -/
theorem Cuts.take_eq (h : Cuts cursor text taken) :
    cursor.rest.take (taken.cursor.pos - cursor.pos) = text := by
  rcases h with ⟨rest, hrest, hcursor⟩
  rw [hcursor, Nat.add_sub_cancel_left, hrest, List.take_left]

/-- A fixed text is taken where it is at the front of the input. -/
theorem cuts_word {word : String}
    (h : ((Pattern.word word).run (fun _ => 0) call cursor).taken = some taken) :
    Cuts cursor word.toList taken := by
  rw [run] at h
  split at h
  · rename_i hfront
    rcases List.isPrefixOf_iff_prefix.mp hfront with ⟨rest, hrest⟩
    refine ⟨rest, hrest.symm, ?_⟩
    rw [← Option.some.inj h, Cursor.advance, ← hrest, List.drop_left]
  · simp at h

/-- A class takes one character of it. -/
theorem cuts_char {inClass : Char → Bool}
    (h : ((Pattern.char inClass).run (fun _ => 0) call cursor).taken = some taken) :
    ∃ c, inClass c = true ∧ Cuts cursor [c] taken := by
  rw [run] at h
  split at h
  · rename_i hclass
    cases hrest : cursor.rest with
    | nil => simp [hrest] at hclass
    | cons c rest =>
        refine ⟨c, by simpa [hrest] using hclass, rest, hrest, ?_⟩
        rw [← Option.some.inj h, Cursor.advance, hrest]
        rfl
  · simp at h

/-- A class takes characters of it, as often as they are there. -/
theorem cuts_many {inClass : Char → Bool}
    (h : ((Pattern.char inClass).many.run (fun _ => 0) call cursor).taken = some taken) :
    ∃ text, (∀ c ∈ text, inClass c = true) ∧ Cuts cursor text taken := by
  refine Pattern.run_keeps
    (fun cursor taken => ∃ text, (∀ c ∈ text, inClass c = true) ∧ Cuts cursor text taken)
    (fun cursor => ⟨[], by simp, cursor.rest, rfl, rfl⟩) ?_ ?_ h
  · rintro cursor first second ⟨text, htext, hfirst⟩ ⟨text', htext', hsecond⟩
    exact ⟨text ++ text', List.forall_mem_append.mpr ⟨htext, htext'⟩, hfirst.append hsecond _⟩
  · intro leaf hmem cursor taken hleaf
    rw [List.mem_singleton.mp hmem] at hleaf
    rcases cuts_char hleaf with ⟨c, hc, hcut⟩
    exact ⟨[c], by simpa using hc, hcut⟩

/-- A class takes characters of it, one at least. -/
theorem cuts_many1 {inClass : Char → Bool}
    (h : ((Pattern.char inClass).many1.run (fun _ => 0) call cursor).taken = some taken) :
    ∃ c text, (∀ d ∈ c :: text, inClass d = true) ∧ Cuts cursor (c :: text) taken := by
  rcases exists_of_taken_andThen h with ⟨first, second, hfirst, hsecond, rfl⟩
  rcases cuts_char hfirst with ⟨c, hc, hcut⟩
  rcases cuts_many hsecond with ⟨text, htext, hcut'⟩
  exact ⟨c, text, List.forall_mem_cons.mpr ⟨hc, htext⟩, hcut.append hcut' _⟩

/-- Where an octal digit follows a zero, an octal literal is taken. -/
theorem taken_octal_ne_none {c : Char} {rest : List Char} (hrest : cursor.rest = '0' :: c :: rest)
    (hc : isOctalDigit c = true) :
    ((chain [word "0", (char isOctalDigit).many1]).run (fun _ => 0) call cursor).taken ≠ none := by
  have hmany : ∀ next, (((char isOctalDigit).many.run (fun _ => 0) call next).taken) ≠ none := by
    intro next
    rw [run, Outcome.taken_orElse, Outcome.taken_stay]
    simp
  have hzero : ((word "0").run (fun _ => 0) call cursor).taken =
      some ⟨⟨cursor.pos + 1, c :: rest⟩, []⟩ := by
    simp [run, hrest, Cursor.advance, List.isPrefixOf]
  have hdigit : ((char isOctalDigit).run (fun _ => 0) call ⟨cursor.pos + 1, c :: rest⟩).taken =
      some ⟨⟨cursor.pos + 2, rest⟩, []⟩ := by
    simp [run, hc, Cursor.advance]
  change ((run (fun _ => 0) call (word "0") cursor).andThen fun next =>
    (run (fun _ => 0) call (char isOctalDigit) (next.advance 0)).andThen fun next =>
      run (fun _ => 0) call (char isOctalDigit).many (next.advance 0)).taken ≠ none
  simp [Outcome.taken_andThen, hzero, hdigit, hmany]

/-- Behind the sign, a literal without sign is taken. -/
theorem exists_spelled_of_taken
    (h : ((choice [
        chain [word "0", oneOf ["x", "X"], (char isHexDigit).many1],
        chain [word "0", (char isOctalDigit).many1],
        (char Char.isDigit).many1]).run (fun _ => 0) call cursor).taken = some taken) :
    ∃ base digits text, Spelled base digits text ∧ Cuts cursor text taken := by
  change ((run _ _ _ _).orElse ((run _ _ _ _).orElse _)).taken = _ at h
  rw [Outcome.taken_orElse, Option.or_eq_some_iff] at h
  rcases h with h | ⟨-, h⟩
  · rcases exists_of_taken_andThen h with ⟨zero, others, hzero, hothers, rfl⟩
    rcases exists_of_taken_andThen hothers with ⟨mark, digits, hmark, hdigits, rfl⟩
    have hcutMark : ∃ c, (c = 'x' ∨ c = 'X') ∧ Cuts zero.cursor [c] mark := by
      rcases taken_of_orElse hmark with hmark | hmark
      · exact ⟨'x', Or.inl rfl, cuts_word hmark⟩
      · exact ⟨'X', Or.inr rfl, cuts_word hmark⟩
    rcases hcutMark with ⟨c, hc, hcutMark⟩
    rcases cuts_many1 hdigits with ⟨d, rest, hrest, hcutDigits⟩
    exact ⟨16, _, _, .hexadecimal hc hrest,
      (cuts_word hzero).append (hcutMark.append hcutDigits _) _⟩
  · rw [Outcome.taken_orElse, Option.or_eq_some_iff] at h
    rcases h with h | ⟨hnone, h⟩
    · rcases exists_of_taken_andThen h with ⟨zero, digits, hzero, hdigits, rfl⟩
      rcases cuts_many1 hdigits with ⟨c, rest, hrest, hcut⟩
      exact ⟨8, _, _, .octal hrest, (cuts_word hzero).append hcut _⟩
    · rcases cuts_many1 h with ⟨c, digits, hdigits, hcut⟩
      refine ⟨10, _, _, .decimal hdigits ?_, hcut⟩
      rintro rfl d rest rfl
      by_contra hoctal
      rw [Bool.not_eq_false] at hoctal
      rcases hcut with ⟨more, hmore, -⟩
      exact taken_octal_ne_none hmore hoctal hnone

end Cuts

variable {text : List Char}

/-- A literal is one without sign, possibly behind a minus sign. -/
theorem spelled_of_isLiteral (h : IsLiteral text) :
    ∃ base digits unsigned, Spelled base digits unsigned ∧
      (text = unsigned ∨ text = '-' :: unsigned) := by
  rcases h with ⟨call, cursor, inside, hinside, htext⟩
  change ((run (fun _ => 0) call ((word "-").opt) cursor).andThen fun next =>
    run (fun _ => 0) call _ (next.advance 0)).taken = some inside at hinside
  change text = _ at htext
  rcases exists_of_taken_andThen hinside with ⟨sign, others, hsign, hothers, rfl⟩
  rcases exists_spelled_of_taken hothers with ⟨base, digits, unsigned, hspelled, hcut⟩
  refine ⟨base, digits, unsigned, hspelled, ?_⟩
  rcases taken_of_orElse hsign with hsign | hsign
  · right
    rw [htext, ((cuts_word hsign).append hcut _).take_eq]
    rfl
  · left
    have hstay : Cuts cursor [] sign := by
      rw [eq_of_taken_stay hsign]
      exact ⟨cursor.rest, rfl, rfl⟩
    rw [htext, (hstay.append hcut _).take_eq]
    rfl

/-! ## How literals are read -/

/-- What a literal is read as before it is brought into the range of 64 bits. -/
def literalValue (text : List Char) : Int :=
  if isReadable text then denoted text else 0

namespace Spelled

variable {base : Nat} {digits unsigned : List Char}

/-- The magnitude of a literal is what it denotes, or zero if it is not readable. -/
theorem magnitude_eq (h : Spelled base digits unsigned) :
    magnitude unsigned =
      if isReadableMagnitude unsigned then denotedMagnitude unsigned else 0 := by
  have hlimit : magnitudeLimit = 2 ^ 127 := by decide
  rw [magnitude, h.unsigned?_eq, isReadableMagnitude, hlimit]
  cases hasLeadingZero unsigned with
  | true => rfl
  | false =>
      rw [if_neg Bool.false_ne_true, Option.filter_some, Bool.not_false, Bool.true_and]
      split <;> rfl

/-- A literal that is not readable does not denote zero. -/
theorem denotedMagnitude_ne_zero (h : Spelled base digits unsigned)
    (hreadable : isReadableMagnitude unsigned = false) : denotedMagnitude unsigned ≠ 0 := by
  cases hzero : hasLeadingZero unsigned with
  | true => exact (h.denotedMagnitude_pos hzero).ne'
  | false =>
      simp only [isReadableMagnitude, hzero, Bool.not_false, Bool.true_and,
        decide_eq_false_iff_not] at hreadable
      omega

/-- A literal without sign does not begin with a sign. -/
theorem ne_minus_cons (h : Spelled base digits unsigned) (rest : List Char) :
    unsigned ≠ '-' :: rest := by
  cases h with
  | hexadecimal | octal => simp
  | @decimal c digits hdigits =>
      intro heq
      have hc := hdigits c List.mem_cons_self
      rw [(List.cons.inj heq).1] at hc
      contradiction

/-- Without sign a literal denotes its magnitude and is read as it. -/
theorem signless (h : Spelled base digits unsigned) :
    denoted unsigned = denotedMagnitude unsigned ∧ signedValue unsigned = magnitude unsigned ∧
      isReadable unsigned = isReadableMagnitude unsigned := by
  refine ⟨?_, ?_, ?_⟩
  · rw [denoted]
    exact h.ne_minus_cons
  · rw [signedValue]
    exact h.ne_minus_cons
  · rw [isReadable]
    exact h.ne_minus_cons

end Spelled

/-- A literal is read as what it denotes, or as zero if it is not readable, brought into range. -/
theorem integerValue_of_isLiteral (h : IsLiteral text) :
    integerValue text = clampToInt64 (literalValue text) := by
  rw [integerValue, literalValue]
  congr 1
  rcases spelled_of_isLiteral h with ⟨base, digits, unsigned, hspelled, rfl | rfl⟩
  · rcases hspelled.signless with ⟨hdenoted, hsigned, hreadable⟩
    rw [hdenoted, hsigned, hreadable, hspelled.magnitude_eq]
    split <;> rfl
  · rw [signedValue, denoted, isReadable, hspelled.magnitude_eq]
    split <;> rfl

/-- A literal that is not readable does not denote zero. -/
theorem denoted_ne_zero (h : IsLiteral text) (hreadable : isReadable text = false) :
    denoted text ≠ 0 := by
  rcases spelled_of_isLiteral h with ⟨base, digits, unsigned, hspelled, rfl | rfl⟩
  · rcases hspelled.signless with ⟨hdenoted, -, hsame⟩
    rw [hsame] at hreadable
    rw [hdenoted]
    exact_mod_cast hspelled.denotedMagnitude_ne_zero hreadable
  · have hne := hspelled.denotedMagnitude_ne_zero hreadable
    rw [denoted]
    omega

/-- A literal is read as what it denotes, brought into range, if and only if it is readable. -/
theorem integerValue_eq_denoted_iff (h : IsLiteral text) :
    integerValue text = clampToInt64 (denoted text) ↔ isReadable text = true := by
  rw [integerValue_of_isLiteral h, literalValue]
  cases hreadable : isReadable text with
  | true => simp
  | false =>
      have hne := denoted_ne_zero h hreadable
      simp only [Bool.false_eq_true, if_false, iff_false, clampToInt64]
      omega

end Source
end ElmBinding
