import ElmBinding.Proofs.Source.Tokens
import ElmBinding.Source.Literal

/-!
# Lexemes

The rules without gaps take the tokens that they are meant for: identifiers, dotted names,
decimal numbers, quoted words and keywords.  Behind a token comes a blank or the end of the text.

Main results:

- Definitions {lit}`Ident` and {lit}`DottedName`: names that the grammar admits.
- Theorems {lit}`takes_ident`, {lit}`takes_dottedIdent` and {lit}`takes_typeName`: names.
- Theorem {lit}`takes_integer`: the digits of a number.
- Theorem {lit}`integerValue_digitsOf`: the number that the digits of a number stand for.
- Theorems {lit}`takes_signedDigits` and {lit}`integerValue_signedDigits`: numbers with sign.
- Theorem {lit}`takes_oneOf`: one of several words.
-/

namespace ElmBinding
namespace Source

open Grammar Grammar.Pattern

/-! ## Names -/

/-- Whether characters make up an identifier of the schema language. -/
def isIdentText : List Char → Bool
  | [] => false
  | c :: rest => isIdentStart c && rest.all isIdentChar

/-- An identifier of the schema language. -/
structure Ident where
  name : String
  isIdent : isIdentText name.toList = true := by decide

/-- Identifiers, of which there is one at least, with dots between them. -/
structure DottedName where
  head : Ident
  rest : List Ident := []

/-- The characters of identifiers with a dot before each of them. -/
def dotted (idents : List Ident) : List Char :=
  idents.flatMap fun ident => '.' :: ident.name.toList

/-- The characters of a dotted name. -/
def DottedName.chars (path : DottedName) : List Char :=
  path.head.name.toList ++ dotted path.rest

/-- The text of a dotted name. -/
def DottedName.name (path : DottedName) : String :=
  String.ofList path.chars

/-! ### Names as tokens -/

/-- The characters of identifiers may stand in tokens. -/
theorem isSolid_of_isIdentChar {c : Char} (hc : isIdentChar c = true) : isSolid c = true := by
  have hne : ∀ d : Char, isIdentChar d = false → c ≠ d := by
    rintro d hd rfl
    rw [hc] at hd
    contradiction
  simp [isSolid, hne ' ' (by decide), hne '\t' (by decide), hne '\n' (by decide),
    hne '\r' (by decide), hne '/' (by decide)]

namespace Ident

variable (ident : Ident)

/-- An identifier begins with a letter or an underscore, and others and digits follow. -/
theorem exists_chars : ∃ c rest, ident.name.toList = c :: rest ∧ isIdentStart c = true ∧
    ∀ d ∈ rest, isIdentChar d = true := by
  have h := ident.isIdent
  cases hchars : ident.name.toList with
  | nil =>
      rw [hchars] at h
      contradiction
  | cons c rest =>
      rw [hchars, isIdentText, Bool.and_eq_true, List.all_eq_true] at h
      exact ⟨c, rest, rfl, h⟩

/-- What stands in an identifier is a character of identifiers. -/
theorem isIdentChar_of_mem {c : Char} (hc : c ∈ ident.name.toList) : isIdentChar c = true := by
  rcases ident.exists_chars with ⟨d, rest, hchars, hstart, hrest⟩
  rw [hchars] at hc
  rcases List.mem_cons.mp hc with rfl | hc
  · simp only [isIdentStart, isIdentChar, Bool.or_eq_true, Char.isAlphanum] at hstart ⊢
    exact hstart.imp_left Or.inl
  · exact hrest c hc

/-- The characters of an identifier may stand in tokens. -/
theorem isSolid_of_mem {c : Char} (hc : c ∈ ident.name.toList) : isSolid c = true :=
  isSolid_of_isIdentChar (ident.isIdentChar_of_mem hc)

/-- An identifier as a token. -/
def token : Token where
  chars := ident.name.toList
  nonempty := by
    rcases ident.exists_chars with ⟨c, rest, hchars, -⟩
    rw [hchars]
    exact List.cons_ne_nil c rest
  solid := fun _ => ident.isSolid_of_mem

end Ident

namespace DottedName

variable (path : DottedName)

/-- The characters of a dotted name may stand in tokens. -/
theorem isSolid_of_mem {c : Char} (hc : c ∈ path.chars) : isSolid c = true := by
  rcases List.mem_append.mp hc with hc | hc
  · exact path.head.isSolid_of_mem hc
  · rcases List.mem_flatMap.mp hc with ⟨ident, -, hc⟩
    rcases List.mem_cons.mp hc with rfl | hc
    · decide
    · exact ident.isSolid_of_mem hc

/-- A dotted name as a token. -/
def token : Token where
  chars := path.chars
  nonempty := List.append_ne_nil_of_left_ne_nil path.head.token.nonempty _
  solid := fun _ => path.isSolid_of_mem

/-- A dotted name behind a dot as a token. -/
def absoluteToken : Token where
  chars := '.' :: path.chars
  nonempty := List.cons_ne_nil _ _
  solid := List.forall_mem_cons.mpr ⟨by decide, fun _ => path.isSolid_of_mem⟩

end DottedName

/-! ## Ends of tokens -/

/-- What may follow a token: nothing, or a blank and anything else. -/
def EndsToken (rest : List Char) : Prop :=
  rest = [] ∨ ∃ more, rest = ' ' :: more

/-- Tokens behind a token follow it. -/
theorem endsToken_behind (back : List Token) : EndsToken (behind back) := by
  cases back with
  | nil => exact Or.inl rfl
  | cons token rest => exact Or.inr ⟨_, behind_cons token rest⟩

variable {ρ : Type} {grammar : Grammar ρ} {gaps : List Char → Nat} {depth : Nat}
  {rest input : List Char}

/-- A class that has not the first character refuses the input. -/
theorem refuses_char {inClass : Char → Bool} (h : input.head?.any inClass = false) :
    Refuses grammar gaps depth (.char inClass) input := by
  intro budget _ pos
  simp [run, h]

/-- A word that is not at the front of the input is refused. -/
theorem refuses_word {text : String} (h : text.toList.isPrefixOf input = false) :
    Refuses grammar gaps depth (.word text) input := by
  intro budget _ pos
  simp [run, h]

/-- Behind a token comes no character of a class without blanks. -/
theorem EndsToken.head (h : EndsToken rest) {inClass : Char → Bool}
    (hblank : inClass ' ' = false) : rest.head?.any inClass = false := by
  rcases h with rfl | ⟨more, rfl⟩
  · rfl
  · exact hblank

/-! ## Names, character by character -/

/-- Pieces are taken one directly after the other, up to what the part refuses. -/
theorem takes_pieces {ι : Type} {part : Pattern ρ} {textOf : ι → List Char} {items : List ι}
    {follows : List Char → Prop}
    (htakes : ∀ item ∈ items, ∀ rest, follows rest →
      Takes grammar (fun _ => 0) depth part (textOf item) rest [])
    (hfollows : ∀ item ∈ items, ∀ rest, follows rest → follows (textOf item ++ rest))
    (htexts : ∀ item ∈ items, textOf item ≠ []) (hrest : follows rest)
    (hstop : Refuses grammar (fun _ => 0) depth part rest) :
    Takes grammar (fun _ => 0) depth (.many part) (items.flatMap textOf) rest [] := by
  cases items with
  | nil => exact Takes.many_none hstop
  | cons head items =>
      rcases List.forall_mem_cons.mp hfollows with ⟨-, hfollowsItems⟩
      rcases List.forall_mem_cons.mp htexts with ⟨-, htextsItems⟩
      have h := @Takes.many _ grammar (fun _ => 0) depth part rest [] _ textOf (fun _ => []) follows
        head items htakes (fun item hitem more hmore => ⟨rfl, hfollowsItems item hitem more hmore⟩)
        htextsItems hrest hstop
      have hnone : (head :: items).flatMap (fun _ => ([] : List (Node ρ))) = [] := by
        rw [List.flatMap_eq_nil_iff]
        exact fun _ _ => rfl
      rw [hnone] at h
      exact h

/-- Characters of a class are taken up to one that is not in the class. -/
theorem takes_chars {inClass : Char → Bool} {chars : List Char}
    (hchars : ∀ c ∈ chars, inClass c = true) (hrest : rest.head?.any inClass = false) :
    Takes grammar (fun _ => 0) depth (.many (.char inClass)) chars rest [] := by
  have h := @takes_pieces _ grammar depth rest _ (.char inClass) (fun c => [c]) chars
    (fun _ => True) (fun c hc more _ => Takes.char (hchars c hc) more) (fun _ _ _ _ => trivial)
    (fun _ _ => List.cons_ne_nil _ _) trivial (refuses_char hrest)
  rw [List.flatMap_singleton'] at h
  exact h

/-- An identifier is taken up to a character that is not of identifiers. -/
theorem takes_ident (name : Ident) (hrest : rest.head?.any isIdentChar = false) :
    Takes schemaGrammar (fun _ => 0) depth ident name.name.toList rest [] := by
  rcases name.exists_chars with ⟨c, chars, hchars, hstart, hall⟩
  rw [hchars]
  exact @Takes.seq _ _ _ _ _ _ [c] chars rest [] [] [] (Takes.char hstart _) rfl
    (takes_chars hall hrest)

/-- A dotted name is taken up to a dot or a character of identifiers. -/
theorem takes_dottedIdent (path : DottedName) (hrest : rest.head?.any isIdentChar = false)
    (hdot : rest.head? ≠ some '.') :
    Takes schemaGrammar (fun _ => 0) depth dottedIdent path.chars rest [] := by
  have hpiece : ∀ name ∈ path.rest, ∀ more : List Char, more.head?.any isIdentChar = false →
      Takes schemaGrammar (fun _ => 0) depth (chain [word ".", ident]) ('.' :: name.name.toList)
        more [] := by
    intro name _ more hmore
    exact @Takes.seq _ _ _ _ _ _ ['.'] name.name.toList more [] [] [] (Takes.word "." _) rfl
      (takes_ident name hmore)
  have hstop : Refuses schemaGrammar (fun _ => 0) depth (chain [word ".", ident]) rest := by
    apply Refuses.seq_left
    apply refuses_word
    cases rest with
    | nil => rfl
    | cons c rest =>
        have hne : '.' ≠ c := fun heq => hdot (by rw [heq]; rfl)
        simp [List.isPrefixOf, hne]
  have hrests := takes_pieces hpiece (fun _ _ _ _ => rfl) (fun _ _ => List.cons_ne_nil _ _) hrest
    hstop
  have hnext : (dotted path.rest ++ rest).head?.any isIdentChar = false := by
    cases hdotted : path.rest with
    | nil => exact hrest
    | cons name names => rfl
  exact @Takes.seq _ _ _ _ _ _ path.head.name.toList (dotted path.rest) rest [] [] []
    (takes_ident path.head hnext) rfl hrests

/-- A dotted name behind a dot is taken. -/
theorem takes_typeName (path : DottedName) (hrest : EndsToken rest) :
    Takes schemaGrammar (fun _ => 0) depth typeName ('.' :: path.chars) rest [] := by
  have hdot : rest.head? ≠ some '.' := by
    rcases hrest with rfl | ⟨more, rfl⟩ <;> simp
  exact @Takes.seq _ _ _ _ _ _ ['.'] path.chars rest [] [] [] (Takes.opt (Takes.word "." _)) rfl
    (takes_dottedIdent path (hrest.head (by decide)) hdot)

/-! ## Numbers -/

/-- The digits of a number, as the decimal system has them. -/
def digitsOf (number : UInt32) : List Char :=
  Nat.toDigits 10 number.toNat

/-- The digits of a number begin with a zero only if it is zero. -/
theorem toDigits_eq_cons (number : Nat) :
    ∃ c rest, Nat.toDigits 10 number = c :: rest ∧ (c = '0' → number = 0) := by
  induction number using Nat.strongRecOn with
  | ind number ih =>
      rw [Nat.toDigits_eq_if (by omega)]
      split
      · rename_i hsmall
        have hdigit : ∀ digit < 10, Nat.digitChar digit = '0' → digit = 0 := by decide
        exact ⟨_, [], rfl, hdigit number hsmall⟩
      · rename_i hlarge
        rcases ih (number / 10) (by omega) with ⟨c, rest, hdigits, hzero⟩
        rw [hdigits]
        refine ⟨c, rest ++ [Nat.digitChar (number % 10)], rfl, fun heq => ?_⟩
        have := hzero heq
        omega

/-- The digits of a number are digits. -/
theorem isDigit_of_mem {number : UInt32} {c : Char} (hc : c ∈ digitsOf number) :
    c.isDigit = true :=
  Nat.isDigit_of_mem_toDigits (by decide) (by decide) hc

/-- Digits may stand in tokens. -/
theorem isSolid_of_isDigit {c : Char} (hc : c.isDigit = true) : isSolid c = true := by
  apply isSolid_of_isIdentChar
  simp [isIdentChar, Char.isAlphanum, hc]

/-- The digits of a number as a token. -/
def numberToken (number : UInt32) : Token where
  chars := digitsOf number
  nonempty := Nat.toDigits_ne_nil
  solid := fun _ hc => isSolid_of_isDigit (isDigit_of_mem hc)

/-- The digits of a number are a first digit and others, with no other behind a zero. -/
theorem exists_digits (number : UInt32) :
    ∃ c digits, digitsOf number = c :: digits ∧ (∀ d ∈ c :: digits, d.isDigit = true) ∧
      (c = '0' → digits = []) := by
  rcases toDigits_eq_cons number.toNat with ⟨c, digits, hdigits, hzero⟩
  refine ⟨c, digits, hdigits, ?_, ?_⟩
  · rw [← hdigits]
    exact fun d hd => isDigit_of_mem hd
  · intro hc
    rw [hzero hc] at hdigits
    exact (List.cons.inj hdigits).2.symm

/-- Behind the sign, the digits of a number are taken as a decimal number. -/
theorem takes_digits (number : UInt32) (hrest : EndsToken rest) :
    Takes schemaGrammar (fun _ => 0) depth (choice [
        chain [word "0", oneOf ["x", "X"], (char isHexDigit).many1],
        chain [word "0", (char isOctalDigit).many1],
        (char Char.isDigit).many1]) (digitsOf number) rest [] := by
  rcases exists_digits number with ⟨c, digits, hdigits, hall, hzero⟩
  rcases List.forall_mem_cons.mp hall with ⟨hc, hothers⟩
  rw [hdigits]
  have hdecimal : Takes schemaGrammar (fun _ => 0) depth (char Char.isDigit).many1 (c :: digits)
      rest [] :=
    @Takes.seq _ _ _ _ _ _ [c] digits rest [] [] [] (Takes.char hc _) rfl
      (takes_chars hothers (hrest.head (by decide)))
  -- A zero begins a number in another base only if something belongs to it.
  have hbase : ∀ {next : Pattern Rule}, Refuses schemaGrammar (fun _ => 0) depth next rest →
      Refuses schemaGrammar (fun _ => 0) depth (.seq (word "0") next) (c :: digits ++ rest) := by
    intro next hnext
    by_cases heq : c = '0'
    · rw [hzero heq, heq]
      exact @Refuses.seq_right _ _ _ _ _ _ ['0'] rest [] [] (Takes.word "0" _) rfl hnext
    · apply Refuses.seq_left
      exact refuses_word (by simp [List.isPrefixOf, Ne.symm heq])
  have hmark : ∀ mark : Char, mark ≠ ' ' →
      Refuses schemaGrammar (fun _ => 0) depth (word (String.ofList [mark])) rest := by
    intro mark hmark
    apply refuses_word
    rcases hrest with rfl | ⟨more, rfl⟩
    · simp
    · simp [List.isPrefixOf, hmark]
  refine Takes.alt_right ?_ (Takes.alt_right ?_ hdecimal)
  · exact hbase (Refuses.seq_left (Refuses.alt (hmark 'x' (by decide)) (hmark 'X' (by decide))))
  · exact hbase (Refuses.seq_left (refuses_char (hrest.head (by decide))))

/-- The digits of a number are taken as a decimal number. -/
theorem takes_integer (number : UInt32) (hrest : EndsToken rest) :
    Takes schemaGrammar (fun _ => 0) depth integer (digitsOf number) rest [] := by
  have hsign : Refuses schemaGrammar (fun _ => 0) depth (word "-") (digitsOf number ++ rest) := by
    rcases exists_digits number with ⟨c, digits, hdigits, hall, -⟩
    have hminus : '-' ≠ c := by
      rintro rfl
      have := hall '-' List.mem_cons_self
      contradiction
    rw [hdigits]
    exact refuses_word (by simp [List.isPrefixOf, hminus])
  exact Takes.skip (Takes.opt_none hsign) rfl (takes_digits number hrest)

/-- Digits are read as the number that they stand for behind others. -/
theorem readDigitsFrom?_eq {digits : List Char} (hdigits : ∀ c ∈ digits, c.isDigit = true)
    (high : Nat) : readDigitsFrom? 10 high digits = some (Nat.ofDigitChars 10 digits high) := by
  induction digits generalizing high with
  | nil => rfl
  | cons c rest ih =>
      rcases List.forall_mem_cons.mp hdigits with ⟨hc, hrest⟩
      have hvalue : digitIn? 10 c = some (c.toNat - '0'.toNat) := by
        have hlt : c.toNat - 48 < 10 := by
          simp only [Char.isDigit, Bool.and_eq_true, decide_eq_true_eq] at hc
          have hle : c.toNat ≤ 57 := UInt32.le_iff_toNat_le.mp hc.2
          omega
        simp [digitIn?, digitValue?, hc, hlt]
      rw [readDigitsFrom?, hvalue, Option.bind_some, ih hrest, Nat.ofDigitChars_cons,
        Nat.mul_comm]

/-- The digits of a number have the number as their magnitude. -/
theorem magnitude_digitsOf (number : UInt32) : magnitude (digitsOf number) = number.toNat := by
  rcases exists_digits number with ⟨c, digits, hdigits, hall, hzero⟩
  have hread : readDigits? 10 (c :: digits) = some number.toNat := by
    rw [readDigits?, readDigitsFrom?_eq hall, ← hdigits]
    exact congrArg some (Nat.ofDigitChars_toDigits (by decide) (by decide))
  have hunsigned : unsigned? (c :: digits) = some number.toNat := by
    rw [← hread]
    by_cases heq : c = '0'
    · rw [hzero heq, heq]
      rfl
    · unfold unsigned?
      split <;> simp_all
  have hsmall : number.toNat < magnitudeLimit := by
    have hlt := number.toNat_lt
    unfold magnitudeLimit
    omega
  rw [hdigits, magnitude, hunsigned, Option.filter_some, if_pos (decide_eq_true hsmall),
    Option.getD_some]

/-- The digits of a number stand for the number. -/
theorem integerValue_digitsOf (number : UInt32) :
    integerValue (digitsOf number) = number.toNat := by
  have hlt := number.toNat_lt
  have hsigned : signedValue (digitsOf number) = number.toNat := by
    unfold signedValue
    split
    · rename_i heq
      have hminus : '-' ∈ digitsOf number := by
        rw [heq]
        exact List.mem_cons_self
      have := isDigit_of_mem hminus
      contradiction
    · rw [magnitude_digitsOf]
  rw [integerValue, hsigned, clampToInt64]
  omega

/-! ### Numbers with sign -/

/-- The digits of a number with sign, behind a minus sign if it is negative. -/
def signedDigits (number : Int32) : List Char :=
  let digits := digitsOf (.ofNat number.toInt.natAbs)
  if number.toInt < 0 then '-' :: digits else digits

/-- The magnitude of a number with sign fits without sign. -/
theorem toNat_natAbs (number : Int32) :
    (UInt32.ofNat number.toInt.natAbs).toNat = number.toInt.natAbs := by
  have hlow := number.le_toInt
  have hhigh := number.toInt_lt
  refine UInt32.toNat_ofNat_of_lt ?_
  rw [UInt32.size]
  omega

/-- What stands in a number with sign is a minus sign or a digit. -/
theorem isDigit_or_minus_of_mem {number : Int32} {c : Char} (hc : c ∈ signedDigits number) :
    c = '-' ∨ c.isDigit = true := by
  unfold signedDigits at hc
  split at hc
  · exact (List.mem_cons.mp hc).imp id isDigit_of_mem
  · exact Or.inr (isDigit_of_mem hc)

/-- A number with sign as a token. -/
def signedToken (number : Int32) : Token where
  chars := signedDigits number
  nonempty := by
    unfold signedDigits
    split
    · exact List.cons_ne_nil _ _
    · exact Nat.toDigits_ne_nil
  solid := by
    intro c hc
    rcases isDigit_or_minus_of_mem hc with rfl | hdigit
    · decide
    · exact isSolid_of_isDigit hdigit

/-- A number with sign is taken as a number. -/
theorem takes_signedDigits (number : Int32) (hrest : EndsToken rest) :
    Takes schemaGrammar (fun _ => 0) depth integer (signedDigits number) rest [] := by
  unfold signedDigits
  split
  · exact @Takes.seq _ _ _ _ _ _ ['-'] _ rest [] [] [] (Takes.opt (Takes.word "-" _)) rfl
      (takes_digits _ hrest)
  · exact takes_integer _ hrest

/-- A number with sign stands for itself. -/
theorem integerValue_signedDigits (number : Int32) :
    integerValue (signedDigits number) = number.toInt := by
  have hmagnitude := toNat_natAbs number
  unfold signedDigits
  split
  · rename_i hnegative
    have hlow := number.le_toInt
    have hsigned : signedValue ('-' :: digitsOf (.ofNat number.toInt.natAbs)) = number.toInt := by
      rw [signedValue, magnitude_digitsOf, hmagnitude]
      omega
    rw [integerValue, hsigned, clampToInt64]
    omega
  · rw [integerValue_digitsOf, hmagnitude]
    omega

/-! ## Fixed words -/

/-- A word without blanks is at the front of the input if it is at the front of its token. -/
theorem isPrefixOf_token {text chars : List Char} (htext : ' ' ∉ text) (hrest : EndsToken rest) :
    text.isPrefixOf (chars ++ rest) = text.isPrefixOf chars := by
  induction text generalizing chars with
  | nil => simp
  | cons c text ih =>
      rw [List.mem_cons, not_or] at htext
      cases chars with
      | nil =>
          rcases hrest with rfl | ⟨more, rfl⟩
          · rfl
          · simp [List.isPrefixOf, Ne.symm htext.1]
      | cons d chars => simp only [List.cons_append, List.isPrefixOf, ih htext.2]

/-- A word is refused at a token that does not begin with it. -/
theorem refuses_word_token {text : String} {chars : List Char} (htext : ' ' ∉ text.toList)
    (hfront : ¬ text.toList <+: chars) (hrest : EndsToken rest) :
    Refuses grammar gaps depth (.word text) (chars ++ rest) := by
  apply refuses_word
  rw [isPrefixOf_token htext hrest, ← Bool.not_eq_true, List.isPrefixOf_iff_prefix]
  exact hfront

/-- A keyword is refused at an identifier that it is not. -/
theorem refuses_keyword {text : String} {name : Ident} (htext : ' ' ∉ text.toList)
    (hne : name.name ≠ text) (hrest : EndsToken rest) :
    Refuses schemaGrammar (fun _ => 0) depth (keyword [text]) (name.name.toList ++ rest) := by
  by_cases hfront : text.toList <+: name.name.toList
  · rcases hfront with ⟨more, hchars⟩
    cases more with
    | nil => exact absurd (String.toList_inj.mp ((List.append_nil _).symm.trans hchars)).symm hne
    | cons c more =>
        have hc : isIdentChar c = true := by
          apply name.isIdentChar_of_mem
          rw [← hchars]
          exact List.mem_append_right _ List.mem_cons_self
        have hend : Refuses schemaGrammar (fun _ => 0) depth wordEnd ([c] ++ (more ++ rest)) :=
          Refuses.absent (Takes.char hc _)
        rw [← hchars, List.append_assoc]
        -- The keyword is there, but the word goes on behind it.
        exact @Refuses.seq_right _ _ _ _ _ _ text.toList (c :: more ++ rest) [] []
          (Takes.word text _) rfl hend
  · exact Refuses.seq_left (refuses_word_token htext hfront hrest)

/-- One of several words is taken if no other of them could be there. -/
theorem takes_oneOf {words : List String} {text : String} (hmem : text ∈ words)
    (hother : ∀ other ∈ words, other = text ∨ differs other.toList text.toList = true)
    (rest : List Char) : Takes grammar gaps depth (oneOf words) text.toList rest [] := by
  induction words with
  | nil => contradiction
  | cons first others ih =>
      rcases List.forall_mem_cons.mp hother with ⟨hfirst, hothers⟩
      have hrefused : text ≠ first →
          Refuses grammar gaps depth (word first) (text.toList ++ rest) := by
        intro hne
        rcases hfirst with heq | hdiffers
        · exact absurd heq.symm hne
        · exact refuses_word (isPrefixOf_eq_false_of_differs hdiffers rest)
      cases others with
      | nil =>
          rw [List.mem_singleton.mp hmem]
          exact Takes.word first rest
      | cons second others =>
          by_cases heq : text = first
          · rw [heq]
            exact Takes.alt_left (Takes.word first rest)
          · have hrest := (List.mem_cons.mp hmem).resolve_left heq
            exact Takes.alt_right (hrefused heq) (ih hrest hothers)

/-- Every scalar type is among those whose keywords are tried. -/
theorem mem_scalarAll (scalar : Scalar) : scalar ∈ Scalar.all := by
  cases scalar <;> decide

/-- The keyword of a scalar type is taken. -/
theorem takes_scalarKeyword (scalar : Scalar) (hrest : EndsToken rest) :
    Takes schemaGrammar (fun _ => 0) depth scalarKeyword scalar.keyword.toList rest [] := by
  have hword : Takes schemaGrammar (fun _ => 0) depth (oneOf (Scalar.all.map Scalar.keyword))
      scalar.keyword.toList rest [] := by
    apply takes_oneOf
    · exact List.mem_map_of_mem (mem_scalarAll scalar)
    · cases scalar <;> decide +kernel
  have hend : Takes schemaGrammar (fun _ => 0) depth
      (absent (char fun c => isIdentChar c || c = '.')) [] rest [] :=
    Takes.absent (refuses_char (hrest.head (by decide)))
  exact Takes.before hword rfl hend

/-- A keyword is taken if no other of its rule could be there. -/
theorem takes_keyword {words : List String} {text : String} (hmem : text ∈ words)
    (hother : ∀ other ∈ words, other = text ∨ differs other.toList text.toList = true)
    (hrest : EndsToken rest) :
    Takes schemaGrammar (fun _ => 0) depth (keyword words) text.toList rest [] := by
  have hend : Takes schemaGrammar (fun _ => 0) depth wordEnd [] rest [] :=
    Takes.absent (refuses_char (hrest.head (by decide)))
  exact Takes.before (takes_oneOf hmem hother rest) rfl hend

/-- The keyword of a streamed message is taken in front of a blank. -/
theorem takes_streamKeyword (rest : List Char) :
    Takes schemaGrammar (fun _ => 0) depth streamKeyword "stream".toList (' ' :: rest) [] := by
  have hblank : Takes schemaGrammar (fun _ => 0) depth
      (ahead (oneOf [" ", "\t", "\n", "\r", "."])) [] (' ' :: rest) [] :=
    Takes.ahead (Takes.alt_left (Takes.word " " rest))
  exact Takes.before (Takes.word "stream" _) rfl hblank

/-- A text between quotation marks is taken if it has no other ones and no backslashes. -/
theorem takes_quoted (text : String)
    (htext : (text.toList.all fun c => c ≠ '"' && c ≠ '\\') = true) (rest : List Char) :
    Takes schemaGrammar (fun _ => 0) depth (quoted "\"") ('"' :: (text.toList ++ ['"'])) rest
      [] := by
  have hchars : ∀ c ∈ text.toList, c ≠ '"' ∧ c ≠ '\\' := by simpa using htext
  have hword : ∀ (mark c : Char), mark ≠ c → ∀ more : List Char,
      Refuses schemaGrammar (fun _ => 0) depth (word (String.ofList [mark])) (c :: more) := by
    intro mark c hne more
    exact refuses_word (by simp [List.isPrefixOf, hne])
  have hpieces := @takes_pieces _ schemaGrammar depth ('"' :: rest) _
    (chain [(word "\"").absent, choice [chain [word "\\", any], any]]) (fun c => [c])
    text.toList (fun _ => True)
    (fun c hc more _ => by
      rcases hchars c hc with ⟨hquote, hslash⟩
      exact Takes.skip (Takes.absent (hword '"' c (Ne.symm hquote) more)) rfl
        (Takes.alt_right (Refuses.seq_left (hword '\\' c (Ne.symm hslash) more))
          (Takes.char rfl more)))
    (fun _ _ _ _ => trivial) (fun _ _ => List.cons_ne_nil _ _) trivial
    (Refuses.seq_left (Refuses.absent (Takes.word "\"" rest)))
  rw [List.flatMap_singleton'] at hpieces
  have hclosed : Takes schemaGrammar (fun _ => 0) depth
      (.seq (.many (chain [(word "\"").absent, choice [chain [word "\\", any], any]])) (word "\""))
      (text.toList ++ ['"']) rest [] :=
    @Takes.seq _ _ _ _ _ _ text.toList ['"'] rest [] [] [] hpieces rfl (Takes.word "\"" rest)
  exact @Takes.seq _ _ _ _ _ _ ['"'] (text.toList ++ ['"']) rest [] [] [] (Takes.word "\"" _)
    rfl hclosed

end Source
end ElmBinding
