import ElmBinding.Proofs.Grammar.Taking
import ElmBinding.Source.Comments
import ElmBinding.Source.Rules

/-!
# Texts made of tokens

A canonical text is a list of tokens with one blank between them.  A token has no blanks, line
breaks or slashes in it, so the gaps of the text are the single blanks and no comment is beside
anything.  The grammar of schemas can then be followed token by token.

Main results:

- Definition {lit}`Token`: a word without blanks, line breaks and slashes.
- Definitions {lit}`joined` and {lit}`behind`: tokens with blanks between them or before them.
- Theorem {lit}`commentsBeside_of_plain`: without line breaks and slashes there are no comments.
- Definition {lit}`Reads`: a pattern that takes tokens in front of others.
- Theorems {lit}`Reads.cons`, {lit}`Reads.seq` and {lit}`Reads.many`: tokens part by part.
-/

namespace ElmBinding
namespace Source

open Grammar

/-! ## Tokens -/

/-- Whether a character may stand in a token. -/
def isSolid (c : Char) : Bool :=
  c ≠ ' ' && c ≠ '\t' && c ≠ '\n' && c ≠ '\r' && c ≠ '/'

/-- Characters that stand together without blanks, line breaks and slashes. -/
structure Token where
  chars : List Char
  nonempty : chars ≠ []
  solid : ∀ c ∈ chars, isSolid c = true

/-- A fixed word as a token. -/
def Token.ofWord (word : String) (nonempty : word.toList ≠ [] := by decide)
    (solid : word.toList.all isSolid = true := by decide) : Token :=
  ⟨word.toList, nonempty, List.all_eq_true.mp solid⟩

/-- Tokens with a blank before each of them. -/
def behind (tokens : List Token) : List Char :=
  tokens.flatMap fun token => ' ' :: token.chars

/-- Tokens with a blank between them. -/
def joined : List Token → List Char
  | [] => []
  | token :: rest => token.chars ++ behind rest

@[simp] theorem behind_nil : behind [] = [] := rfl

/-- Behind a blank, tokens stand as they do on their own. -/
theorem behind_cons (token : Token) (rest : List Token) :
    behind (token :: rest) = ' ' :: joined (token :: rest) := by
  rw [behind, List.flatMap_cons, joined]
  rfl

theorem behind_append (front back : List Token) :
    behind (front ++ back) = behind front ++ behind back := by
  rw [behind, List.flatMap_append]
  rfl

/-- Tokens in front of others, if there are any. -/
theorem joined_append {front : List Token} (hfront : front ≠ []) (back : List Token) :
    joined (front ++ back) = joined front ++ behind back := by
  cases front with
  | nil => contradiction
  | cons token rest => rw [List.cons_append, joined, joined, behind_append, List.append_assoc]

/-! ## Gaps -/

/-- There is no gap before a character of a token. -/
theorem gapLength_solid {c : Char} (hc : isSolid c = true) (rest : List Char) :
    gapLength (c :: rest) = 0 := by
  simp only [isSolid, Bool.and_eq_true, decide_eq_true_eq] at hc
  rcases hc with ⟨⟨⟨⟨hblank, htab⟩, hline⟩, hreturn⟩, hslash⟩
  have hnone : separatorLength (c :: rest) = 0 := by
    simp [separatorLength, blankLength, newlineLength, commentLength, *]
  simp [gapLength, gapLengthFrom, hnone]

/-- A blank goes with the gap behind it. -/
theorem gapLength_blank (rest : List Char) : gapLength (' ' :: rest) = 1 + gapLength rest := by
  have hone : separatorLength (' ' :: rest) = 1 := rfl
  rw [gapLength, gapLengthFrom, hone]
  rfl

/-- There is no gap before tokens. -/
theorem gapLength_joined (tokens : List Token) : gapLength (joined tokens) = 0 := by
  cases tokens with
  | nil => rfl
  | cons token rest =>
      rcases List.exists_cons_of_ne_nil token.nonempty with ⟨c, chars, hchars⟩
      have hsolid := token.solid c (by rw [hchars]; exact List.mem_cons_self)
      rw [joined, hchars, List.cons_append]
      exact gapLength_solid hsolid _

/-- The gap before tokens behind others is a blank. -/
theorem gapLength_behind (token : Token) (rest : List Token) :
    gapLength (behind (token :: rest)) = 1 := by
  rw [behind_cons, gapLength_blank, gapLength_joined]

/-- Behind the gap, tokens stand as they do on their own. -/
theorem drop_gapLength_behind (tokens : List Token) :
    (behind tokens).drop (gapLength (behind tokens)) = joined tokens := by
  cases tokens with
  | nil => rfl
  | cons token rest =>
      rw [gapLength_behind, behind_cons]
      rfl

/-- Behind the gap before them, tokens stand as they do on their own. -/
theorem exists_gap (tokens : List Token) :
    ∃ gap, behind tokens = gap ++ joined tokens ∧ gapLength (behind tokens) = gap.length := by
  cases tokens with
  | nil => exact ⟨[], rfl, rfl⟩
  | cons token rest => exact ⟨[' '], behind_cons token rest, gapLength_behind token rest⟩

/-- Every token has a character at least. -/
theorem length_le_joined (tokens : List Token) : tokens.length ≤ (joined tokens).length := by
  cases tokens with
  | nil => exact Nat.le_refl 0
  | cons token rest =>
      have hfirst := List.length_pos_iff.mpr token.nonempty
      have hrest : rest.length ≤ (behind rest).length :=
        length_le_flatMap fun _ _ => List.cons_ne_nil _ _
      rw [joined, List.length_append, List.length_cons]
      omega

/-! ## Comments -/

/-- Whether a character may stand in a text that has no comments. -/
def isPlainText (c : Char) : Bool :=
  c ≠ '\n' && c ≠ '/'

/-- What may stand in a token may stand in a text that has no comments. -/
theorem isPlainText_of_isSolid {c : Char} (h : isSolid c = true) : isPlainText c = true := by
  simp only [isSolid, Bool.and_eq_true, decide_eq_true_eq] at h
  simp [isPlainText, h]

/-- A text made of tokens has no comments. -/
theorem isPlainText_of_mem_joined {tokens : List Token} {c : Char} (h : c ∈ joined tokens) :
    isPlainText c = true := by
  cases tokens with
  | nil => contradiction
  | cons token rest =>
      rcases List.mem_append.mp h with h | h
      · exact isPlainText_of_isSolid (token.solid c h)
      · rcases List.mem_flatMap.mp h with ⟨other, -, h⟩
        rcases List.mem_cons.mp h with rfl | h
        · decide
        · exact isPlainText_of_isSolid (other.solid c h)

/-- A line without slashes is no comment line. -/
theorem ofText_ne_comment {text comment : List Char} (htext : '/' ∉ text) :
    Line.ofText text ≠ .comment comment := by
  have htrimmed : '/' ∉ Text.trimWhile Text.isBlank text := by
    intro hmem
    rw [Text.trimWhile, List.mem_reverse] at hmem
    have hmem := (List.dropWhile_sublist _).mem hmem
    rw [List.mem_reverse] at hmem
    exact htext ((List.dropWhile_sublist _).mem hmem)
  unfold Line.ofText Line.ofTrimmed
  split
  · simp
  · rename_i heq
    rw [heq] at htrimmed
    exact absurd List.mem_cons_self htrimmed
  · simp

/-- Without line breaks and slashes nothing has comments beside it. -/
theorem commentsBeside_of_plain {source : List Char} (hplain : ∀ c ∈ source, isPlainText c = true)
    (start stop : Nat) : commentsBeside source start stop = {} := by
  have hline : '\n' ∉ source.take start := by
    intro hmem
    have := hplain _ (List.mem_of_mem_take hmem)
    contradiction
  have hslash : '/' ∉ (source.drop stop).takeWhile fun c => c ≠ '\n' := by
    intro hmem
    have := hplain _ (List.mem_of_mem_drop ((List.takeWhile_sublist _).mem hmem))
    contradiction
  have habove : linesAbove source start = [] := by
    rw [linesAbove, Text.splitAtChar_of_notMem hline]
    rfl
  have htrailing : trailingComment (source.drop stop) = "" := by
    unfold trailingComment
    split
    · rename_i heq
      exact absurd heq (ofText_ne_comment hslash)
    · rfl
  rw [commentsBeside, habove, htrailing]
  rfl

/-! ## Reading tokens -/

/-- A rule without gaps puts a leaf over the text that it takes. -/
theorem takes_leaf {depth : Nat} {rule : Rule} {body : Pattern Rule} {text rest : List Char}
    (hrule : rule.production = .token body)
    (h : Takes schemaGrammar (fun _ => 0) depth body text rest []) :
    Takes schemaGrammar gapLength (depth + 1) (.sub rule) text rest [⟨rule, 0, text, []⟩] := by
  have hproduction : schemaGrammar.production rule = .token body := hrule
  apply Takes.sub
  rw [hproduction]
  exact h

/-- A pattern that takes tokens in front of others, with trees over them. -/
def Reads (depth : Nat) (part : Pattern Rule) (front back : List Token)
    (trees : List (Node Rule)) : Prop :=
  Takes schemaGrammar gapLength depth part (joined front) (behind back) trees

/-- A pattern that takes nothing in front of tokens. -/
def Rejects (depth : Nat) (part : Pattern Rule) (tokens : List Token) : Prop :=
  Refuses schemaGrammar gapLength depth part (joined tokens)

/-- Whether first characters tell that a part is refused. -/
def refusedAt (front : List Char) (part : Pattern Rule) : Bool :=
  part.prospect (schemaGrammar.prospect front false 5) front false = .refused

/-- What the first characters of a token tell to be refused is rejected. -/
theorem rejects_of_front {depth : Nat} {part : Pattern Rule} {token : Token}
    {front more : List Char} (hchars : token.chars = front ++ more) (h : refusedAt front part)
    (back : List Token) : Rejects depth part (token :: back) := by
  have hgap := gapLength_joined (token :: back)
  have hinput : joined (token :: back) = front ++ (more ++ behind back) := by
    rw [joined, hchars, List.append_assoc]
  rw [Rejects, hinput]
  rw [hinput] at hgap
  exact refuses_of_prospect (by simp) hgap hgap (of_decide_eq_true h)

/-- What the characters of a token tell to be refused is rejected. -/
theorem rejects_token {depth : Nat} {part : Pattern Rule} {token : Token}
    (h : refusedAt token.chars part) (back : List Token) : Rejects depth part (token :: back) :=
  rejects_of_front (List.append_nil _).symm h back

/-- What the end of the input tells to be refused is rejected there. -/
theorem rejects_end {depth : Nat} {part : Pattern Rule}
    (h : part.prospect (schemaGrammar.prospect [] true 5) [] true = .refused) :
    Rejects depth part [] :=
  @refuses_of_prospect _ schemaGrammar gapLength depth part [] [] true (fun _ => rfl) rfl rfl 5 h

/-- A rule with gaps is rejected if its parts are. -/
theorem Rejects.sub {depth : Nat} {rule : Rule} {parts : List (Pattern Rule)} {tokens : List Token}
    (hrule : rule.production = .phrase parts) (h : Rejects depth (.chain parts) tokens) :
    Rejects (depth + 1) (.sub rule) tokens := by
  have hproduction : schemaGrammar.production rule = .phrase parts := hrule
  apply Refuses.sub
  rw [hproduction]
  exact h

/-- Two parts are rejected if the second one is behind the token that the first one reads. -/
theorem Rejects.behind {depth : Nat} {first second : Pattern Rule} {token next : Token}
    {back : List Token} {trees : List (Node Rule)}
    (hfirst : Reads depth first [token] (next :: back) trees)
    (hsecond : Rejects depth second (next :: back)) :
    Rejects depth (.seq first second) (token :: next :: back) := by
  rw [Reads, joined, behind_nil, List.append_nil, behind_cons] at hfirst
  rw [Rejects, joined, behind_cons]
  have hgap := gapLength_behind next back
  rw [behind_cons] at hgap
  exact @Refuses.seq_right _ _ _ _ _ _ _ _ [' '] _ hfirst hgap hsecond

namespace Reads

variable {depth : Nat} {first second part : Pattern Rule} {token next : Token}
  {front front' back : List Token} {trees trees' : List (Node Rule)}

/-- With a larger budget the same is read. -/
theorem mono {deeper : Nat} (h : Reads depth part front back trees) (hle : depth ≤ deeper) :
    Reads deeper part front back trees :=
  Takes.mono h hle

/-- A fixed text reads the token that it is. -/
theorem word (text : String) (nonempty : text.toList ≠ [])
    (solid : text.toList.all isSolid = true) (back : List Token) :
    Reads depth (.word text) [Token.ofWord text nonempty solid] back [] := by
  rw [Reads, joined, behind_nil, List.append_nil]
  exact Takes.word text (behind back)

/-- Two parts read tokens and the tokens behind them. -/
theorem seq (hfirst : Reads depth first front (front' ++ back) trees)
    (hsecond : Reads depth second front' back trees') (hfront : front ≠ [])
    (hfront' : front' ≠ []) :
    Reads depth (.seq first second) (front ++ front') back (trees ++ trees') := by
  rcases List.exists_cons_of_ne_nil hfront' with ⟨next, others, rfl⟩
  have hback : behind (next :: others ++ back) =
      [' '] ++ (joined (next :: others) ++ behind back) := by
    rw [List.cons_append, behind_cons, ← List.cons_append, joined_append hfront']
    rfl
  have hgap := gapLength_behind next (others ++ back)
  rw [← List.cons_append, hback] at hgap
  rw [Reads, hback] at hfirst
  rw [Reads, joined_append hfront, behind_cons]
  exact Takes.seq hfirst hgap hsecond

/-- Two parts read a token and the tokens behind it. -/
theorem cons (hfirst : Reads depth first [token] (next :: front ++ back) trees)
    (hsecond : Reads depth second (next :: front) back trees') :
    Reads depth (.seq first second) (token :: next :: front) back (trees ++ trees') :=
  hfirst.seq hsecond (List.cons_ne_nil _ _) (List.cons_ne_nil _ _)

/-- Two parts read what the second one reads if the first one takes nothing. -/
theorem skip (hfirst : Takes schemaGrammar gapLength depth first [] (joined (front ++ back)) [])
    (hfront : front ≠ []) (hsecond : Reads depth second front back trees) :
    Reads depth (.seq first second) front back trees := by
  have hgap := gapLength_joined (front ++ back)
  rw [joined_append hfront] at hfirst hgap
  exact Takes.skip hfirst hgap hsecond

/-- A missing part is skipped if it is rejected. -/
theorem opt_none (hfirst : Rejects depth part (front ++ back)) (hfront : front ≠ [])
    (hsecond : Reads depth second front back trees) :
    Reads depth (.seq (.opt part) second) front back trees :=
  skip (Takes.opt_none hfirst) hfront hsecond

/-- The second of two parts reads for both what the first one rejects. -/
theorem alt_right (hfirst : Rejects depth first (front ++ back)) (hfront : front ≠ [])
    (h : Reads depth second front back trees) :
    Reads depth (.alt first second) front back trees := by
  rw [Rejects, joined_append hfront] at hfirst
  exact Takes.alt_right hfirst h

/-- A rule with gaps puts a node over the tokens that its parts read. -/
theorem sub {rule : Rule} {parts : List (Pattern Rule)} (hrule : rule.production = .phrase parts)
    (h : Reads depth (.chain parts) front back trees) :
    Reads (depth + 1) (.sub rule) front back [⟨rule, 0, joined front, trees⟩] := by
  have hproduction : schemaGrammar.production rule = .phrase parts := hrule
  apply Takes.sub
  rw [hproduction]
  exact h

/-- A rule without gaps puts a leaf over the token that it takes. -/
theorem leaf {rule : Rule} {body : Pattern Rule} (hrule : rule.production = .token body)
    (h : Takes schemaGrammar (fun _ => 0) depth body token.chars (behind back) []) :
    Reads (depth + 1) (.sub rule) [token] back [⟨rule, 0, token.chars, []⟩] := by
  rw [Reads, joined, behind_nil, List.append_nil]
  exact takes_leaf hrule h

section Repetition

variable {ι : Type} {tokensOf : ι → List Token} {treesOf : ι → List (Node Rule)}

/-- The tokens of items behind others, item by item. -/
theorem behind_flatMap {items : List ι} (htokens : ∀ item ∈ items, tokensOf item ≠ []) :
    behind (items.flatMap tokensOf) =
      items.flatMap fun item => [' '] ++ joined (tokensOf item) := by
  induction items with
  | nil => rfl
  | cons item items ih =>
      rcases List.forall_mem_cons.mp htokens with ⟨hitem, hitems⟩
      rcases List.exists_cons_of_ne_nil hitem with ⟨token, rest, htoken⟩
      rw [List.flatMap_cons, behind_append, ih hitems, List.flatMap_cons, htoken, behind_cons]
      rfl

/-- A part as often as it is there reads the tokens of items. -/
theorem many_items {head : ι} {items : List ι}
    (hitems : ∀ item ∈ head :: items, ∀ back,
      Reads depth part (tokensOf item) back (treesOf item))
    (htokens : ∀ item ∈ head :: items, tokensOf item ≠ []) (hstop : Rejects depth part back) :
    Reads depth (.many part) ((head :: items).flatMap tokensOf) back
      ((head :: items).flatMap treesOf) := by
  rcases List.forall_mem_cons.mp htokens with ⟨hhead, hothers⟩
  rw [Reads, List.flatMap_cons, joined_append hhead, behind_flatMap hothers]
  apply @Takes.many _ _ _ _ _ _ _ _ (fun item => joined (tokensOf item)) treesOf
    fun rest => ∃ tokens, rest = behind tokens
  · rintro item hitem _ ⟨tokens, rfl⟩
    exact hitems item hitem tokens
  · rintro item hitem _ ⟨tokens, rfl⟩
    rcases List.exists_cons_of_ne_nil (hothers item hitem) with ⟨token, rest, htoken⟩
    have hbehind : [' '] ++ (joined (tokensOf item) ++ behind tokens) =
        behind (token :: (rest ++ tokens)) := by
      rw [← joined_append (hothers item hitem), htoken, List.cons_append, behind_cons]
      rfl
    rw [hbehind]
    exact ⟨gapLength_behind token (rest ++ tokens), _, rfl⟩
  · intro item hitem
    rcases List.exists_cons_of_ne_nil (hothers item hitem) with ⟨token, rest, htoken⟩
    rw [htoken, joined]
    exact List.append_ne_nil_of_left_ne_nil token.nonempty _
  · exact ⟨back, rfl⟩
  · rw [drop_gapLength_behind]
    exact hstop

/-- A part as often as it is there reads items, and a part behind it what is behind them. -/
theorem many {items : List ι}
    (hitems : ∀ item ∈ items, ∀ back, Reads depth part (tokensOf item) back (treesOf item))
    (htokens : ∀ item ∈ items, tokensOf item ≠ []) (hstop : Rejects depth part (front ++ back))
    (hfront : front ≠ []) (hsecond : Reads depth second front back trees) :
    Reads depth (.seq (.many part) second) (items.flatMap tokensOf ++ front) back
      (items.flatMap treesOf ++ trees) := by
  cases items with
  | nil => exact skip (Takes.many_none hstop) hfront hsecond
  | cons head items =>
      have hmany := many_items hitems htokens hstop
      exact hmany.seq hsecond (by simp [htokens head]) hfront

end Repetition

end Reads

end Source
end ElmBinding
