import ElmBinding.Proofs.Grammar.Texts

/-!
# Enough budget for nested calls

A rule calls rules inside it.  Where it has taken a character before a call, less text is left
to the call.  Where it has not, the called rule comes earlier in a fixed order of the rules.  So
the chains of calls are bounded by the length of the text and the number of rules, and beyond
that bound the budget for them makes no difference.

Main results:

- Definition {lit}`Pattern.advances`: patterns that take a character at least.
- Definition {lit}`Pattern.leads`: the rules that a pattern calls before it takes a character.
- Theorem {lit}`Pattern.run_congr`: a reading depends on these calls, and on those behind.
- Theorem {lit}`read_eq_of_budget`: readings with different budgets that are both large enough.
-/

namespace ElmBinding
namespace Grammar

variable {ρ : Type} {gaps : List Char → Nat} {call call' : ρ → Cursor → Outcome ρ}
  {advancing : ρ → Bool} {pattern : Pattern ρ} {cursor : Cursor} {taken : Taken ρ}

namespace Pattern

/-- Whether a pattern takes a character at least, given the rules that do. -/
def advances (advancing : ρ → Bool) : Pattern ρ → Bool
  | .word text => !text.toList.isEmpty
  | .char _ => true
  | .sub rule => advancing rule
  | .seq first second => first.advances advancing || second.advances advancing
  | .alt first second => first.advances advancing && second.advances advancing
  | .start | .finish | .opt _ | .many _ | .ahead _ | .absent _ => false

/-- The rules that a pattern may call before it has taken a character. -/
def leads (advancing : ρ → Bool) : Pattern ρ → List ρ
  | .sub rule => [rule]
  | .seq first second =>
      first.leads advancing ++
        if first.advances advancing then [] else second.leads advancing
  | .alt first second => first.leads advancing ++ second.leads advancing
  | .opt part | .many part | .ahead part | .absent part => part.leads advancing
  | .word _ | .char _ | .start | .finish => []

end Pattern

/-! ## What is left -/

/-- Calls leave no more text than there was, and less if their rule is an advancing one. -/
def Shrinks (advancing : ρ → Bool) (call : ρ → Cursor → Outcome ρ) : Prop :=
  ∀ rule cursor taken, (call rule cursor).taken = some taken →
    taken.cursor.rest.length ≤ cursor.rest.length ∧
      (advancing rule = true → taken.cursor.rest.length < cursor.rest.length)

/-- Going on in a text leaves no more of it. -/
theorem length_advance_le (cursor : Cursor) (count : Nat) :
    (cursor.advance count).rest.length ≤ cursor.rest.length := by
  simp [Cursor.advance]

/-- Behind some characters there are fewer. -/
theorem length_advance_lt {count : Nat} (hpos : 0 < count) (hle : count ≤ cursor.rest.length) :
    (cursor.advance count).rest.length < cursor.rest.length := by
  rw [Cursor.advance, List.length_drop]
  omega

/-- A leaf leaves no more text than there was, and less if it is an advancing one. -/
theorem length_of_leaf (hcall : Shrinks advancing call) {leaf : Pattern ρ} (hleaf : leaf.IsLeaf)
    (h : (leaf.run gaps call cursor).taken = some taken) :
    taken.cursor.rest.length ≤ cursor.rest.length ∧
      (leaf.advances advancing = true → taken.cursor.rest.length < cursor.rest.length) := by
  cases hleaf with
  | @word text =>
      rw [Pattern.run] at h
      split at h
      · rename_i hfront
        obtain rfl := Option.some.inj h
        refine ⟨length_advance_le cursor _, fun hadvances => length_advance_lt ?_ ?_⟩
        · rw [List.length_pos_iff]
          simpa [Pattern.advances] using hadvances
        · exact (List.isPrefixOf_iff_prefix.mp hfront).length_le
      · simp at h
  | char =>
      rw [Pattern.run] at h
      split at h
      · rename_i hclass
        obtain rfl := Option.some.inj h
        refine ⟨length_advance_le cursor 1, fun _ => length_advance_lt Nat.one_pos ?_⟩
        cases hrest : cursor.rest with
        | nil => simp [hrest] at hclass
        | cons c rest => simp
      · simp at h
  | sub => exact hcall _ cursor taken h

/-- A reading leaves no more text than there was. -/
theorem length_le_of_run (hcall : Shrinks advancing call)
    (h : (pattern.run gaps call cursor).taken = some taken) :
    taken.cursor.rest.length ≤ cursor.rest.length := by
  refine Pattern.run_keeps (fun cursor taken => taken.cursor.rest.length ≤ cursor.rest.length)
    (fun _ => Nat.le_refl _) ?_ ?_ h
  · intro cursor first second hfirst hsecond
    exact Nat.le_trans hsecond (Nat.le_trans (length_advance_le _ _) hfirst)
  · intro leaf hmem cursor taken hleaf
    exact (length_of_leaf hcall (Pattern.isLeaf_of_mem hmem) hleaf).1

/-- A reading by an advancing pattern leaves less text than there was. -/
theorem length_lt_of_run (hcall : Shrinks advancing call)
    (hadvances : pattern.advances advancing = true)
    (h : (pattern.run gaps call cursor).taken = some taken) :
    taken.cursor.rest.length < cursor.rest.length := by
  induction pattern generalizing cursor taken with
  | word text => exact (length_of_leaf hcall .word h).2 hadvances
  | char inClass => exact (length_of_leaf hcall .char h).2 hadvances
  | sub rule => exact (length_of_leaf hcall .sub h).2 hadvances
  | seq first second ihFirst ihSecond =>
      rcases exists_of_taken_andThen h with ⟨one, two, hone, htwo, rfl⟩
      have hgap := length_advance_le one.cursor (gaps one.cursor.rest)
      have hlengthOne := length_le_of_run hcall hone
      have hlengthTwo := length_le_of_run hcall htwo
      rcases Bool.or_eq_true_iff.mp hadvances with hfirst | hsecond
      · exact Nat.lt_of_le_of_lt (Nat.le_trans hlengthTwo hgap) (ihFirst hfirst hone)
      · have hless := ihSecond hsecond htwo
        exact Nat.lt_of_lt_of_le hless (Nat.le_trans hgap hlengthOne)
  | alt first second ihFirst ihSecond =>
      rcases Bool.and_eq_true_iff.mp hadvances with ⟨hfirst, hsecond⟩
      rcases taken_of_orElse h with h | h
      · exact ihFirst hfirst h
      · exact ihSecond hsecond h
  | start | finish | opt _ _ | many _ _ | ahead _ _ | absent _ _ =>
      simp [Pattern.advances] at hadvances

/-! ## What a reading depends on -/

/-- Repetitions depend on the steps from where no more text is left. -/
theorem repeatReading_congr {step step' : Cursor → Outcome ρ} {bound : List Char}
    (hstep : ∀ next : Cursor, next.rest.length ≤ cursor.rest.length → step next = step' next)
    (hshrinks : ∀ {next taken}, (step next).taken = some taken →
      taken.cursor.rest.length ≤ next.rest.length) :
    repeatReading step bound cursor = repeatReading step' bound cursor := by
  induction bound generalizing cursor with
  | nil => rfl
  | cons c bound ih =>
      rw [repeatReading, repeatReading, ← hstep cursor (Nat.le_refl _)]
      congr 1
      unfold Outcome.andThen
      cases htaken : (step cursor).taken with
      | none => rfl
      | some first =>
          have hfirst := hshrinks htaken
          simp only
          rw [ih fun next hnext => hstep next (Nat.le_trans hnext hfirst)]

/--
A reading depends on the calls that it makes before it takes a character, and on the calls from
where less text is left.
-/
theorem Pattern.run_congr (hcall : Shrinks advancing call)
    (hleads : ∀ rule ∈ pattern.leads advancing, ∀ next : Cursor,
      next.rest.length ≤ cursor.rest.length → call rule next = call' rule next)
    (hbehind : ∀ rule, ∀ next : Cursor, next.rest.length < cursor.rest.length →
      call rule next = call' rule next) :
    pattern.run gaps call cursor = pattern.run gaps call' cursor := by
  induction pattern generalizing cursor with
  | word text | char inClass | start | finish => rfl
  | sub rule => exact hleads rule List.mem_cons_self cursor (Nat.le_refl _)
  | seq first second ihFirst ihSecond =>
      rw [run, run, ← ihFirst (fun rule hmem => hleads rule (List.mem_append_left _ hmem)) hbehind]
      unfold Outcome.andThen
      cases htaken : (first.run gaps call cursor).taken with
      | none => rfl
      | some one =>
          have hone := length_le_of_run hcall htaken
          have hgap := length_advance_le one.cursor (gaps one.cursor.rest)
          simp only
          rw [ihSecond ?_ fun rule next hnext =>
            hbehind rule next (Nat.lt_of_lt_of_le hnext (Nat.le_trans hgap hone))]
          intro rule hmem next hnext
          have hnext := Nat.le_trans hnext hgap
          by_cases hadvances : first.advances advancing = true
          · have hless := length_lt_of_run hcall hadvances htaken
            exact hbehind rule next (Nat.lt_of_le_of_lt hnext hless)
          · refine hleads rule ?_ next (Nat.le_trans hnext hone)
            simp [leads, hadvances, hmem]
  | alt first second ihFirst ihSecond =>
      rw [run, run, ihFirst (fun rule hmem => hleads rule (List.mem_append_left _ hmem)) hbehind,
        ihSecond (fun rule hmem => hleads rule (List.mem_append_right _ hmem)) hbehind]
  | opt part ih => rw [run, run, ih hleads hbehind]
  | many part ih =>
      have hpart : ∀ next : Cursor, next.rest.length ≤ cursor.rest.length →
          part.run gaps call next = part.run gaps call' next := fun next hnext =>
        ih (fun rule hmem later hlater => hleads rule hmem later (Nat.le_trans hlater hnext))
          fun rule later hlater => hbehind rule later (Nat.lt_of_lt_of_le hlater hnext)
      rw [run, run, ← hpart cursor (Nat.le_refl _)]
      congr 1
      unfold Outcome.andThen
      cases htaken : (part.run gaps call cursor).taken with
      | none => rfl
      | some one =>
          have hone := length_le_of_run hcall htaken
          simp only
          rw [repeatReading_congr]
          · intro next hnext
            exact hpart _ (Nat.le_trans (length_advance_le next _) (Nat.le_trans hnext hone))
          · intro next inner hinner
            exact Nat.le_trans (length_le_of_run hcall hinner) (length_advance_le next _)
  | ahead part ih => rw [run, run, ih hleads hbehind]
  | absent part ih => rw [run, run, ih hleads hbehind]

/-! ## Budgets -/

section Budgets

variable {grammar : Grammar ρ}
  (hadvancing : ∀ rule, advancing rule = true →
    (grammar.production rule).body.advances advancing = true)

include hadvancing

/-- Readings by rules leave no more text than there was, and less if the rule is advancing. -/
theorem shrinks_read (budget : Nat) : Shrinks advancing (grammar.read budget) := by
  induction budget with
  | zero => simp [Shrinks, Grammar.read]
  | succ budget ih =>
      intro rule cursor taken h
      rcases eq_of_taken_ofRule h with ⟨inside, hinside, rfl⟩
      have hle := length_le_of_run ih hinside
      have hlt := fun hrule => length_lt_of_run ih (hadvancing rule hrule) hinside
      exact ⟨hle, hlt⟩

/--
A rule that calls rules before it takes a character calls only such of a lower rank.  Then all
budgets that are large enough for the text give the same reading.
-/
theorem read_eq_of_budget {rank : ρ → Nat} {ranks : Nat} (hranks : ∀ rule, rank rule < ranks)
    (hleads : ∀ rule, ∀ lead ∈ (grammar.production rule).body.leads advancing,
      rank lead < rank rule)
    {budget budget' : Nat} {rule : ρ} {cursor : Cursor}
    (hbudget : ranks * cursor.rest.length + rank rule < budget)
    (hbudget' : ranks * cursor.rest.length + rank rule < budget') :
    grammar.read budget rule cursor = grammar.read budget' rule cursor := by
  induction budget generalizing budget' rule cursor with
  | zero => omega
  | succ budget ih =>
      cases budget' with
      | zero => omega
      | succ budget' =>
          rw [Grammar.read, Grammar.read]
          congr 1
          apply Pattern.run_congr (shrinks_read hadvancing budget)
          · intro lead hmem next hnext
            have hless := hleads rule lead hmem
            have hrest := Nat.mul_le_mul_left ranks hnext
            exact ih (by omega) (by omega)
          · intro other next hnext
            have hless := hranks other
            have hrest := Nat.mul_le_mul_left ranks (Nat.succ_le_of_lt hnext)
            rw [Nat.mul_succ] at hrest
            exact ih (by omega) (by omega)

end Budgets

end Grammar
end ElmBinding
