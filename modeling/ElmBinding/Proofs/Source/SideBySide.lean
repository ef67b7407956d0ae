import ElmBinding.Proofs.Source.Footings
import ElmBinding.Proofs.Source.Literals

/-!
# Two readings of a schema

Two texts that differ in comments alone, and whose passages correspond, are read side by side by
every rule of the schema language.  So both have a tree or neither has, and the trees are the same
up to places and the texts of rules with gaps in them.

Main results:

- Definition {lit}`Rule.footings`: the footings before and behind the rules.
- Theorem {lit}`parallel_sub`: the rules read side by side.
- Theorem {lit}`parsed_alike`: the trees over two texts.
-/

namespace ElmBinding
namespace Source

open Grammar Grammar.Pattern

namespace Rule

/-- Rules whose texts are without gaps. -/
def isGapless (rule : Rule) : Bool :=
  rule.production.lexical ||
    rule ∈ [.packageName, .typeReference, .tag, .keyType, .enumFieldValue]

/-- The footings before and behind a rule; the rule of the whole text begins at its start only. -/
def footings : Rule → Option (Footing × Footing)
  | .proto => none
  | .constant => some (.value, .inside)
  | .aggregate => some (.value, .between)
  | .endOfInput | .fieldOption => some (.inside, .inside)
  | .stringLiteral => some (.inside, .between)
  | .protoBody | .topLevelDefinition | .messageElement | .reserved | .extensions | .extendBlock
  | .enumBody => some (.between, .between)
  | rule => some (.inside, if rule.isGapless then .inside else .between)

/-- The rules whose patterns do not tell alone that they read side by side. -/
def isGuarded (rule : Rule) : Bool :=
  rule ∈ [.proto, .stringLiteral, .aggregate, .reserved, .extensions, .extendBlock]

/-- The production of any other rule leads from the footing before it to the one behind it. -/
theorem leadsTo_production (rule : Rule) (hrule : rule.isGuarded = false) :
    (rule.footings.all fun (before, behind) =>
      (leadsTo footings rule.production.body before).any fun footing =>
        footing.join behind = behind) = true := by
  cases rule <;> first | contradiction | decide

/-- Rules whose texts are without gaps take no gaps. -/
theorem isGapless_production (rule : Rule) (hrule : rule.isGapless = true) :
    Source.isGapless rule.production.lexical Rule.isGapless rule.production.body = true := by
  cases rule <;> first | contradiction | decide

/-- Advancing rules take a character at least. -/
theorem advances_production (rule : Rule) (hrule : rule.isAdvancing = true) :
    rule.production.body.advances isAdvancing = true := by
  cases rule <;> first | contradiction | decide

/-- How many rules may be called one inside the other before a character is taken, up to a bound. -/
def chainLength : Nat → Rule → Nat
  | 0, _ => 0
  | bound + 1, rule =>
      ((rule.production.body.leads isAdvancing).map fun lead => chainLength bound lead + 1).foldl
        max 0

/-- The place of a rule in the order in which rules call each other before they take a character. -/
def rank (rule : Rule) : Nat :=
  chainLength 8 rule

/-- There are more rules than ranks. -/
theorem rank_lt (rule : Rule) : rule.rank < schemaGrammar.rules.length := by
  cases rule <;> decide

/-- Rules that are called before a character is taken are of a lower rank. -/
theorem rank_lead (rule lead : Rule) (hlead : lead ∈ rule.production.body.leads isAdvancing) :
    lead.rank < rule.rank := by
  have hall : ∀ lead ∈ rule.production.body.leads isAdvancing, lead.rank < rule.rank := by
    cases rule <;> decide
  exact hall lead hlead

end Rule

/-! ## Rules side by side -/

section Rules

variable {source source' : List Char} (halike : Alike source source')
  (hpassages : PassagesAlike source source')

include halike hpassages

/-- Rules are read side by side from the footing before them to the one behind them. -/
theorem parallel_sub {gaps : List Char → Nat} {budget : Nat} {rule : Rule}
    {before behind : Footing} (hrule : rule.footings = some (before, behind)) :
    Parallel gaps (schemaGrammar.read budget) Rule.isGapless (rule.isGapless = true)
      (before.Holds source source') (.sub rule) (behind.Holds source source') := by
  induction budget generalizing gaps rule before behind with
  | zero => exact Parallel.sub_zero
  | succ budget ih =>
      have hcall : Shrinks Rule.isAdvancing (schemaGrammar.read budget) :=
        shrinks_read Rule.advances_production budget
      by_cases hguarded : rule.isGuarded = false
      · have hleads := Rule.leadsTo_production rule hguarded
        rw [hrule, Option.all_some, Option.any_eq_true] at hleads
        rcases hleads with ⟨footing, hleads, hjoin⟩
        have hbody := parallel_of_leadsTo halike hpassages hcall ih rule.production.lexical rfl
          hleads (Rule.isGapless_production rule)
        exact Parallel.sub (hbody.mono id fun h => h.weaken (of_decide_eq_true hjoin)) id
      · -- What is left reads over arbitrary characters, or is a literal.
        have hkeyword : ∀ keyword : Rule, keyword.footings = some (.inside, .inside) →
            keyword.isGapless = true →
            Parallel gapLength (schemaGrammar.read budget) Rule.isGapless (rule.isGapless = true)
              (Abreast source source') (.sub keyword) (Inside source source') :=
          fun keyword hfootings h => ((ih hfootings).inexact fun _ => h).mono Abreast.inside id
        cases rule with
        | proto => contradiction
        | stringLiteral =>
            obtain ⟨rfl, rfl⟩ := Prod.mk.inj (Option.some.inj hrule)
            exact Parallel.sub (parallel_stringLiteral halike) id
        | aggregate =>
            obtain ⟨rfl, rfl⟩ := Prod.mk.inj (Option.some.inj hrule)
            exact (parallel_aggregate_of_value halike rfl (shrinks_read Rule.advances_production)
              rfl (budget + 1)).inexact (by decide)
        | reserved =>
            obtain ⟨rfl, rfl⟩ := Prod.mk.inj (Option.some.inj hrule)
            have hbody := parallel_passage hpassages .reserved (by simp [passages]) ";"
              (by decide) (by decide) hcall (hkeyword .reservedKeyword rfl rfl)
            exact Parallel.sub hbody id
        | extensions =>
            obtain ⟨rfl, rfl⟩ := Prod.mk.inj (Option.some.inj hrule)
            have hbody := parallel_passage hpassages .extensions (by simp [passages]) ";"
              (by decide) (by decide) hcall (hkeyword .extensionsKeyword rfl rfl)
            exact Parallel.sub hbody id
        | extendBlock =>
            obtain ⟨rfl, rfl⟩ := Prod.mk.inj (Option.some.inj hrule)
            have hleads : leadsTo Rule.footings Passage.extendBlock.opening .between =
                some .between := by decide
            have hopening : Parallel gapLength (schemaGrammar.read budget) Rule.isGapless
                (Rule.extendBlock.isGapless = true) (Abreast source source')
                Passage.extendBlock.opening (Abreast source source') :=
              parallel_of_leadsTo halike hpassages hcall ih false rfl hleads (by decide)
            have hbody := parallel_passage hpassages .extendBlock (by simp [passages]) "\x7d"
              (by decide) (by decide) hcall (hopening.mono id Abreast.inside)
            exact Parallel.sub (Parallel.assoc (Parallel.assoc hbody)) id
        | _ => exact absurd rfl hguarded

/-- Whole texts are read side by side. -/
theorem alongside_proto (budget : Nat) :
    Alongside Rule.isGapless False (fun _ _ => True) ⟨0, source⟩ ⟨0, source'⟩
      (schemaGrammar.read budget .proto ⟨0, source⟩).taken
      (schemaGrammar.read budget .proto ⟨0, source'⟩).taken := by
  cases budget with
  | zero => exact .none
  | succ budget =>
      have hstart : Abreast source source' source source' := Relation.ReflTransGen.refl
      have hcall : Shrinks Rule.isAdvancing (schemaGrammar.read budget) :=
        shrinks_read Rule.advances_production budget
      have hleads : leadsTo Rule.footings
          (chain [(sub .syntaxStatement).opt, sub .protoBody, sub .endOfInput]) .between =
            some .inside := by decide
      have hbody := parallel_of_leadsTo halike hpassages hcall
        (parallel_sub halike hpassages) false rfl hleads False.elim
      -- The first part of the pattern takes nothing, but holds at the start only.
      apply Alongside.ofRule _ (by decide)
      exact (Alongside.stay hstart).andThen fun _ _ hrest =>
        ((hbody _ _ (hrest.skip halike)).behind_gap False.elim).mono fun _ => trivial

end Rules

/-! ## Trees -/

/-- A budget for the text gives the same reading as any larger one. -/
theorem read_callBudget {text : List Char} {budget : Nat} (rule : Rule)
    (h : schemaGrammar.callBudget text ≤ budget) :
    schemaGrammar.read (schemaGrammar.callBudget text) rule ⟨0, text⟩ =
      schemaGrammar.read budget rule ⟨0, text⟩ := by
  have hrank := rule.rank_lt
  have henough : schemaGrammar.rules.length * text.length + rule.rank <
      schemaGrammar.callBudget text := by
    rw [callBudget, Nat.mul_succ]
    omega
  exact read_eq_of_budget Rule.advances_production Rule.rank_lt Rule.rank_lead henough
    (Nat.lt_of_lt_of_le henough h)

/-- Two texts that are both unreadable, or trees over them with the same sketches. -/
inductive ParsedAlike :
    Except (Frontier Rule) (Node Rule) → Except (Frontier Rule) (Node Rule) → Prop
  | unreadable (frontier frontier' : Frontier Rule) :
      ParsedAlike (.error frontier) (.error frontier')
  | trees {root root' : Node Rule}
      (hsketch : root.sketch Rule.isGapless = root'.sketch Rule.isGapless) :
      ParsedAlike (.ok root) (.ok root')

/-- Two texts that differ in comments alone have trees with the same sketches, or neither has. -/
theorem parsed_alike {source source' : List Char} (halike : Alike source source')
    (hpassages : PassagesAlike source source') :
    ParsedAlike (schemaGrammar.parse .proto source) (schemaGrammar.parse .proto source') := by
  have hread := alongside_proto halike hpassages
    (max (schemaGrammar.callBudget source) (schemaGrammar.callBudget source'))
  rw [← read_callBudget .proto (Nat.le_max_left _ _),
    ← read_callBudget .proto (Nat.le_max_right _ _)] at hread
  unfold Grammar.parse
  simp only
  generalize (schemaGrammar.read (schemaGrammar.callBudget source) .proto ⟨0, source⟩) = outcome
    at hread ⊢
  generalize (schemaGrammar.read (schemaGrammar.callBudget source') .proto ⟨0, source'⟩) = outcome'
    at hread ⊢
  rcases outcome with ⟨taken, attempts⟩
  rcases outcome' with ⟨taken', attempts'⟩
  cases hread with
  | none => exact .unreadable _ _
  | @some taken taken' _ hnodes _ =>
      rcases taken with ⟨cursor, nodes⟩
      rcases taken' with ⟨cursor', nodes'⟩
      cases nodes with
      | nil =>
          cases nodes' with
          | nil => exact .unreadable _ _
          | cons root' rest' => simp [sketches] at hnodes
      | cons root rest =>
          cases nodes' with
          | nil => simp [sketches] at hnodes
          | cons root' rest' => exact .trees (List.cons.inj hnodes).1

end Source
end ElmBinding
