import ElmBinding.Proofs.Name.Claims
import ElmBinding.Proofs.Naming.Calls

/-!
# Turns

Declarations that ask for their value names one after the other take turns.  If each of them would
be given another name than the others if it came first, everyone gets that name whenever its turn
comes, and the ledger is the same in the end, but for the order in which it has been written.

Main results:

- Theorem {lit}`Namespace.attempt_insert`: claims that do not contest an identifier.
- Definition {lit}`Ledger.Like`: ledgers that have given out the same.
- Definition {lit}`LikeRuns`: runs that end alike.
- Definition {lit}`Site.valueIn`: the value name that a declaration is given in a ledger.
- Theorem {lit}`Site.valueIn_after`: an uncontested name is there after another turn.
- Theorem {lit}`Site.valueId_comm`: two declarations that contest nothing may change turns.
- Theorem {lit}`Site.refused_of_contested`: without a suffix, a contested name is refused.
-/

namespace ElmBinding

open Name

namespace Name.Namespace

variable {space : Namespace} {candidate id text : String}

/-- Where the search does not end, it does not end either if more is taken. -/
theorem isSettled_insert_of_not (h : ¬space.isSettled text = true) :
    ¬(space.insert id).isSettled text = true := by
  simp only [isSettled, isClaimed, claimed_insert, Bool.or_eq_true, Bool.not_eq_true', not_or,
    Bool.not_eq_false, List.contains_cons, Bool.or_eq_true] at h ⊢
  exact ⟨h.1, Or.inr h.2⟩

/-- Where the search ends, it still does if something else is taken. -/
theorem isSettled_insert_of_ne (h : space.isSettled text = true) (hne : text ≠ id) :
    (space.insert id).isSettled text = true := by
  simpa [isSettled, isClaimed, hne] using h

/-- If an identifier is taken that a claim is not granted, the claim is answered alike. -/
theorem attempt_insert (hlegal : isIdentifier id = true)
    (hother : (space.attempt candidate).1 ≠ .ok id) :
    ((space.insert id).attempt candidate).1 = (space.attempt candidate).1 := by
  unfold attempt claim at hother ⊢
  cases hcount : space.settledCount? candidate with
  | none =>
      have hempty := suffix_eq_of_settledCount? hcount
      have hfirst : ¬space.isSettled candidate = true := List.find?_eq_none.mp hcount 0 (by simp)
      have hnone : (space.insert id).settledCount? candidate = none := by
        refine List.find?_eq_none.mpr fun count _ => ?_
        rw [suffixed_insert, suffixed_of_empty hempty]
        exact isSettled_insert_of_not hfirst
      rw [hnone]
  | some count =>
      rw [hcount] at hother
      rcases List.find?_range_eq_some.mp hcount with ⟨hsettled, hmem, hpassed⟩
      have hne : space.suffixed candidate count ≠ id := by
        rintro rfl
        simp [hlegal] at hother
      have hsome : (space.insert id).settledCount? candidate = some count := by
        refine List.find?_range_eq_some.mpr ⟨?_, ?_, fun fewer hless => ?_⟩
        · rw [suffixed_insert]
          exact isSettled_insert_of_ne hsettled hne
        · rw [List.mem_range] at hmem ⊢
          exact Nat.lt_succ_of_lt hmem
        · have hunsettled := hpassed fewer hless
          rw [Bool.not_eq_true'] at hunsettled ⊢
          rw [suffixed_insert, ← Bool.not_eq_true]
          exact isSettled_insert_of_not (by rw [hunsettled]; exact Bool.false_ne_true)
      simp only [hsome, suffixed_insert]
      cases isIdentifier (space.suffixed candidate count) <;> rfl

/-- What a claim is granted is legal and was free. -/
theorem of_attempt_eq_ok (h : (space.attempt candidate).1 = .ok id) :
    isIdentifier id = true ∧ id ∉ space.claimed := by
  unfold attempt at h
  cases hclaim : space.claim candidate with
  | error refused => simp [hclaim] at h
  | ok granted =>
      rcases granted with ⟨other, after⟩
      rcases eq_insert_of_claim hclaim with ⟨hlegal, hfree, -⟩
      simp only [hclaim, Except.ok.injEq] at h
      rw [← h]
      exact ⟨hlegal, hfree⟩

/-- Without a suffix, what a claim is granted is its candidate. -/
theorem eq_candidate_of_attempt (hempty : space.suffix = "")
    (h : (space.attempt candidate).1 = .ok id) : id = candidate := by
  unfold attempt claim at h
  cases hcount : space.settledCount? candidate with
  | none => simp [hcount] at h
  | some count =>
      simp only [hcount, suffixed_of_empty hempty] at h
      cases hlegal : isIdentifier candidate with
      | false => simp [hlegal] at h
      | true =>
          simp only [hlegal, if_true, Except.ok.injEq] at h
          exact h.symm

end Name.Namespace

/-! ## Ledgers that are alike -/

namespace Name.Namespace.SameNames

variable {space other third : Namespace}

theorem refl (space : Namespace) : SameNames space space :=
  ⟨List.Perm.refl _, rfl⟩

theorem trans (h : SameNames space other) (h' : SameNames other third) : SameNames space third :=
  ⟨h.claimed.trans h'.claimed, h.suffix.trans h'.suffix⟩

end Name.Namespace.SameNames

namespace Ledger

/-- Ledgers that have given out the same names, in whatever order. -/
structure Like (ledger other : Ledger) : Prop where
  taken : Namespace.SameNames ledger.taken other.taken
  typeIds : ledger.typeIds = other.typeIds
  valueIds : ∀ fullName, ledger.valueIds.lookup fullName = other.valueIds.lookup fullName
  bindings : ledger.bindings = other.bindings

namespace Like

variable {ledger other third : Ledger}

theorem refl (ledger : Ledger) : ledger.Like ledger :=
  ⟨.refl _, rfl, fun _ => rfl, rfl⟩

theorem trans (h : ledger.Like other) (h' : other.Like third) : ledger.Like third :=
  ⟨h.taken.trans h'.taken, h.typeIds.trans h'.typeIds,
    fun fullName => (h.valueIds fullName).trans (h'.valueIds fullName),
    h.bindings.trans h'.bindings⟩

end Like

end Ledger

/-! ## Runs that end alike -/

/-- Runs that end with results that go together, in ledgers that are alike, or with one error. -/
inductive LikeRuns {α β : Type} (same : α → β → Prop) :
    EStateM.Result BindingError Ledger α → EStateM.Result BindingError Ledger β → Prop
  | ok {a : α} {b : β} {ledger other : Ledger} (hsame : same a b) (hlike : ledger.Like other) :
      LikeRuns same (.ok a ledger) (.ok b other)
  | error (error : BindingError) (ledger other : Ledger) :
      LikeRuns same (.error error ledger) (.error error other)

namespace LikeRuns

variable {α β γ δ : Type} {same : α → β → Prop} {ledger other : Ledger}

/-- A run ends like itself. -/
theorem refl (result : EStateM.Result BindingError Ledger α) : LikeRuns Eq result result := by
  cases result with
  | ok a ledger => exact .ok rfl (.refl ledger)
  | error error ledger => exact .error error ledger ledger

/-- Steps that end alike are followed by steps that do. -/
theorem bind {step : Naming α} {step' : Naming β} {next : α → Naming γ} {next' : β → Naming δ}
    {same' : γ → δ → Prop} (h : LikeRuns same (step.run ledger) (step'.run other))
    (hnext : ∀ a b after after', step.run ledger = .ok a after → same a b → after.Like after' →
      LikeRuns same' ((next a).run after) ((next' b).run after')) :
    LikeRuns same' ((step >>= next).run ledger) ((step' >>= next').run other) := by
  rw [EStateM.run_bind, EStateM.run_bind]
  generalize step.run ledger = result, step'.run other = result' at h hnext
  cases h with
  | ok hsame hlike => exact hnext _ _ _ _ rfl hsame hlike
  | error error after after' => exact .error error after after'

/-- Runs are alike if each is alike to one in the middle. -/
theorem trans {same' : β → γ → Prop} {same'' : α → γ → Prop}
    {first : EStateM.Result BindingError Ledger α} {second : EStateM.Result BindingError Ledger β}
    {third : EStateM.Result BindingError Ledger γ} (h : LikeRuns same first second)
    (h' : LikeRuns same' second third) (hsame : ∀ a b c, same a b → same' b c → same'' a c) :
    LikeRuns same'' first third := by
  cases h with
  | ok hfirst hlike =>
      cases h' with
      | ok hsecond hlike' => exact .ok (hsame _ _ _ hfirst hsecond) (hlike.trans hlike')
  | error error after after' =>
      cases h' with
      | error error after' after'' => exact .error error _ _

end LikeRuns

namespace Site

variable {site : Site} {ledger other after : Ledger} {fullName first second id id' : String}

/-! ## Value names -/

/-- The value name that a declaration is given in a ledger, or the error that it gets. -/
def valueIn (site : Site) (ledger : Ledger) (fullName : String) : Except BindingError String :=
  match (site.valueId fullName).run ledger with
  | .ok id _ => .ok id
  | .error error _ => .error error

/-- A claim is granted what the namespace grants, and refused what it refuses. -/
theorem run_claim (fullName candidate : String) (ledger : Ledger) :
    (claim fullName candidate).run ledger =
      match (ledger.taken.attempt candidate).1 with
      | .ok id => .ok id (ledger.take id)
      | .error refused => .error (refusal fullName refused) ledger := by
  cases hclaim : ledger.taken.claim candidate with
  | error refused => simp [claim, EStateM.run, Namespace.attempt, hclaim]
  | ok granted =>
      rcases granted with ⟨id, taken⟩
      have htaken := (Namespace.eq_insert_of_claim hclaim).2.2
      simp [claim, EStateM.run, Namespace.attempt, hclaim, htaken, Ledger.take]

/-- A value name is the one on record, or else what is granted for the candidate. -/
theorem run_valueId (site : Site) (ledger : Ledger) (fullName : String) :
    (site.valueId fullName).run ledger =
      match ledger.valueIds.lookup fullName with
      | some id => .ok id ledger
      | none =>
          match site.registry.key? fullName with
          | none => .error (.breach (.unregisteredName fullName)) ledger
          | some key =>
              match (ledger.taken.attempt (casing .value site.settings.separator key)).1 with
              | .ok id => .ok id ((ledger.take id).giveValue fullName id)
              | .error refused => .error (refusal fullName refused) ledger := by
  cases hlookup : ledger.valueIds.lookup fullName with
  | some id => exact valueId_of_lookup hlookup
  | none =>
      rw [valueId, run_get_bind, hlookup]
      cases hkey : site.registry.key? fullName with
      | none => simp only [candidate, key, hkey]; rfl
      | some key =>
          simp only [candidate, Site.key, hkey, pure_bind]
          rw [EStateM.run_bind, run_claim]
          cases (ledger.taken.attempt (casing .value site.settings.separator key)).1 <;> rfl

/-- A value name is given out if it is on record, or if it is granted now. -/
theorem run_valueId_eq_ok_iff : (site.valueId fullName).run ledger = .ok id after ↔
    (ledger.valueIds.lookup fullName = some id ∧ after = ledger) ∨
      (ledger.valueIds.lookup fullName = none ∧ after = (ledger.take id).giveValue fullName id ∧
        ∃ key, site.registry.key? fullName = some key ∧
          (ledger.taken.attempt (casing .value site.settings.separator key)).1 = .ok id) := by
  rw [run_valueId]
  cases ledger.valueIds.lookup fullName with
  | some id => simp [eq_comm]
  | none =>
      cases site.registry.key? fullName with
      | none => simp
      | some key =>
          cases hgranted : (ledger.taken.attempt (casing .value site.settings.separator key)).1 with
          | error refused => simp [hgranted]
          | ok id =>
              simp only [EStateM.Result.ok.injEq, reduceCtorEq, false_and, true_and, false_or,
                Option.some.injEq, exists_eq_left', hgranted, Except.ok.injEq]
              constructor
              · rintro ⟨rfl, rfl⟩
                exact ⟨rfl, rfl⟩
              · rintro ⟨rfl, rfl⟩
                exact ⟨rfl, rfl⟩

/-- A value name that is given out leaves the bindings as they are. -/
theorem bindings_of_valueId (h : (site.valueId fullName).run ledger = .ok id after) :
    after.bindings = ledger.bindings := by
  rcases run_valueId_eq_ok_iff.mp h with ⟨-, rfl⟩ | ⟨-, rfl, -⟩ <;> rfl

/-- In ledgers that are alike, a declaration is given the same value name. -/
theorem valueId_like (site : Site) (hlike : ledger.Like other) (fullName : String) :
    LikeRuns Eq ((site.valueId fullName).run ledger) ((site.valueId fullName).run other) := by
  rw [run_valueId, run_valueId, ← hlike.valueIds]
  cases ledger.valueIds.lookup fullName with
  | some id => exact .ok rfl hlike
  | none =>
      cases site.registry.key? fullName with
      | none => exact .error _ _ _
      | some key =>
          dsimp only
          rw [← (hlike.taken.attempt (casing .value site.settings.separator key)).1]
          cases (ledger.taken.attempt (casing .value site.settings.separator key)).1 with
          | error refused => exact .error _ _ _
          | ok id =>
              refine .ok rfl ⟨⟨hlike.taken.claimed.cons id, hlike.taken.suffix⟩, hlike.typeIds, ?_,
                hlike.bindings⟩
              intro name
              simp only [Ledger.giveValue, Ledger.take, List.lookup_cons, hlike.valueIds]

/-- What is given is on record, or it is what the namespace answers. -/
theorem valueIn_eq (site : Site) (ledger : Ledger) (fullName : String) :
    site.valueIn ledger fullName =
      match ledger.valueIds.lookup fullName with
      | some id => .ok id
      | none =>
          match site.registry.key? fullName with
          | none => .error (.breach (.unregisteredName fullName))
          | some key => (ledger.taken.attempt
              (casing .value site.settings.separator key)).1.mapError (refusal fullName) := by
  rw [valueIn, run_valueId]
  cases ledger.valueIds.lookup fullName with
  | some id => rfl
  | none =>
      cases site.registry.key? fullName with
      | none => rfl
      | some key =>
          dsimp only
          cases (ledger.taken.attempt (casing .value site.settings.separator key)).1 <;> rfl

/-- After another turn, a declaration is given what it would have been given before it. -/
theorem valueIn_after (hne : second ≠ first)
    (h : (site.valueId first).run ledger = .ok id after)
    (hother : site.valueIn ledger second ≠ .ok id) :
    site.valueIn after second = site.valueIn ledger second := by
  rcases run_valueId_eq_ok_iff.mp h with ⟨-, rfl⟩ | ⟨-, rfl, key, -, hgranted⟩
  · rfl
  · have hlegal := (Namespace.of_attempt_eq_ok hgranted).1
    have hlookup : ((ledger.take id).giveValue first id).valueIds.lookup second =
        ledger.valueIds.lookup second := by
      simp [Ledger.giveValue, Ledger.take, List.lookup_cons, beq_false_of_ne hne]
    rw [valueIn_eq] at hother
    rw [valueIn_eq, valueIn_eq, hlookup]
    cases hknown : ledger.valueIds.lookup second with
    | some known => rfl
    | none =>
        cases hkey : site.registry.key? second with
        | none => rfl
        | some key' =>
            rw [hknown, hkey] at hother
            -- What the first one has been granted is not what the second one asks for.
            have hclear : (ledger.taken.attempt
                (casing .value site.settings.separator key')).1 ≠ .ok id := by
              intro hclash
              simp [hclash, Except.mapError] at hother
            exact congrArg (Except.mapError (refusal second))
              (Namespace.attempt_insert hlegal hclear)

/-- A name that is given is given by a run. -/
theorem exists_run_of_valueIn (h : site.valueIn ledger fullName = .ok id) :
    ∃ after, (site.valueId fullName).run ledger = .ok id after := by
  unfold valueIn at h
  cases hrun : (site.valueId fullName).run ledger with
  | error error after => simp [hrun] at h
  | ok other after =>
      simp only [hrun, Except.ok.injEq] at h
      exact ⟨after, by rw [h]⟩

end Site

namespace Ledger

variable {ledger : Ledger} {first second id id' : String}

/-- The ledger in which a declaration has a value name; if it has one, it keeps that. -/
def settle (ledger : Ledger) (fullName id : String) : Ledger :=
  match ledger.valueIds.lookup fullName with
  | some _ => ledger
  | none => (ledger.take id).giveValue fullName id

/-- The value name of another declaration is not touched. -/
theorem lookup_settle (ledger : Ledger) (hne : second ≠ first) (id : String) :
    (ledger.settle first id).valueIds.lookup second = ledger.valueIds.lookup second := by
  unfold settle
  cases ledger.valueIds.lookup first with
  | some known => rfl
  | none => simp [giveValue, take, List.lookup_cons, beq_false_of_ne hne]

/-- A declaration with a value name keeps it. -/
theorem settle_of_some (h : ledger.valueIds.lookup first = some id') :
    ledger.settle first id = ledger := by
  rw [settle, h]

/-- A declaration without a value name is given one. -/
theorem settle_of_none (h : ledger.valueIds.lookup first = none) :
    ledger.settle first id = (ledger.take id).giveValue first id := by
  rw [settle, h]

/-- It makes no difference which one of two declarations has its value name settled first. -/
theorem settle_comm (hne : first ≠ second) (id id' : String) :
    ((ledger.settle first id).settle second id').Like
      ((ledger.settle second id').settle first id) := by
  have hfirst := ledger.lookup_settle hne id'
  have hsecond := ledger.lookup_settle hne.symm id
  cases hknown : ledger.valueIds.lookup first with
  | some known =>
      rw [hknown] at hfirst
      rw [settle_of_some hknown, settle_of_some hfirst]
      exact .refl _
  | none =>
      rw [hknown] at hfirst
      cases hknown' : ledger.valueIds.lookup second with
      | some known' =>
          rw [hknown'] at hsecond
          rw [settle_of_some hsecond, settle_of_some hknown']
          exact .refl _
      | none =>
          rw [hknown'] at hsecond
          rw [settle_of_none hsecond, settle_of_none hknown, settle_of_none hfirst,
            settle_of_none hknown']
          refine ⟨⟨.swap _ _ _, rfl⟩, rfl, fun name => ?_, rfl⟩
          simp only [giveValue, take, List.lookup_cons]
          by_cases hname : name = first
          · subst hname
            simp [beq_false_of_ne hne]
          · simp [beq_false_of_ne hname]

end Ledger

namespace Site

variable {site : Site} {ledger after after' : Ledger} {fullName first second id id' : String}

/-- A value name that is given out is settled. -/
theorem eq_settle_of_valueId (h : (site.valueId fullName).run ledger = .ok id after) :
    after = ledger.settle fullName id := by
  rcases run_valueId_eq_ok_iff.mp h with ⟨hknown, rfl⟩ | ⟨hnone, rfl, -⟩
  · exact (Ledger.settle_of_some hknown).symm
  · exact (Ledger.settle_of_none hnone).symm

/-- Two declarations that are given different names may change turns. -/
theorem valueId_comm (hne : first ≠ second) (hids : id ≠ id')
    (h : (site.valueId first).run ledger = .ok id after)
    (h' : (site.valueId second).run ledger = .ok id' after') :
    ∃ final final', (site.valueId second).run after = .ok id' final ∧
      (site.valueId first).run after' = .ok id final' ∧ final.Like final' := by
  have hsecond : site.valueIn after second = .ok id' := by
    rw [valueIn_after hne.symm h] <;> simp [valueIn, h', hids.symm]
  have hfirst : site.valueIn after' first = .ok id := by
    rw [valueIn_after hne h'] <;> simp [valueIn, h, hids]
  rcases exists_run_of_valueIn hsecond with ⟨final, hfinal⟩
  rcases exists_run_of_valueIn hfirst with ⟨final', hfinal'⟩
  refine ⟨final, final', hfinal, hfinal', ?_⟩
  rw [eq_settle_of_valueId hfinal, eq_settle_of_valueId hfinal', eq_settle_of_valueId h,
    eq_settle_of_valueId h']
  exact Ledger.settle_comm hne id id'

/-! ## Contested names -/

/-- The ledger in which a value name has been given out is sound, and has it on record. -/
theorem reaches_of_valueId (hsound : ledger.Sound site.settings)
    (h : (site.valueId fullName).run ledger = .ok id after) :
    ledger.Reaches site.settings after ∧ after.valueIds.lookup fullName = some id := by
  have hensures := @valueId_ensures ledger (fun _ => True) site fullName hsound
    ⟨fun _ _ => trivial, fun _ _ => trivial⟩
  rw [Ensures, h] at hensures
  exact hensures

/-- A declaration that can be named is refused only if its name is taken and there is no suffix. -/
theorem collision_of_valueIn (hsound : ledger.Sound site.settings) (hname : site.CanName fullName)
    {error : BindingError} (h : site.valueIn ledger fullName = .error error) :
    site.settings.collisionSuffix = "" ∧ ∃ candidate, error = .collision fullName candidate := by
  have hcovers : site.CoversName (fun error => site.settings.collisionSuffix = "" ∧
      ∃ candidate, error = .collision fullName candidate) fullName :=
    ⟨fun hinsane => absurd hname hinsane, fun hempty candidate => ⟨hempty, candidate, rfl⟩⟩
  have hensures := valueId_ensures hsound hcovers
  unfold valueIn at h
  unfold Ensures at hensures
  cases hrun : (site.valueId fullName).run ledger with
  | ok id after => simp [hrun] at h
  | error refused after =>
      rw [hrun] at h hensures
      rw [Except.error.injEq] at h
      rw [← h]
      exact hensures.2

/-- Without a suffix, a declaration is never given two different names. -/
theorem valueIn_unique (hempty : ledger.taken.suffix = "") (hempty' : after.taken.suffix = "")
    (hlookup : after.valueIds.lookup fullName = ledger.valueIds.lookup fullName)
    (h : site.valueIn ledger fullName = .ok id) (h' : site.valueIn after fullName = .ok id') :
    id = id' := by
  rw [valueIn_eq] at h h'
  rw [hlookup] at h'
  cases hknown : ledger.valueIds.lookup fullName with
  | some known =>
      rw [hknown] at h h'
      exact (Except.ok.inj h).symm.trans (Except.ok.inj h')
  | none =>
      cases hkey : site.registry.key? fullName with
      | none => simp [hknown, hkey] at h
      | some key =>
          have hgranted : ∀ {space : Namespace} {granted : String}, space.suffix = "" →
              (space.attempt (casing .value site.settings.separator key)).1.mapError
                (refusal fullName) = .ok granted →
              granted = casing .value site.settings.separator key := by
            intro space granted hempty hattempt
            cases hanswer : (space.attempt (casing .value site.settings.separator key)).1 with
            | error refused => simp [hanswer, Except.mapError] at hattempt
            | ok given =>
                simp only [hanswer, Except.mapError, Except.ok.injEq] at hattempt
                rw [← hattempt]
                exact Namespace.eq_candidate_of_attempt hempty hanswer
          simp only [hknown, hkey] at h h'
          rw [hgranted hempty h, hgranted hempty' h']

/-- Without a suffix, a name that two declarations would be given is refused to the later one. -/
theorem refused_of_contested (hsound : ledger.Sound site.settings)
    (hempty : site.settings.collisionSuffix = "") (hne : first ≠ second)
    (h : (site.valueId first).run ledger = .ok id after)
    (hsame : site.valueIn ledger second = .ok id) :
    ∃ error, site.valueIn after second = .error error := by
  rcases reaches_of_valueId hsound h with ⟨hreaches, hfirst⟩
  cases hlater : site.valueIn after second with
  | error error => exact ⟨error, rfl⟩
  | ok id' =>
      exfalso
      have hlookup : after.valueIds.lookup second = ledger.valueIds.lookup second := by
        rw [eq_settle_of_valueId h, ledger.lookup_settle hne.symm]
      obtain rfl := valueIn_unique (hsound.suffix_eq.trans hempty)
        (hreaches.sound.suffix_eq.trans hempty) hlookup hsame hlater
      rcases exists_run_of_valueIn hlater with ⟨final, hfinal⟩
      rcases reaches_of_valueId hreaches.sound hfinal with ⟨hreaches', hsecond⟩
      -- Both declarations would have the name on record for the same use.
      have hfirst' : final.id? first .valueName = some id := hreaches'.ext.valueId? hfirst
      have hsecond' : final.id? second .valueName = some id := hsecond
      exact hne (hreaches'.sound.id_injective hfirst' hsecond').1

end Site

end ElmBinding
