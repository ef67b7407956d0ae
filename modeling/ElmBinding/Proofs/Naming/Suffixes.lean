import ElmBinding.Proofs.Naming.Steps

/-!
# Naming in lockstep

Without a collision suffix, a claim that is granted takes its candidate as it is.  With any
suffix the candidate is the first identifier that the search looks at, so the same claim is
granted there too, and with the same identifier.  Two runs that differ in the suffix alone
therefore go in lockstep for as long as the one without a suffix goes well.

Main results:

- Definition {lit}`Lockstep`: what a step and its counterpart with a suffix have in common.
- Theorem {lit}`lockstep_bind`: steps in lockstep, one after the other, are in lockstep.
- Theorem {lit}`lockstep_claim`: claims are in lockstep.
- Theorems {lit}`Site.lockstep_typeId`, {lit}`Site.lockstep_valueId` and
  {lit}`Site.lockstep_binding`: naming declarations is in lockstep.
- Theorem {lit}`Site.lockstep_reference`: references to declared types are in lockstep.
-/

namespace ElmBinding

open Name

variable {suffix : String} {ledger : Ledger} {α β γ δ : Type}

/-! ## Another suffix -/

/-- A namespace with another suffix. -/
def Name.Namespace.withSuffix (space : Namespace) (suffix : String) : Namespace :=
  { space with suffix }

/-- A ledger whose namespace has another suffix. -/
def Ledger.withSuffix (ledger : Ledger) (suffix : String) : Ledger :=
  { ledger with taken := ledger.taken.withSuffix suffix }

/-- A site whose settings have another suffix. -/
def Site.withSuffix (site : Site) (suffix : String) : Site :=
  { site with settings := { site.settings with collisionSuffix := suffix } }

namespace Name.Namespace

variable {space after : Namespace} {candidate id : String}

/-- A candidate at which the search ends is the first that it looks at. -/
theorem settledCount?_of_isSettled (hsettled : space.isSettled candidate = true) :
    space.settledCount? candidate = some 0 :=
  List.find?_range_eq_some.mpr ⟨hsettled, by simp, by simp⟩

/-- What is claimed without a suffix is claimed with any. -/
theorem claim_withSuffix (hempty : space.suffix = "")
    (h : space.claim candidate = .ok (id, after)) (suffix : String) :
    (space.withSuffix suffix).claim candidate = .ok (id, after.withSuffix suffix) := by
  unfold claim at h
  cases hcount : space.settledCount? candidate with
  | none => simp [hcount] at h
  | some count =>
      have hsettled : space.isSettled candidate = true := by
        have hfound := (List.find?_range_eq_some.mp hcount).1
        rw [suffixed_of_empty hempty] at hfound
        exact hfound
      have hfirst : (space.withSuffix suffix).settledCount? candidate = some 0 :=
        settledCount?_of_isSettled hsettled
      simp only [hcount, suffixed_of_empty hempty] at h
      rw [claim, hfirst]
      by_cases hlegal : isIdentifier candidate = true
      · rw [if_pos hlegal] at h
        rcases Prod.mk.inj (Except.ok.inj h) with ⟨rfl, rfl⟩
        exact if_pos hlegal
      · rw [if_neg hlegal] at h
        contradiction

end Name.Namespace

/-! ## Lockstep -/

/--
A step and its counterpart with a suffix.  Where the step goes well and there was no suffix
before it, there is none behind it, and the counterpart goes well with a result that matches.
-/
def Lockstep (suffix : String) (ledger : Ledger) (step : Naming α) (step' : Naming β)
    (matching : α → β → Prop) : Prop :=
  ledger.taken.suffix = "" → ∀ a after, step.run ledger = .ok a after →
    after.taken.suffix = "" ∧ ∃ b, matching a b ∧
      step'.run (ledger.withSuffix suffix) = .ok b (after.withSuffix suffix)

/-- Results that match, without a step, are in lockstep. -/
theorem lockstep_pure {a : α} {b : β} {matching : α → β → Prop} (hmatch : matching a b) :
    Lockstep suffix ledger (pure a) (pure b) matching := by
  intro hempty result after h
  rcases EStateM.Result.ok.inj h with ⟨rfl, rfl⟩
  exact ⟨hempty, b, hmatch, rfl⟩

/-- A step that fails is in lockstep with any other. -/
theorem lockstep_throw {error : BindingError} {step' : Naming β} {matching : α → β → Prop} :
    Lockstep suffix ledger (throw error) step' matching := by
  intro _ a after h
  contradiction

/-- Steps in lockstep, one after the other, are in lockstep. -/
theorem lockstep_bind {step : Naming α} {step' : Naming β} {matching : α → β → Prop}
    {next : α → Naming γ} {next' : β → Naming δ} {matchingNext : γ → δ → Prop}
    (hstep : Lockstep suffix ledger step step' matching)
    (hnext : ∀ a b after, matching a b →
      Lockstep suffix after (next a) (next' b) matchingNext) :
    Lockstep suffix ledger (step >>= next) (step' >>= next') matchingNext := by
  intro hempty c final h
  rw [EStateM.run_bind] at h
  cases hrun : step.run ledger with
  | error error after => simp [hrun] at h
  | ok a after =>
      rw [hrun] at h
      rcases hstep hempty a after hrun with ⟨hafter, b, hmatch, hrun'⟩
      rcases hnext a b after hmatch hafter c final h with ⟨hfinal, d, hmatchNext, hrunNext⟩
      refine ⟨hfinal, d, hmatchNext, ?_⟩
      rw [EStateM.run_bind, hrun']
      exact hrunNext

/-- Reading the ledger is in lockstep. -/
theorem lockstep_get_bind {next : Ledger → Naming α} {next' : Ledger → Naming β}
    {matching : α → β → Prop}
    (hnext : Lockstep suffix ledger (next ledger) (next' (ledger.withSuffix suffix)) matching) :
    Lockstep suffix ledger (get >>= next) (get >>= next') matching :=
  hnext

/-- Writing the same into both ledgers is in lockstep if it leaves the suffix alone. -/
theorem lockstep_modify_bind {change : Ledger → Ledger} {next : PUnit → Naming α}
    {next' : PUnit → Naming β} {matching : α → β → Prop}
    (hsuffix : (change ledger).taken.suffix = ledger.taken.suffix)
    (hchange : change (ledger.withSuffix suffix) = (change ledger).withSuffix suffix)
    (hnext : Lockstep suffix (change ledger) (next ⟨⟩) (next' ⟨⟩) matching) :
    Lockstep suffix ledger (modify change >>= next) (modify change >>= next') matching := by
  intro hempty a after h
  have hrun : (modify change >>= next').run (ledger.withSuffix suffix) =
      (next' ⟨⟩).run ((change ledger).withSuffix suffix) := by
    rw [← hchange]
    rfl
  rw [hrun]
  exact hnext (hsuffix.trans hempty) a after h

/-- Steps for the items of a list are in lockstep if each of them is. -/
theorem lockstep_mapM {step step' : α → Naming β} {items : List α}
    (hstep : ∀ a ∈ items, ∀ ledger, Lockstep suffix ledger (step a) (step' a) Eq) :
    Lockstep suffix ledger (items.mapM step) (items.mapM step') Eq := by
  induction items generalizing ledger with
  | nil =>
      rw [List.mapM_nil, List.mapM_nil]
      exact lockstep_pure rfl
  | cons a rest ih =>
      rcases List.forall_mem_cons.mp hstep with ⟨hfirst, hrest⟩
      rw [List.mapM_cons, List.mapM_cons]
      apply lockstep_bind (hfirst ledger)
      rintro b _ after rfl
      apply lockstep_bind (ih hrest)
      rintro others _ final rfl
      exact lockstep_pure rfl

/-! ## Names of declarations -/

/-- Claims are in lockstep. -/
theorem lockstep_claim (fullName candidate : String) :
    Lockstep suffix ledger (claim fullName candidate) (claim fullName candidate) Eq := by
  intro hempty id after h
  cases hclaim : ledger.taken.claim candidate with
  | error refused => simp [claim, EStateM.run, hclaim] at h
  | ok claimed =>
      rcases claimed with ⟨id', taken⟩
      simp only [claim, EStateM.run, hclaim] at h
      rcases EStateM.Result.ok.inj h with ⟨rfl, rfl⟩
      have hcarried := Namespace.claim_withSuffix hempty hclaim suffix
      refine ⟨?_, id', rfl, ?_⟩
      · rw [(Namespace.eq_insert_of_claim hclaim).2.2, Namespace.suffix_insert, hempty]
      · simp only [claim, EStateM.run, Ledger.withSuffix, hcarried]

namespace Site

variable {site : Site} {fullName : String}

/-- The candidate of a declaration depends on no suffix. -/
theorem lockstep_candidate (role : Role) :
    Lockstep suffix ledger (site.candidate role fullName)
      ((site.withSuffix suffix).candidate role fullName) Eq := by
  have hcandidate : (site.withSuffix suffix).candidate role fullName =
      site.candidate role fullName := rfl
  rw [hcandidate]
  unfold candidate key
  cases site.registry.key? fullName with
  | none => exact lockstep_throw
  | some key => exact lockstep_pure rfl

/-- Naming a declaration like a type is in lockstep. -/
theorem lockstep_typeId : Lockstep suffix ledger (site.typeId fullName)
    ((site.withSuffix suffix).typeId fullName) Eq := by
  unfold typeId
  apply lockstep_get_bind
  have hsame : (ledger.withSuffix suffix).typeIds = ledger.typeIds := rfl
  rw [hsame]
  cases ledger.typeIds.lookup fullName with
  | some id => exact lockstep_pure rfl
  | none =>
      apply lockstep_bind (lockstep_candidate .type)
      rintro wanted _ _ rfl
      apply lockstep_bind (lockstep_claim fullName wanted)
      rintro id _ _ rfl
      apply lockstep_modify_bind rfl rfl
      exact lockstep_pure rfl

/-- Naming a declaration like a value is in lockstep. -/
theorem lockstep_valueId : Lockstep suffix ledger (site.valueId fullName)
    ((site.withSuffix suffix).valueId fullName) Eq := by
  unfold valueId
  apply lockstep_get_bind
  have hsame : (ledger.withSuffix suffix).valueIds = ledger.valueIds := rfl
  rw [hsame]
  cases ledger.valueIds.lookup fullName with
  | some id => exact lockstep_pure rfl
  | none =>
      apply lockstep_bind (lockstep_candidate .value)
      rintro wanted _ _ rfl
      apply lockstep_bind (lockstep_claim fullName wanted)
      rintro id _ _ rfl
      apply lockstep_modify_bind rfl rfl
      exact lockstep_pure rfl

/-- Binding a declared type is in lockstep. -/
theorem lockstep_binding : Lockstep suffix ledger (site.binding fullName)
    ((site.withSuffix suffix).binding fullName) Eq := by
  unfold binding
  apply lockstep_get_bind
  have hsame : (ledger.withSuffix suffix).bindings = ledger.bindings := rfl
  rw [hsame]
  cases ledger.bindings.lookup fullName with
  | some binding => exact lockstep_pure rfl
  | none =>
      apply lockstep_bind lockstep_typeId
      rintro id _ _ rfl
      apply lockstep_bind (lockstep_claim fullName (zeroName id))
      rintro zero _ _ rfl
      apply lockstep_bind (lockstep_candidate .value)
      rintro stem _ _ rfl
      apply lockstep_bind (lockstep_claim fullName (decoderName stem))
      rintro decoder _ _ rfl
      apply lockstep_bind (lockstep_claim fullName (encoderName stem))
      rintro encoder _ _ rfl
      apply lockstep_bind (lockstep_claim fullName (fuzzerName stem))
      rintro fuzzer _ _ rfl
      apply lockstep_modify_bind rfl rfl
      exact lockstep_pure rfl

/-- Binding a reference to a declared type is in lockstep. -/
theorem lockstep_reference {reference : Reference}
    (hregistered : site.registry.isRegistered reference.fullName = true) :
    Lockstep suffix ledger (site.reference reference)
      ((site.withSuffix suffix).reference reference) Eq := by
  have hregistered' : (site.withSuffix suffix).registry.isRegistered reference.fullName = true :=
    hregistered
  unfold Site.reference
  rw [if_pos hregistered, if_pos hregistered']
  exact lockstep_binding

end Site

end ElmBinding
