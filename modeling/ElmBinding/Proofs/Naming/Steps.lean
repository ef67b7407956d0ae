import ElmBinding.Proofs.Name.FreeNames
import ElmBinding.Proofs.Naming.Ledgers
import Mathlib.Data.List.Forall2

/-!
# What naming steps ensure

A naming step takes a sound ledger to a sound ledger that extends it, whether it succeeds or
fails.  On top of that it promises something of its result in the ledger that it ends in,
and it fails only with errors of a class.  Promises of one step hand on to the next, and a
promise that outlives the growth of ledgers may be made for every item of a list.

Which errors a claim can end in depends on whether the declaration can be named at all: a
breach comes up only if it cannot, a collision only without a suffix.

Main results:

- Definition {lit}`Ensures`: what a step promises from a ledger.
- Theorems {lit}`ensures_bind` and {lit}`ensures_mapM`: promises of steps one after another.
- Theorems {lit}`Site.typeId_ensures`, {lit}`Site.valueId_ensures` and
  {lit}`Site.binding_ensures`: what is given out is written into the ledger.
-/

namespace ElmBinding

open Name

variable {settings : Settings} {ledger : Ledger} {fail : BindingError → Prop} {α β : Type}

/--
From a ledger, a step reaches another one, with a result that has a property there or with
an error of a class.
-/
def Ensures (settings : Settings) (step : Naming α) (ledger : Ledger)
    (post : α → Ledger → Prop) (fail : BindingError → Prop) : Prop :=
  match step.run ledger with
  | .ok a after => ledger.Reaches settings after ∧ post a after
  | .error error after => ledger.Reaches settings after ∧ fail error

/-! ## Steps one after another -/

/-- A result without a step. -/
theorem ensures_pure {post : α → Ledger → Prop} {a : α} (hsound : ledger.Sound settings)
    (hpost : post a ledger) : Ensures settings (pure a) ledger post fail :=
  ⟨hsound.reaches, hpost⟩

/-- An error without a step. -/
theorem ensures_throw {post : α → Ledger → Prop} {error : BindingError}
    (hsound : ledger.Sound settings) (hfail : fail error) :
    Ensures settings (throw error) ledger post fail :=
  ⟨hsound.reaches, hfail⟩

/-- What a step promises is there for the next one. -/
theorem ensures_bind {step : Naming α} {next : α → Naming β} {mid : α → Ledger → Prop}
    {post : β → Ledger → Prop} (hstep : Ensures settings step ledger mid fail)
    (hnext : ∀ a after, ledger.Reaches settings after → mid a after →
      Ensures settings (next a) after post fail) :
    Ensures settings (step >>= next) ledger post fail := by
  unfold Ensures at hstep ⊢
  rw [EStateM.run_bind]
  cases hrun : step.run ledger with
  | error error after =>
      rw [hrun] at hstep
      exact hstep
  | ok a after =>
      rw [hrun] at hstep
      have hrest := hnext a after hstep.1 hstep.2
      unfold Ensures at hrest
      cases hrunNext : (next a).run after with
      | ok b final =>
          rw [hrunNext] at hrest
          simp only [hrunNext]
          exact ⟨hstep.1.trans hrest.1, hrest.2⟩
      | error error final =>
          rw [hrunNext] at hrest
          simp only [hrunNext]
          exact ⟨hstep.1.trans hrest.1, hrest.2⟩

/-- Reading the ledger changes nothing. -/
theorem ensures_get_bind {next : Ledger → Naming β} {post : β → Ledger → Prop}
    (hnext : Ensures settings (next ledger) ledger post fail) :
    Ensures settings (get >>= next) ledger post fail :=
  hnext

/-- Writing into the ledger reaches what is written. -/
theorem ensures_modify_bind {change : Ledger → Ledger} {next : PUnit → Naming β}
    {post : β → Ledger → Prop} (hchange : ledger.Reaches settings (change ledger))
    (hnext : Ensures settings (next ⟨⟩) (change ledger) post fail) :
    Ensures settings (modify change >>= next) ledger post fail := by
  have hstep : Ensures settings (modify change) ledger (fun _ after => after = change ledger)
      fail := ⟨hchange, rfl⟩
  apply ensures_bind hstep
  rintro _ _ _ rfl
  exact hnext

/-- A weaker promise. -/
theorem Ensures.mono {step : Naming α} {post post' : α → Ledger → Prop}
    (hstep : Ensures settings step ledger post fail)
    (hpost : ∀ a after, ledger.Reaches settings after → post a after → post' a after) :
    Ensures settings step ledger post' fail := by
  unfold Ensures at hstep ⊢
  cases hrun : step.run ledger with
  | ok a after =>
      rw [hrun] at hstep
      exact ⟨hstep.1, hpost a after hstep.1 hstep.2⟩
  | error error after =>
      rw [hrun] at hstep
      exact hstep

/-- A promise of the step for one item holds for the items of a list if it outlives growth. -/
theorem ensures_mapM {step : α → Naming β} {post : α → β → Ledger → Prop} {items : List α}
    (hstep : ∀ a ∈ items, ∀ ledger, ledger.Sound settings →
      Ensures settings (step a) ledger (post a) fail)
    (hstable : ∀ {a b ledger after}, ledger.Extends after → post a b ledger → post a b after)
    (hsound : ledger.Sound settings) :
    Ensures settings (items.mapM step) ledger
      (fun results after => List.Forall₂ (fun a b => post a b after) items results) fail := by
  induction items generalizing ledger with
  | nil =>
      rw [List.mapM_nil]
      exact ensures_pure hsound List.Forall₂.nil
  | cons a rest ih =>
      rw [List.mapM_cons]
      rcases List.forall_mem_cons.mp hstep with ⟨hfirst, hrest⟩
      apply ensures_bind (hfirst ledger hsound)
      intro b middle hmiddle hb
      apply ensures_bind (ih hrest hmiddle.sound)
      intro bs after hafter hbs
      exact ensures_pure hafter.sound (List.Forall₂.cons (hstable hafter.ext hb) hbs)

/-! ## Claims -/

/--
A class of errors that holds every breach unless the circumstances are sane, and every
collision of a declaration unless there is a suffix.
-/
structure Covers (settings : Settings) (fail : BindingError → Prop) (fullName : String)
    (sane : Prop) : Prop where
  breach : ¬sane → ∀ broken, fail (.breach broken)
  collision : settings.collisionSuffix = "" → ∀ candidate, fail (.collision fullName candidate)

/-- A class that covers a declaration has the errors of its refused claims. -/
theorem Covers.refusal {sane : Prop} {fullName candidate : String} {space : Namespace}
    {refused : Refusal} (hcovers : Covers settings fail fullName sane)
    (hsane : sane → isIdentifier candidate = true ∧ isFragment settings.collisionSuffix = true)
    (hsuffix : space.suffix = settings.collisionSuffix)
    (hrefused : space.claim candidate = .error refused) :
    fail (ElmBinding.refusal fullName refused) := by
  rcases Namespace.refused_of_claim hrefused with ⟨rfl, hempty⟩ | ⟨⟨id, rfl⟩, hillegal⟩
  · rw [hsuffix] at hempty
    exact hcovers.collision hempty candidate
  · rw [hsuffix] at hillegal
    exact hcovers.breach (fun h => hillegal (hsane h)) (.illegalIdentifier id)

/-- A claim takes a legal identifier that was free. -/
theorem claim_ensures {sane : Prop} {fullName candidate : String}
    (hsound : ledger.Sound settings) (hcovers : Covers settings fail fullName sane)
    (hsane : sane → isIdentifier candidate = true ∧ isFragment settings.collisionSuffix = true) :
    Ensures settings (claim fullName candidate) ledger
      (fun id after => after = ledger.take id ∧ isIdentifier id = true ∧
        id ∉ ledger.taken.claimed) fail := by
  cases hclaim : ledger.taken.claim candidate with
  | error refused =>
      have hrun : (claim fullName candidate).run ledger =
          .error (ElmBinding.refusal fullName refused) ledger := by
        simp [claim, EStateM.run, hclaim]
      rw [Ensures, hrun]
      exact ⟨hsound.reaches, hcovers.refusal hsane hsound.suffix_eq hclaim⟩
  | ok claimed =>
      rcases claimed with ⟨id, taken⟩
      rcases Namespace.eq_insert_of_claim hclaim with ⟨hlegal, hfree, htaken⟩
      have hrun : (claim fullName candidate).run ledger = .ok id (ledger.take id) := by
        simp [claim, EStateM.run, hclaim, htaken, Ledger.take]
      rw [Ensures, hrun]
      exact ⟨hsound.reaches_take id, rfl, hlegal, hfree⟩

/-- The zero value of a type with a legal name has a legal name. -/
theorem isIdentifier_zeroName {id : String} (hid : isIdentifier id = true) :
    isIdentifier (zeroName id) = true := by
  unfold zeroName
  exact isIdentifier_append (by decide) (isFragment_of_isIdentifier hid)

namespace Site

variable {site : Site} {fullName : String}

/-- A declaration whose key makes legal identifiers, at a site with a legal suffix. -/
def CanName (site : Site) (fullName : String) : Prop :=
  isFragment site.settings.collisionSuffix = true ∧
    ∃ key, site.registry.key? fullName = some key ∧
      ∀ role, isIdentifier (casing role site.settings.separator key) = true

/-- A class of errors that holds those of naming a declaration. -/
def CoversName (site : Site) (fail : BindingError → Prop) (fullName : String) : Prop :=
  Covers site.settings fail fullName (site.CanName fullName)

/-- A step behind the candidate of a declaration, which is legal if it can be named. -/
theorem candidate_bind_ensures {role : Role} {next : String → Naming β}
    {post : β → Ledger → Prop} (hsound : ledger.Sound site.settings)
    (hcovers : site.CoversName fail fullName)
    (hnext : ∀ candidate, (site.CanName fullName → isIdentifier candidate = true) →
      Ensures site.settings (next candidate) ledger post fail) :
    Ensures site.settings (site.candidate role fullName >>= next) ledger post fail := by
  cases hkey : site.registry.key? fullName with
  | none =>
      have hthrow : site.candidate role fullName =
          throw (.breach (.unregisteredName fullName)) := by
        rw [candidate, key, hkey]
        rfl
      have hunnamed : ¬site.CanName fullName := by
        rintro ⟨-, key, hsome, -⟩
        rw [hkey] at hsome
        contradiction
      rw [hthrow]
      exact ensures_throw hsound (hcovers.breach hunnamed _)
  | some key =>
      have hpure : site.candidate role fullName =
          pure (casing role site.settings.separator key) := by
        rw [candidate, Site.key, hkey]
        rfl
      rw [hpure, pure_bind]
      apply hnext
      rintro ⟨-, key', hsome, hlegal⟩
      rw [hkey, Option.some.injEq] at hsome
      subst hsome
      exact hlegal role

/-- A type name is written into the ledger, unless it stands there already. -/
theorem typeId_ensures (hsound : ledger.Sound site.settings)
    (hcovers : site.CoversName fail fullName) :
    Ensures site.settings (site.typeId fullName) ledger
      (fun id after => after.typeIds.lookup fullName = some id ∧
        after.bindings = ledger.bindings) fail := by
  unfold typeId
  apply ensures_get_bind
  cases hlookup : ledger.typeIds.lookup fullName with
  | some id => exact ensures_pure hsound ⟨hlookup, rfl⟩
  | none =>
      apply candidate_bind_ensures hsound hcovers
      intro candidate hcandidate
      apply ensures_bind (claim_ensures hsound hcovers fun hname => ⟨hcandidate hname, hname.1⟩)
      rintro id _ hreached ⟨rfl, hlegal, hfree⟩
      have hgiven := hreached.sound.reaches_giveType hlookup (hsound.spare_take hlegal hfree)
      apply ensures_modify_bind hgiven
      apply ensures_pure hgiven.sound
      exact ⟨by simp [Ledger.giveType], rfl⟩

/-- A value name is written into the ledger, unless it stands there already. -/
theorem valueId_ensures (hsound : ledger.Sound site.settings)
    (hcovers : site.CoversName fail fullName) :
    Ensures site.settings (site.valueId fullName) ledger
      (fun id after => after.valueIds.lookup fullName = some id) fail := by
  unfold valueId
  apply ensures_get_bind
  cases hlookup : ledger.valueIds.lookup fullName with
  | some id => exact ensures_pure hsound hlookup
  | none =>
      apply candidate_bind_ensures hsound hcovers
      intro candidate hcandidate
      apply ensures_bind (claim_ensures hsound hcovers fun hname => ⟨hcandidate hname, hname.1⟩)
      rintro id _ hreached ⟨rfl, hlegal, hfree⟩
      have hgiven := hreached.sound.reaches_giveValue hlookup (hsound.spare_take hlegal hfree)
      apply ensures_modify_bind hgiven
      apply ensures_pure hgiven.sound
      simp [Ledger.giveValue]

/-- A binding is written into the ledger, unless it stands there already. -/
theorem binding_ensures (hsound : ledger.Sound site.settings)
    (hcovers : site.CoversName fail fullName) :
    Ensures site.settings (site.binding fullName) ledger
      (fun binding after => after.bindings.lookup fullName = some binding) fail := by
  unfold binding
  apply ensures_get_bind
  cases hlookup : ledger.bindings.lookup fullName with
  | some binding => exact ensures_pure hsound hlookup
  | none =>
      apply ensures_bind (typeId_ensures hsound hcovers)
      rintro id typed htyped ⟨htype, hbindings⟩
      have hid : isIdentifier id = true := htyped.sound.legal_of_typeId htype
      apply ensures_bind (claim_ensures htyped.sound hcovers fun hname =>
        ⟨isIdentifier_zeroName hid, hname.1⟩)
      rintro zero _ hzero ⟨rfl, hlegalZero, hfreeZero⟩
      apply candidate_bind_ensures hzero.sound hcovers
      intro stem hstem
      apply ensures_bind (claim_ensures hzero.sound hcovers fun hname =>
        ⟨isIdentifier_append (hstem hname) (by decide), hname.1⟩)
      rintro decoder _ hdecoder ⟨rfl, hlegalDecoder, hfreeDecoder⟩
      apply ensures_bind (claim_ensures hdecoder.sound hcovers fun hname =>
        ⟨isIdentifier_append (hstem hname) (by decide), hname.1⟩)
      rintro encoder _ hencoder ⟨rfl, hlegalEncoder, hfreeEncoder⟩
      apply ensures_bind (claim_ensures hencoder.sound hcovers fun hname =>
        ⟨isIdentifier_append (hstem hname) (by decide), hname.1⟩)
      rintro fuzzer _ hfuzzer ⟨rfl, hlegalFuzzer, hfreeFuzzer⟩
      -- Each of the four was claimed while those before it were taken.
      have hspare : ∀ name ∈ [zero, decoder, encoder, fuzzer],
          ((((typed.take zero).take decoder).take encoder).take fuzzer).Spare name := by
        intro name hname
        simp only [List.mem_cons, List.not_mem_nil, or_false] at hname
        rcases hname with rfl | rfl | rfl | rfl
        · exact (((htyped.sound.spare_take hlegalZero hfreeZero).take _).take _).take _
        · exact ((hzero.sound.spare_take hlegalDecoder hfreeDecoder).take _).take _
        · exact (hdecoder.sound.spare_take hlegalEncoder hfreeEncoder).take _
        · exact hencoder.sound.spare_take hlegalFuzzer hfreeFuzzer
      have hdistinct : [zero, decoder, encoder, fuzzer].Nodup := by
        simp only [Ledger.claimed_take, List.mem_cons, not_or]
          at hfreeDecoder hfreeEncoder hfreeFuzzer
        simp only [List.nodup_cons, List.mem_cons, List.not_mem_nil, or_false, not_or,
          not_false_eq_true, List.nodup_nil, and_true]
        exact ⟨⟨Ne.symm hfreeDecoder.1, Ne.symm hfreeEncoder.2.1, Ne.symm hfreeFuzzer.2.2.1⟩,
          ⟨Ne.symm hfreeEncoder.1, Ne.symm hfreeFuzzer.2.1⟩, Ne.symm hfreeFuzzer.1⟩
      have hnone : typed.bindings.lookup fullName = none := by
        rw [hbindings]
        exact hlookup
      have hgiven := hfuzzer.sound.reaches_giveBinding ⟨none, id, zero, decoder, encoder, fuzzer⟩
        hnone htype rfl hspare hdistinct
      apply ensures_modify_bind hgiven
      apply ensures_pure hgiven.sound
      simp [Ledger.giveBinding]

/-- The binding that a reference means, given what the ledger has given out. -/
def Means (site : Site) (ledger : Ledger) (reference : Reference) (binding : Binding) : Prop :=
  if site.registry.isRegistered reference.fullName then
    ledger.bindings.lookup reference.fullName = some binding
  else
    binding = foreignBinding site.settings site.module reference

/-- What a reference means, it means in every extension of the ledger. -/
theorem Means.extend {after : Ledger} {reference : Reference} {binding : Binding}
    (hextends : ledger.Extends after) (h : site.Means ledger reference binding) :
    site.Means after reference binding := by
  unfold Means at h ⊢
  split
  · rename_i hregistered
    rw [if_pos hregistered] at h
    exact hextends.binding? h
  · rename_i hforeign
    rw [if_neg hforeign] at h
    exact h

/-- A reference to a declared type is bound there, any other by its name alone. -/
theorem reference_ensures {reference : Reference} (hsound : ledger.Sound site.settings)
    (hcovers : site.registry.isRegistered reference.fullName = true →
      site.CoversName fail reference.fullName) :
    Ensures site.settings (site.reference reference) ledger
      (fun binding after => site.Means after reference binding) fail := by
  unfold Site.reference
  split
  · rename_i hregistered
    apply (binding_ensures hsound (hcovers hregistered)).mono
    intro binding after _ hbinding
    rw [Means, if_pos hregistered]
    exact hbinding
  · rename_i hforeign
    apply ensures_pure hsound
    rw [Means, if_neg hforeign]

end Site

end ElmBinding
