import ElmBinding.Proofs.Name.Capitals
import ElmBinding.Proofs.Naming.Chronicles
import ElmBinding.Proofs.Naming.Suffixes
import Mathlib.Data.List.Induction

/-!
# Names that can be foretold

A claim takes the first free name among a candidate and its suffixed forms.  If all names that
it finds taken on the way are reserved words, then at most the candidate is, and the name does
not depend on what else has been given out.  So the names of a declaration can be foretold from
its key, after any calls, as long as nothing but reserved words was in their way.

Main results:

- Theorem {lit}`Namespace.eq_of_claim`: what a claim takes if only reserved words are in the way.
- Definition {lit}`Predictable`: the invariant of chronicles.
- Definition {lit}`Foretells`: what a recorded step promises from a chronicle.
- Theorem {lit}`Site.foretells_binding`: the binding of a declared type can be foretold.
- Theorem {lit}`Site.predictable_chronicleAfter`: chronicles are predictable after any calls.
-/

namespace ElmBinding

open Name

variable {α β : Type}

/-! ## Claims among reserved words -/

/-- A suffix is in use only if there is one. -/
theorem Name.Namespace.suffix_ne_of_settledCount? {space : Namespace} {candidate : String}
    {count : Nat} (h : space.settledCount? candidate = some (count + 1)) : space.suffix ≠ "" := by
  intro hempty
  rcases List.find?_range_eq_some.mp h with ⟨hfound, -, hpassed⟩
  have hfirst := hpassed 0 (Nat.succ_pos count)
  rw [suffixed_of_empty hempty] at hfound hfirst
  rw [hfound] at hfirst
  contradiction

/--
If a claim finds only reserved words taken, it takes its candidate, with one suffix if the
candidate itself is reserved, provided that such a suffix leads away from reserved words.
-/
theorem Name.Namespace.eq_of_claim {space after : Namespace} {candidate id : String}
    (htaken : ∀ word ∈ reservedWords, word ∈ space.claimed)
    (haway : isReserved candidate = true → space.suffix ≠ "" →
      isReserved (candidate ++ space.suffix) = false)
    (hclashes : ∀ other ∈ space.clashes candidate, isReserved other = true)
    (h : space.claim candidate = .ok (id, after)) :
    id = if isReserved candidate then candidate ++ space.suffix else candidate := by
  have hfree := (eq_insert_of_claim h).2.1
  unfold claim at h
  unfold clashes at hclashes
  cases hcount : space.settledCount? candidate with
  | none => simp [hcount] at h
  | some count =>
      simp only [hcount] at h hclashes
      have hid : id = space.suffixed candidate count := by
        split at h
        · exact (Prod.mk.inj (Except.ok.inj h)).1.symm
        · contradiction
      have htried : ∀ tried < count, isReserved (space.suffixed candidate tried) = true :=
        fun tried hless => hclashes _ (List.mem_map_of_mem (List.mem_range.mpr hless))
      match count, hcount, hid, htried with
      | 0, _, hid, _ =>
          have hunreserved : isReserved candidate = false := by
            rw [Bool.eq_false_iff]
            intro hreserved
            rw [hid] at hfree
            exact hfree (htaken candidate (List.contains_iff_mem.mp hreserved))
          rw [hid, hunreserved]
          rfl
      | 1, _, hid, htried =>
          have hreserved : isReserved candidate = true := htried 0 Nat.zero_lt_one
          rw [hid, hreserved]
          rfl
      | count + 2, hcount, _, htried =>
          -- The second name tried would be reserved like the first.
          have hreserved : isReserved candidate = true := htried 0 (by omega)
          have hsecond : isReserved (candidate ++ space.suffix) = true := htried 1 (by omega)
          rw [haway hreserved (suffix_ne_of_settledCount? hcount)] at hsecond
          contradiction

/-! ## Predictable chronicles -/

namespace Site

/-- The type name of a declaration if nothing but reserved words is in its way. -/
def unreservedId? (site : Site) (fullName : String) : Option String :=
  (site.registry.key? fullName).map (unreservedId site.settings)

/-- The binding of a declared type if nothing but reserved words is in its way. -/
def unreservedBinding? (site : Site) (fullName : String) : Option Binding :=
  (site.registry.key? fullName).map fun key =>
    bindingOf none (unreservedId site.settings key) (casing .value site.settings.separator key)

/-- A site whose keys are plain. -/
def HasPlainKeys (site : Site) : Prop :=
  ∀ {fullName key}, site.registry.key? fullName = some key → isPlain key = true

end Site

namespace Chronicle

/-- All that was found taken on behalf of a declaration is reserved. -/
def OnlyReserved (chronicle : Chronicle) (fullName : String) : Prop :=
  ∀ clash ∈ chronicle.clashes, clash.fullName = fullName → isReserved clash.id = true

/-- If all that was found taken is reserved, so is all that had been found taken before. -/
theorem OnlyReserved.of_subset {chronicle after : Chronicle} {fullName : String}
    (hkept : chronicle.clashes ⊆ after.clashes) (h : after.OnlyReserved fullName) :
    chronicle.OnlyReserved fullName :=
  fun clash hclash => h clash (hkept hclash)

end Chronicle

/--
A chronicle in which the names of each declaration can be foretold from its key, if all that
was found taken on its behalf is reserved.
-/
structure Predictable (site : Site) (chronicle : Chronicle) : Prop where
  suffix_eq : chronicle.taken.suffix = site.settings.collisionSuffix
  reserved_taken : ∀ word ∈ reservedWords, word ∈ chronicle.taken.claimed
  typeId : ∀ {fullName id}, chronicle.typeIds.lookup fullName = some id →
    chronicle.OnlyReserved fullName → site.unreservedId? fullName = some id
  binding : ∀ {fullName binding}, chronicle.bindings.lookup fullName = some binding →
    chronicle.OnlyReserved fullName → site.unreservedBinding? fullName = some binding

/-- A predictable chronicle that keeps the clashes of another one. -/
structure Continues (site : Site) (chronicle after : Chronicle) : Prop where
  predictable : Predictable site after
  kept : chronicle.clashes ⊆ after.clashes

variable {site : Site} {chronicle after : Chronicle} {fullName : String}

/-- A predictable chronicle continues itself. -/
theorem Predictable.continues (h : Predictable site chronicle) :
    Continues site chronicle chronicle :=
  ⟨h, List.Subset.refl _⟩

/-- What continues a continuation continues what was before it. -/
theorem Continues.trans {final : Chronicle} (hfirst : Continues site chronicle after)
    (hsecond : Continues site after final) : Continues site chronicle final :=
  ⟨hsecond.predictable, List.Subset.trans hfirst.kept hsecond.kept⟩

/-- The chronicle before any call is predictable. -/
theorem predictable_blank (site : Site) :
    Predictable site { toLedger := .blank site.settings } where
  suffix_eq := rfl
  reserved_taken _ hword := hword
  typeId h := by simp [Ledger.blank] at h
  binding h := by simp [Ledger.blank] at h

/-- More clashes and more taken identifiers leave a chronicle predictable. -/
theorem Predictable.widen (h : Predictable site chronicle) {taken : Namespace}
    (clashes : List Clash) (hsuffix : taken.suffix = chronicle.taken.suffix)
    (htaken : chronicle.taken.claimed ⊆ taken.claimed) :
    Continues site chronicle
      ⟨{ chronicle.toLedger with taken }, clashes ++ chronicle.clashes⟩ := by
  have hkept := List.subset_append_right clashes chronicle.clashes
  exact {
    predictable := {
      suffix_eq := hsuffix.trans h.suffix_eq
      reserved_taken := fun word hword => htaken (h.reserved_taken word hword)
      typeId := fun hlookup honly => h.typeId hlookup (honly.of_subset hkept)
      binding := fun hlookup honly => h.binding hlookup (honly.of_subset hkept) }
    kept := hkept }

/-- A type name that could be foretold leaves a chronicle predictable. -/
theorem Predictable.giveType (h : Predictable site chronicle) {id : String}
    (hid : chronicle.OnlyReserved fullName → site.unreservedId? fullName = some id) :
    Continues site chronicle { chronicle with typeIds := (fullName, id) :: chronicle.typeIds } where
  predictable := { h with
    typeId := by
      intro name given hlookup honly
      rcases Ledger.eq_or_lookup_of_given hlookup with ⟨rfl, rfl⟩ | hlookup
      · exact hid honly
      · exact h.typeId hlookup honly }
  kept := List.Subset.refl _

/-- A value name leaves a chronicle predictable. -/
theorem Predictable.giveValue (h : Predictable site chronicle) (id : String) :
    Continues site chronicle
      { chronicle with valueIds := (fullName, id) :: chronicle.valueIds } where
  predictable := { h with }
  kept := List.Subset.refl _

/-- A binding that could be foretold leaves a chronicle predictable. -/
theorem Predictable.giveBinding (h : Predictable site chronicle) {binding : Binding}
    (hbinding : chronicle.OnlyReserved fullName →
      site.unreservedBinding? fullName = some binding) :
    Continues site chronicle
      { chronicle with bindings := (fullName, binding) :: chronicle.bindings } where
  predictable := { h with
    binding := by
      intro name given hlookup honly
      rcases Ledger.eq_or_lookup_of_given hlookup with ⟨rfl, rfl⟩ | hlookup
      · exact hbinding honly
      · exact h.binding hlookup honly }
  kept := List.Subset.refl _

/-! ## Steps on predictable chronicles -/

/--
From a chronicle, a recorded step leads to a predictable one, whether it succeeds or fails, and
what it finds taken is kept.  A result has a property there.
-/
def Foretells (site : Site) (step : Recorded α) (chronicle : Chronicle)
    (post : α → Chronicle → Prop) : Prop :=
  match step.run chronicle with
  | .ok a after => Continues site chronicle after ∧ post a after
  | .error _ after => Continues site chronicle after

/-- A result without a step. -/
theorem foretells_pure {post : α → Chronicle → Prop} {a : α}
    (h : Predictable site chronicle) (hpost : post a chronicle) :
    Foretells site (pure a) chronicle post :=
  ⟨h.continues, hpost⟩

/-- What a step foretells is there for the next one. -/
theorem foretells_bind {step : Recorded α} {next : α → Recorded β}
    {mid : α → Chronicle → Prop} {post : β → Chronicle → Prop}
    (hstep : Foretells site step chronicle mid)
    (hnext : ∀ a after, Continues site chronicle after → mid a after →
      Foretells site (next a) after post) :
    Foretells site (step >>= next) chronicle post := by
  unfold Foretells at hstep ⊢
  rw [EStateM.run_bind]
  cases hrun : step.run chronicle with
  | error error after =>
      rw [hrun] at hstep
      exact hstep
  | ok a after =>
      rw [hrun] at hstep
      have hrest := hnext a after hstep.1 hstep.2
      unfold Foretells at hrest
      cases hrunNext : (next a).run after with
      | ok b final =>
          rw [hrunNext] at hrest
          simp only [hrunNext]
          exact ⟨hstep.1.trans hrest.1, hrest.2⟩
      | error error final =>
          rw [hrunNext] at hrest
          simp only [hrunNext]
          exact hstep.1.trans hrest

/-- A weaker property of results. -/
theorem Foretells.mono {step : Recorded α} {post post' : α → Chronicle → Prop}
    (hstep : Foretells site step chronicle post)
    (hpost : ∀ a after, post a after → post' a after) :
    Foretells site step chronicle post' := by
  unfold Foretells at hstep ⊢
  cases hrun : step.run chronicle with
  | ok a after =>
      rw [hrun] at hstep
      exact ⟨hstep.1, hpost a after hstep.2⟩
  | error error after =>
      rw [hrun] at hstep
      exact hstep

/-- Reading the chronicle changes nothing. -/
theorem foretells_get_bind {next : Chronicle → Recorded β} {post : β → Chronicle → Prop}
    (hnext : Foretells site (next chronicle) chronicle post) :
    Foretells site (get >>= next) chronicle post :=
  hnext

/-- Writing into the ledger leads to what is written. -/
theorem foretells_modify {change : Ledger → Ledger}
    (hchange : Continues site chronicle { chronicle with toLedger := change chronicle.toLedger }) :
    Foretells site (Recorded.quietly (modify change)) chronicle
      (fun _ after => after = { chronicle with toLedger := change chronicle.toLedger }) :=
  ⟨hchange, rfl⟩

/-- The candidate of a declaration is made of its key. -/
theorem foretells_candidate (h : Predictable site chronicle) (role : Role) :
    Foretells site (Recorded.quietly (site.candidate role fullName)) chronicle
      (fun candidate _ => ∃ key, site.registry.key? fullName = some key ∧
        candidate = casing role site.settings.separator key) := by
  cases hkey : site.registry.key? fullName with
  | none =>
      have hthrow : site.candidate role fullName =
          throw (.breach (.unregisteredName fullName)) := by
        rw [Site.candidate, Site.key, hkey]
        rfl
      rw [hthrow]
      exact h.continues
  | some key =>
      have hpure : site.candidate role fullName =
          pure (casing role site.settings.separator key) := by
        rw [Site.candidate, Site.key, hkey]
        rfl
      rw [hpure]
      exact ⟨h.continues, key, rfl, rfl⟩

/-- A suffix leads away from reserved words where a candidate is one of them. -/
def LeadsAway (suffix candidate : String) : Prop :=
  isReserved candidate = true → suffix ≠ "" → isReserved (candidate ++ suffix) = false

/-- The identifier that a claim takes, if all that it finds taken is reserved. -/
theorem foretells_claim (h : Predictable site chronicle) (candidate : String) :
    Foretells site (Recorded.claim fullName candidate) chronicle
      (fun id after => after.OnlyReserved fullName →
        LeadsAway site.settings.collisionSuffix candidate →
          id = if isReserved candidate then candidate ++ site.settings.collisionSuffix
            else candidate) := by
  let found := (chronicle.taken.clashes candidate).map (Clash.mk fullName)
  cases hclaim : chronicle.taken.claim candidate with
  | error refused =>
      have hrun : (Recorded.claim fullName candidate).run chronicle =
          .error (refusal fullName refused)
            ⟨chronicle.toLedger, found ++ chronicle.clashes⟩ := by
        simp [Recorded.claim, Recorded.record, claim, EStateM.run, hclaim, found]
      rw [Foretells, hrun]
      exact h.widen found rfl (List.Subset.refl _)
  | ok claimed =>
      rcases claimed with ⟨id, taken⟩
      have htaken := (Namespace.eq_insert_of_claim hclaim).2.2
      have hrun : (Recorded.claim fullName candidate).run chronicle =
          .ok id ⟨{ chronicle.toLedger with taken }, found ++ chronicle.clashes⟩ := by
        simp [Recorded.claim, Recorded.record, claim, EStateM.run, hclaim, found]
      rw [Foretells, hrun]
      refine ⟨h.widen found ?_ ?_, ?_⟩
      · rw [htaken, Namespace.suffix_insert]
      · rw [htaken, Namespace.claimed_insert]
        exact List.subset_cons_self _ _
      · intro honly haway
        rw [← h.suffix_eq] at haway ⊢
        apply Namespace.eq_of_claim h.reserved_taken haway ?_ hclaim
        intro other hother
        have hfound : Clash.mk fullName other ∈ found := List.mem_map_of_mem hother
        exact honly _ (List.mem_append_left _ hfound) rfl

/-- A claim of what is not reserved takes it, if all that it finds taken is reserved. -/
theorem foretells_claim_unreserved (h : Predictable site chronicle) {candidate : String}
    (hcandidate : isReserved candidate = false) :
    Foretells site (Recorded.claim fullName candidate) chronicle
      (fun id after => after.OnlyReserved fullName → id = candidate) := by
  apply (foretells_claim h candidate).mono
  intro id after hid honly
  rw [hid honly (by simp [LeadsAway, hcandidate]), hcandidate]
  rfl

namespace Site

/-- The type name of a declaration can be foretold. -/
theorem foretells_typeId (hplain : site.HasPlainKeys) (h : Predictable site chronicle) :
    Foretells site (Recorded.typeId site fullName) chronicle
      (fun id after => after.OnlyReserved fullName →
        site.unreservedId? fullName = some id) := by
  unfold Recorded.typeId
  apply foretells_get_bind
  cases hlookup : chronicle.typeIds.lookup fullName with
  | some id => exact foretells_pure h (h.typeId hlookup)
  | none =>
      apply foretells_bind (foretells_candidate h .type)
      rintro _ named hnamed ⟨key, hkey, rfl⟩
      have hcapital := isCapitalized_casing site.settings.separator (hplain hkey)
      apply foretells_bind (foretells_claim hnamed.predictable _)
      intro id claimed hclaimed hid
      have hforetold : claimed.OnlyReserved fullName →
          site.unreservedId? fullName = some id := by
        intro honly
        rw [unreservedId?, hkey, hid honly (isReserved_append hcapital)]
        rfl
      apply foretells_bind (foretells_modify (hclaimed.predictable.giveType hforetold))
      rintro _ given hgiven rfl
      exact foretells_pure hgiven.predictable hforetold

/-- Value names keep chronicles predictable. -/
theorem foretells_valueId (h : Predictable site chronicle) :
    Foretells site (Recorded.valueId site fullName) chronicle (fun _ _ => True) := by
  unfold Recorded.valueId
  apply foretells_get_bind
  cases chronicle.valueIds.lookup fullName with
  | some id => exact foretells_pure h trivial
  | none =>
      apply foretells_bind (foretells_candidate h .value)
      intro candidate named hnamed _
      apply foretells_bind (foretells_claim hnamed.predictable candidate)
      intro id claimed hclaimed _
      apply foretells_bind (foretells_modify (hclaimed.predictable.giveValue id))
      rintro _ given hgiven rfl
      exact foretells_pure hgiven.predictable trivial

/-- The binding of a declared type can be foretold. -/
theorem foretells_binding (hplain : site.HasPlainKeys) (h : Predictable site chronicle) :
    Foretells site (Recorded.binding site fullName) chronicle
      (fun binding after => after.OnlyReserved fullName →
        site.unreservedBinding? fullName = some binding) := by
  unfold Recorded.binding
  apply foretells_get_bind
  cases hlookup : chronicle.bindings.lookup fullName with
  | some binding => exact foretells_pure h (h.binding hlookup)
  | none =>
      apply foretells_bind (foretells_typeId hplain h)
      intro id typed htyped hid
      apply foretells_bind
        (foretells_claim_unreserved htyped.predictable (isReserved_zeroName id))
      intro zero emptied hemptied hzero
      apply foretells_bind (foretells_candidate hemptied.predictable .value)
      rintro _ stemmed hstemmed ⟨key, hkey, rfl⟩
      apply foretells_bind
        (foretells_claim_unreserved hstemmed.predictable (isReserved_decoderName _))
      intro decoder decoded hdecoded hdecoder
      apply foretells_bind
        (foretells_claim_unreserved hdecoded.predictable (isReserved_encoderName _))
      intro encoder encoded hencoded hencoder
      apply foretells_bind
        (foretells_claim_unreserved hencoded.predictable (isReserved_fuzzerName _))
      intro fuzzer fuzzed hfuzzed hfuzzer
      -- What is reserved in the end was so when each of the names was claimed.
      have hforetold : fuzzed.OnlyReserved fullName →
          site.unreservedBinding? fullName = some ⟨none, id, zero, decoder, encoder, fuzzer⟩ := by
        intro honly
        have hencodedOnly := honly.of_subset hfuzzed.kept
        have hdecodedOnly := hencodedOnly.of_subset hencoded.kept
        have hstemmedOnly := hdecodedOnly.of_subset hdecoded.kept
        have hemptiedOnly := hstemmedOnly.of_subset hstemmed.kept
        have htype := hid (hemptiedOnly.of_subset hemptied.kept)
        rw [unreservedId?, hkey] at htype
        rw [unreservedBinding?, hkey, hzero hemptiedOnly, hdecoder hdecodedOnly,
          hencoder hencodedOnly, hfuzzer honly, ← Option.some.inj htype]
        rfl
      apply foretells_bind (foretells_modify (hfuzzed.predictable.giveBinding hforetold))
      rintro _ given hgiven rfl
      exact foretells_pure hgiven.predictable hforetold

/-- References keep chronicles predictable. -/
theorem foretells_reference (hplain : site.HasPlainKeys) (h : Predictable site chronicle)
    (target : Reference) :
    Foretells site (Recorded.reference site target) chronicle (fun _ _ => True) := by
  unfold Recorded.reference
  split
  · exact (foretells_binding hplain h).mono fun _ _ _ => trivial
  · exact foretells_pure h trivial

/-! ## Calls on predictable chronicles -/

/-- A call leads from a predictable chronicle to a predictable one. -/
theorem predictable_answerRecorded (hplain : site.HasPlainKeys) (h : Predictable site chronicle)
    (call : Call) : Predictable site (site.answerRecorded chronicle call) := by
  have hstate : ∀ {α : Type} {step : Recorded α} {post : α → Chronicle → Prop},
      Foretells site step chronicle post → Predictable site (stateAfter step chronicle) := by
    intro α step post hstep
    unfold Foretells at hstep
    unfold stateAfter
    cases hrun : step.run chronicle with
    | ok a after =>
        rw [hrun] at hstep
        exact hstep.1.predictable
    | error error after =>
        rw [hrun] at hstep
        exact hstep.predictable
  cases call with
  | typeId fullName => exact hstate (foretells_typeId hplain h)
  | valueId fullName => exact hstate (foretells_valueId h)
  | binding fullName => exact hstate (foretells_binding hplain h)
  | reference target => exact hstate (foretells_reference hplain h target)

/-- After any calls the chronicle is predictable. -/
theorem predictable_chronicleAfter (hplain : site.HasPlainKeys) (calls : List Call) :
    Predictable site (site.chronicleAfter calls) := by
  induction calls using List.reverseRecOn with
  | nil => exact predictable_blank site
  | append_singleton calls call ih =>
      rw [chronicleAfter_concat]
      exact predictable_answerRecorded hplain ih call

/-- The binding that is given out after some calls, if only reserved words were in its way. -/
theorem unreservedBinding?_of_binding (hplain : site.HasPlainKeys) {calls : List Call}
    {binding : Binding} {ledger : Ledger}
    (hrun : (site.binding fullName).run (site.ledgerAfter calls) = .ok binding ledger)
    (hclashes : ∀ clash ∈ site.clashes (calls ++ [.binding fullName]),
      clash.fullName = fullName → isReserved clash.id = true) :
    site.unreservedBinding? fullName = some binding := by
  have hforetells : Foretells site (Recorded.binding site fullName) (site.chronicleAfter calls) _ :=
    foretells_binding hplain (predictable_chronicleAfter hplain calls)
  have herased := site.erases_binding fullName (site.chronicleAfter calls)
  rw [toLedger_chronicleAfter, hrun] at herased
  rw [clashes, chronicleAfter_concat] at hclashes
  simp only [answerRecorded, stateAfter] at hclashes
  unfold Foretells at hforetells
  cases hrecorded : (Recorded.binding site fullName).run (site.chronicleAfter calls) with
  | error error after => simp [hrecorded, forget] at herased
  | ok given after =>
      rw [hrecorded] at herased hforetells hclashes
      rcases EStateM.Result.ok.inj herased with ⟨rfl, -⟩
      exact hforetells.2 hclashes

end Site

end ElmBinding
