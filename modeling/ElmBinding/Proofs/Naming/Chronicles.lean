import ElmBinding.Naming.Ledger

/-!
# Chronicles of naming

A ledger tells which identifiers have been given out, and not which names were tried before
them.  A chronicle is a ledger together with the names that claims have found taken.  The
steps of naming are repeated here on chronicles, with the same results: leaving the clashes
out of a run on a chronicle gives the run on its ledger.

Main results:

- Definition {lit}`Namespace.clashes`: the names that a claim finds taken.
- Definition {lit}`Recorded`: steps of naming on chronicles.
- Definition {lit}`Site.ledgerAfter`: the ledger after any calls for names.
- Definition {lit}`Site.clashes`: the names that these calls find taken.
- Theorem {lit}`Site.toLedger_chronicleAfter`: the ledger in the chronicle of some calls.
-/

namespace ElmBinding

open Name

variable {α β : Type}

/-! ## Clashes -/

namespace Name.Namespace

/-- The names that a claim tries and finds taken, in order. -/
def clashes (space : Namespace) (candidate : String) : List String :=
  match space.settledCount? candidate with
  | some count => (List.range count).map (space.suffixed candidate)
  | none => [candidate]

end Name.Namespace

/-- A name that was found taken, and the declaration on whose behalf it was tried. -/
structure Clash where
  fullName : String
  id : String
deriving DecidableEq, Repr

/-- A ledger and the names that were found taken on the way to it, the last of them first. -/
structure Chronicle extends Ledger where
  clashes : List Clash := []
deriving DecidableEq, Repr

/-- Steps that read and extend the ledger of a chronicle and may fail. -/
abbrev Recorded := EStateM BindingError Chronicle

/-! ## Recorded steps -/

namespace Recorded

/-- A step of naming whose clashes are put on record, whether it succeeds or fails. -/
def record (clashes : Ledger → List Clash) (step : Naming α) : Recorded α := fun chronicle =>
  let recorded := clashes chronicle.toLedger ++ chronicle.clashes
  match step.run chronicle.toLedger with
  | .ok a after => .ok a ⟨after, recorded⟩
  | .error error after => .error error ⟨after, recorded⟩

/-- A step of naming that claims nothing. -/
def quietly (step : Naming α) : Recorded α :=
  record (fun _ => []) step

/-- The claim of an identifier for a candidate, on record. -/
def claim (fullName candidate : String) : Recorded String :=
  record (fun ledger => (ledger.taken.clashes candidate).map (Clash.mk fullName))
    (ElmBinding.claim fullName candidate)

/-- The type name of a declaration, with its clashes on record. -/
def typeId (site : Site) (fullName : String) : Recorded String := do
  match (← get).typeIds.lookup fullName with
  | some id => return id
  | none =>
      let wanted ← quietly (site.candidate .type fullName)
      let id ← claim fullName wanted
      quietly (modify fun ledger =>
        { ledger with typeIds := (fullName, id) :: ledger.typeIds })
      return id

/-- The value name of a declaration, with its clashes on record. -/
def valueId (site : Site) (fullName : String) : Recorded String := do
  match (← get).valueIds.lookup fullName with
  | some id => return id
  | none =>
      let wanted ← quietly (site.candidate .value fullName)
      let id ← claim fullName wanted
      quietly (modify fun ledger =>
        { ledger with valueIds := (fullName, id) :: ledger.valueIds })
      return id

/-- The binding of a declared type, with its clashes on record. -/
def binding (site : Site) (fullName : String) : Recorded Binding := do
  match (← get).bindings.lookup fullName with
  | some binding => return binding
  | none =>
      let id ← typeId site fullName
      let zero ← claim fullName (zeroName id)
      let stem ← quietly (site.candidate .value fullName)
      let decoder ← claim fullName (decoderName stem)
      let encoder ← claim fullName (encoderName stem)
      let fuzzer ← claim fullName (fuzzerName stem)
      let binding : Binding := ⟨none, id, zero, decoder, encoder, fuzzer⟩
      quietly (modify fun ledger =>
        { ledger with bindings := (fullName, binding) :: ledger.bindings })
      return binding

/-- The binding that a reference means, with its clashes on record. -/
def reference (site : Site) (reference : Reference) : Recorded Binding :=
  if site.registry.isRegistered reference.fullName then
    binding site reference.fullName
  else
    return foreignBinding site.settings site.module reference

end Recorded

/-! ## Erasure -/

/-- The result of a step on a chronicle, with the ledger of the chronicle alone. -/
def forget : EStateM.Result BindingError Chronicle α → EStateM.Result BindingError Ledger α
  | .ok a chronicle => .ok a chronicle.toLedger
  | .error error chronicle => .error error chronicle.toLedger

/-- A recorded step does to the ledger what a step of naming does. -/
def Erases (recorded : Recorded α) (step : Naming α) : Prop :=
  ∀ chronicle, forget (recorded.run chronicle) = step.run chronicle.toLedger

/-- A result without a step leaves nothing to erase. -/
theorem erases_pure (a : α) : Erases (pure a) (pure a) :=
  fun _ => rfl

/-- Erasing steps one after another erases each of them. -/
theorem erases_bind {recorded : Recorded α} {step : Naming α} {nextRecorded : α → Recorded β}
    {next : α → Naming β} (hstep : Erases recorded step)
    (hnext : ∀ a, Erases (nextRecorded a) (next a)) :
    Erases (recorded >>= nextRecorded) (step >>= next) := by
  intro chronicle
  rw [EStateM.run_bind, EStateM.run_bind, ← hstep chronicle]
  cases recorded.run chronicle with
  | ok a after => exact hnext a after
  | error error after => rfl

/-- Reading the chronicle is reading its ledger. -/
theorem erases_get_bind {nextRecorded : Chronicle → Recorded α} {next : Ledger → Naming α}
    (hnext : ∀ chronicle, Erases (nextRecorded chronicle) (next chronicle.toLedger)) :
    Erases (get >>= nextRecorded) (get >>= next) :=
  fun chronicle => hnext chronicle chronicle

/-- What is put on record is erased again. -/
theorem erases_record (clashes : Ledger → List Clash) (step : Naming α) :
    Erases (Recorded.record clashes step) step := by
  intro chronicle
  have hrun : (Recorded.record clashes step).run chronicle =
      match step.run chronicle.toLedger with
      | .ok a after => .ok a ⟨after, clashes chronicle.toLedger ++ chronicle.clashes⟩
      | .error error after =>
          .error error ⟨after, clashes chronicle.toLedger ++ chronicle.clashes⟩ := rfl
  rw [hrun]
  cases step.run chronicle.toLedger <;> rfl

namespace Site

variable (site : Site) (fullName : String)

/-- Recording changes nothing about type names. -/
theorem erases_typeId : Erases (Recorded.typeId site fullName) (site.typeId fullName) := by
  unfold Recorded.typeId typeId
  apply erases_get_bind
  intro chronicle
  cases chronicle.typeIds.lookup fullName with
  | some id => exact erases_pure id
  | none =>
      apply erases_bind (erases_record _ _)
      intro wanted
      apply erases_bind (erases_record _ _)
      intro id
      exact erases_bind (erases_record _ _) fun _ => erases_pure id

/-- Recording changes nothing about value names. -/
theorem erases_valueId : Erases (Recorded.valueId site fullName) (site.valueId fullName) := by
  unfold Recorded.valueId valueId
  apply erases_get_bind
  intro chronicle
  cases chronicle.valueIds.lookup fullName with
  | some id => exact erases_pure id
  | none =>
      apply erases_bind (erases_record _ _)
      intro wanted
      apply erases_bind (erases_record _ _)
      intro id
      exact erases_bind (erases_record _ _) fun _ => erases_pure id

/-- Recording changes nothing about bindings. -/
theorem erases_binding : Erases (Recorded.binding site fullName) (site.binding fullName) := by
  unfold Recorded.binding binding
  apply erases_get_bind
  intro chronicle
  cases chronicle.bindings.lookup fullName with
  | some binding => exact erases_pure binding
  | none =>
      apply erases_bind (site.erases_typeId fullName)
      intro id
      apply erases_bind (erases_record _ _)
      intro zero
      apply erases_bind (erases_record _ _)
      intro stem
      apply erases_bind (erases_record _ _)
      intro decoder
      apply erases_bind (erases_record _ _)
      intro encoder
      apply erases_bind (erases_record _ _)
      intro fuzzer
      exact erases_bind (erases_record _ _) fun _ => erases_pure _

/-- Recording changes nothing about references. -/
theorem erases_reference (reference : Reference) :
    Erases (Recorded.reference site reference) (site.reference reference) := by
  unfold Recorded.reference Site.reference
  split
  · exact site.erases_binding reference.fullName
  · exact erases_pure _

end Site

/-! ## Calls -/

/-- A call for the names of a declaration or of what a reference means. -/
inductive Call where
  | typeId (fullName : String)
  | valueId (fullName : String)
  | binding (fullName : String)
  | reference (target : Reference)
deriving DecidableEq, Repr

/-- The state in which a step ends, whether it succeeds or fails. -/
def stateAfter {ε σ : Type} (step : EStateM ε σ α) (state : σ) : σ :=
  match step.run state with
  | .ok _ after => after
  | .error _ after => after

namespace Site

/-- The ledger after a call. -/
def answer (site : Site) (ledger : Ledger) : Call → Ledger
  | .typeId fullName => stateAfter (site.typeId fullName) ledger
  | .valueId fullName => stateAfter (site.valueId fullName) ledger
  | .binding fullName => stateAfter (site.binding fullName) ledger
  | .reference target => stateAfter (site.reference target) ledger

/-- The ledger after some calls, the first of them on a blank one. -/
def ledgerAfter (site : Site) (calls : List Call) : Ledger :=
  calls.foldl site.answer (.blank site.settings)

/-- The chronicle after a call. -/
def answerRecorded (site : Site) (chronicle : Chronicle) : Call → Chronicle
  | .typeId fullName => stateAfter (Recorded.typeId site fullName) chronicle
  | .valueId fullName => stateAfter (Recorded.valueId site fullName) chronicle
  | .binding fullName => stateAfter (Recorded.binding site fullName) chronicle
  | .reference target => stateAfter (Recorded.reference site target) chronicle

/-- The chronicle after some calls. -/
def chronicleAfter (site : Site) (calls : List Call) : Chronicle :=
  calls.foldl site.answerRecorded { toLedger := .blank site.settings }

/-- The names that some calls find taken. -/
def clashes (site : Site) (calls : List Call) : List Clash :=
  (site.chronicleAfter calls).clashes

/-- The chronicle after one more call. -/
theorem chronicleAfter_concat (site : Site) (calls : List Call) (call : Call) :
    site.chronicleAfter (calls ++ [call]) =
      site.answerRecorded (site.chronicleAfter calls) call := by
  rw [chronicleAfter, List.foldl_append]
  rfl

/-- The ledger of a chronicle after a call is the ledger after that call. -/
theorem toLedger_answerRecorded (site : Site) (chronicle : Chronicle) (call : Call) :
    (site.answerRecorded chronicle call).toLedger = site.answer chronicle.toLedger call := by
  have hstate : ∀ {α : Type} {recorded : Recorded α} {step : Naming α}, Erases recorded step →
      (stateAfter recorded chronicle).toLedger = stateAfter step chronicle.toLedger := by
    intro α recorded step herases
    unfold stateAfter
    rw [← herases chronicle]
    cases recorded.run chronicle <;> rfl
  cases call with
  | typeId fullName => exact hstate (site.erases_typeId fullName)
  | valueId fullName => exact hstate (site.erases_valueId fullName)
  | binding fullName => exact hstate (site.erases_binding fullName)
  | reference target => exact hstate (site.erases_reference target)

/-- The ledger in the chronicle of some calls is the ledger after these calls. -/
theorem toLedger_chronicleAfter (site : Site) (calls : List Call) :
    (site.chronicleAfter calls).toLedger = site.ledgerAfter calls := by
  unfold chronicleAfter ledgerAfter
  exact (List.foldl_hom Chronicle.toLedger fun chronicle call =>
    (site.toLedger_answerRecorded chronicle call).symm).symm

end Site

end ElmBinding
