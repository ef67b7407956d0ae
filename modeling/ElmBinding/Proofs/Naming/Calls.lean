import ElmBinding.Proofs.Naming.Chronicles
import ElmBinding.Proofs.Naming.Steps
import Mathlib.Data.List.Induction

/-!
# Names that stay as they are

The ledger is what naming remembers.  Every call for names, whether it succeeds or fails, leads
to a sound ledger that extends the one before it, and the answer to a call that succeeds can be
read off the ledger from then on.  So the answers of a run, with all the failures in between,
agree with each other: they are the answers of its last ledger.

A call for a binding can fail half-way.  What it has claimed until then stays claimed, and the
type name that it has given out stays given out, but nothing else of it is in use.

Main results:

- Definition {lit}`Site.reply`: the step that answers a call.
- Definition {lit}`Site.Records`: what the ledger holds when a call has been answered.
- Definition {lit}`Site.HandedOut`: the identifiers that some calls hand out.
- Theorem {lit}`Site.reaches_ledgerAfter`: more calls extend the ledger.
- Theorem {lit}`Site.remembers`: what is remembered after any calls.
-/

namespace ElmBinding

open Name

/-- The answer to a call that succeeds. -/
inductive Reply where
  | id (id : String)
  | binding (binding : Binding)
deriving DecidableEq, Repr

/-- The name in a binding for a use of its type; a value name is not among them. -/
def Binding.name? (binding : Binding) : Use → Option String
  | .typeName => some binding.id
  | .valueName => none
  | .zero => some binding.zero
  | .decoder => some binding.decoder
  | .encoder => some binding.encoder
  | .fuzzer => some binding.fuzzer

namespace Site

variable {site : Site} {ledger after : Ledger} {call : Call} {reply : Reply}
variable {calls : List Call} {fullName other id : String} {use use' : Use}

/-- The step that answers a call. -/
def respond (site : Site) : Call → Naming Reply
  | .typeId fullName => Reply.id <$> site.typeId fullName
  | .valueId fullName => Reply.id <$> site.valueId fullName
  | .binding fullName => Reply.binding <$> site.binding fullName
  | .reference target => Reply.binding <$> site.reference target

/-- A step whose result is wrapped does what the step does. -/
theorem run_map {α : Type} (wrap : α → Reply) (step : Naming α) (ledger : Ledger) :
    (wrap <$> step).run ledger =
      match step.run ledger with
      | .ok a after => .ok (wrap a) after
      | .error error after => .error error after := by
  rw [map_eq_pure_bind, EStateM.run_bind]
  cases step.run ledger <;> rfl

/-- The ledger after a call is the one in which its step ends. -/
theorem answer_eq (site : Site) (ledger : Ledger) (call : Call) :
    site.answer ledger call = stateAfter (site.respond call) ledger := by
  have hmap : ∀ {α : Type} (wrap : α → Reply) (step : Naming α),
      stateAfter (wrap <$> step) ledger = stateAfter step ledger := by
    intro α wrap step
    unfold stateAfter
    rw [run_map]
    cases step.run ledger <;> rfl
  cases call <;> exact (hmap _ _).symm

/-! ## Replies on record -/

/-- What the ledger holds when a call has been answered. -/
def Records (site : Site) (ledger : Ledger) : Call → Reply → Prop
  | .typeId fullName, .id id => ledger.typeIds.lookup fullName = some id
  | .valueId fullName, .id id => ledger.valueIds.lookup fullName = some id
  | .binding fullName, .binding binding => ledger.bindings.lookup fullName = some binding
  | .reference target, .binding binding => site.Means ledger target binding
  | _, _ => False

/-- What is on record stays on record. -/
theorem Records.extend (hextends : ledger.Extends after) (h : site.Records ledger call reply) :
    site.Records after call reply := by
  cases call <;> cases reply <;> try contradiction
  case typeId.id => exact hextends.typeId? h
  case valueId.id => exact hextends.valueId? h
  case binding.binding => exact hextends.binding? h
  case reference.binding => exact Means.extend hextends h

/-- A step that ensures something of its result ensures the same of a reply made of it. -/
theorem map_ensures {settings : Settings} {fail : BindingError → Prop} {α : Type}
    {post : α → Ledger → Prop} {post' : Reply → Ledger → Prop} {step : Naming α}
    {wrap : α → Reply} (hstep : Ensures settings step ledger post fail)
    (hpost : ∀ {a after}, post a after → post' (wrap a) after) :
    Ensures settings (wrap <$> step) ledger post' fail := by
  rw [map_eq_pure_bind]
  apply ensures_bind hstep
  intro a after hreached ha
  exact ensures_pure hreached.sound (hpost ha)

/-- A call leads to a sound ledger, and its reply is on record there. -/
theorem respond_ensures (hsound : ledger.Sound site.settings) (call : Call) :
    Ensures site.settings (site.respond call) ledger
      (fun reply after => site.Records after call reply) fun _ => True := by
  have hcovers : ∀ fullName, site.CoversName (fun _ => True) fullName :=
    fun _ => ⟨fun _ _ => trivial, fun _ _ => trivial⟩
  cases call with
  | typeId fullName => exact map_ensures (typeId_ensures hsound (hcovers _)) fun h => h.1
  | valueId fullName => exact map_ensures (valueId_ensures hsound (hcovers _)) id
  | binding fullName => exact map_ensures (binding_ensures hsound (hcovers _)) id
  | reference target => exact map_ensures (reference_ensures hsound fun _ => hcovers _) id

/-- Reading the ledger changes nothing. -/
theorem run_get_bind {α : Type} (next : Ledger → Naming α) (ledger : Ledger) :
    (get >>= next).run ledger = (next ledger).run ledger := rfl

/-- A type name on record is given out again, and nothing changes. -/
theorem typeId_of_lookup (h : ledger.typeIds.lookup fullName = some id) :
    (site.typeId fullName).run ledger = .ok id ledger := by
  rw [typeId, run_get_bind, h]
  rfl

/-- A value name on record is given out again, and nothing changes. -/
theorem valueId_of_lookup (h : ledger.valueIds.lookup fullName = some id) :
    (site.valueId fullName).run ledger = .ok id ledger := by
  rw [valueId, run_get_bind, h]
  rfl

/-- A binding on record is given out again, and nothing changes. -/
theorem binding_of_lookup {binding : Binding}
    (h : ledger.bindings.lookup fullName = some binding) :
    (site.binding fullName).run ledger = .ok binding ledger := by
  rw [Site.binding, run_get_bind, h]
  rfl

/-- What a reference means by the ledger is what it is bound to, and nothing changes. -/
theorem reference_of_means {target : Reference} {binding : Binding}
    (h : site.Means ledger target binding) :
    (site.reference target).run ledger = .ok binding ledger := by
  unfold Means at h
  unfold Site.reference
  split
  · rename_i hregistered
    rw [if_pos hregistered] at h
    exact binding_of_lookup h
  · rename_i hforeign
    rw [if_neg hforeign] at h
    rw [h]
    rfl

/-- A call whose reply is on record is answered with it, and changes nothing. -/
theorem respond_of_records (h : site.Records ledger call reply) :
    (site.respond call).run ledger = .ok reply ledger := by
  cases call <;> cases reply <;> try contradiction
  case typeId.id fullName id =>
      have hstep : (site.typeId fullName).run ledger = .ok id ledger := typeId_of_lookup h
      rw [respond, run_map, hstep]
  case valueId.id fullName id =>
      have hstep : (site.valueId fullName).run ledger = .ok id ledger := valueId_of_lookup h
      rw [respond, run_map, hstep]
  case binding.binding fullName binding =>
      have hstep : (site.binding fullName).run ledger = .ok binding ledger := binding_of_lookup h
      rw [respond, run_map, hstep]
  case reference.binding target binding =>
      have hstep : (site.reference target).run ledger = .ok binding ledger := reference_of_means h
      rw [respond, run_map, hstep]

/-! ## What calls hand out -/

/-- An identifier that a reply to a call hands out for a use of a declaration. -/
inductive HandsOut (site : Site) : Call → Reply → String → Use → String → Prop
  | typeId {fullName id : String} : HandsOut site (.typeId fullName) (.id id) fullName .typeName id
  | valueId {fullName id : String} :
      HandsOut site (.valueId fullName) (.id id) fullName .valueName id
  | binding {fullName id : String} {binding : Binding} {use : Use}
      (hname : binding.name? use = some id) :
      HandsOut site (.binding fullName) (.binding binding) fullName use id
  | reference {target : Reference} {id : String} {binding : Binding} {use : Use}
      (hregistered : site.registry.isRegistered target.fullName = true)
      (hname : binding.name? use = some id) :
      HandsOut site (.reference target) (.binding binding) target.fullName use id

/-- The names in a binding on record are those that the ledger has given out. -/
theorem id?_of_binding {settings : Settings} {binding : Binding} (hsound : ledger.Sound settings)
    (hbinding : ledger.bindings.lookup fullName = some binding)
    (hname : binding.name? use = some id) : ledger.id? fullName use = some id := by
  cases use <;> simp only [Binding.name?, Option.some.injEq, reduceCtorEq] at hname <;>
    subst hname
  case typeName => exact hsound.type_of_binding hbinding
  all_goals simp [Ledger.id?, hbinding]

/-- What a reply on record hands out is given out by the ledger. -/
theorem id?_of_records {settings : Settings} (hsound : ledger.Sound settings)
    (hrecords : site.Records ledger call reply)
    (hhands : site.HandsOut call reply fullName use id) : ledger.id? fullName use = some id := by
  cases hhands with
  | typeId => exact hrecords
  | valueId => exact hrecords
  | binding hname => exact id?_of_binding hsound hrecords hname
  | reference hregistered hname =>
      have hmeans : site.Means ledger _ _ := hrecords
      rw [Means, if_pos hregistered] at hmeans
      exact id?_of_binding hsound hmeans hname

/-! ## Runs -/

/-- The ledger after more calls. -/
theorem ledgerAfter_append (site : Site) (calls more : List Call) :
    site.ledgerAfter (calls ++ more) = more.foldl site.answer (site.ledgerAfter calls) := by
  rw [ledgerAfter, List.foldl_append]
  rfl

/-- A call takes a sound ledger to a sound one that extends it, also if it fails. -/
theorem reaches_answer (hsound : ledger.Sound site.settings) (call : Call) :
    ledger.Reaches site.settings (site.answer ledger call) := by
  have hensures := respond_ensures hsound call
  rw [answer_eq]
  unfold Ensures at hensures
  unfold stateAfter
  cases hrun : (site.respond call).run ledger with
  | ok reply after =>
      rw [hrun] at hensures
      exact hensures.1
  | error error after =>
      rw [hrun] at hensures
      exact hensures.1

/-- Calls take a sound ledger to a sound one that extends it. -/
theorem reaches_foldl_answer (hsound : ledger.Sound site.settings) (calls : List Call) :
    ledger.Reaches site.settings (calls.foldl site.answer ledger) := by
  induction calls generalizing ledger with
  | nil => exact hsound.reaches
  | cons call rest ih =>
      have hfirst := reaches_answer hsound call
      exact hfirst.trans (ih hfirst.sound)

/-- The ledger after any calls is sound. -/
theorem sound_ledgerAfter (site : Site) (calls : List Call) :
    (site.ledgerAfter calls).Sound site.settings :=
  (reaches_foldl_answer (Ledger.sound_blank site.settings) calls).sound

/-- More calls extend the ledger. -/
theorem reaches_ledgerAfter (site : Site) (calls more : List Call) :
    (site.ledgerAfter calls).Reaches site.settings (site.ledgerAfter (calls ++ more)) := by
  rw [ledgerAfter_append]
  exact reaches_foldl_answer (site.sound_ledgerAfter calls) more

/-- One of some calls succeeds with a reply. -/
def Replied (site : Site) (calls : List Call) (call : Call) (reply : Reply) : Prop :=
  ∃ before later after, calls = before ++ call :: later ∧
    (site.respond call).run (site.ledgerAfter before) = .ok reply after

/-- An identifier that one of some calls hands out for a use of a declaration. -/
def HandedOut (site : Site) (calls : List Call) (fullName : String) (use : Use) (id : String) :
    Prop :=
  ∃ call reply, site.Replied calls call reply ∧ site.HandsOut call reply fullName use id

/-- A reply is on record after all calls. -/
theorem records_of_replied (h : site.Replied calls call reply) :
    site.Records (site.ledgerAfter calls) call reply := by
  rcases h with ⟨before, later, after, rfl, hrun⟩
  have hsound := site.sound_ledgerAfter before
  have hrecords : site.Records after call reply := by
    have hensures := respond_ensures hsound call
    rw [Ensures, hrun] at hensures
    exact hensures.2
  have hafter : site.ledgerAfter (before ++ [call]) = after := by
    rw [ledgerAfter_append, List.foldl_cons, List.foldl_nil, answer_eq, stateAfter, hrun]
  have hreaches := site.reaches_ledgerAfter (before ++ [call]) later
  rw [hafter, List.append_assoc] at hreaches
  exact hrecords.extend hreaches.ext

/-- What has been handed out is given out by the ledger after all calls. -/
theorem id?_of_handedOut (h : site.HandedOut calls fullName use id) :
    (site.ledgerAfter calls).id? fullName use = some id := by
  rcases h with ⟨call, reply, hreplied, hhands⟩
  exact id?_of_records (site.sound_ledgerAfter calls) (records_of_replied hreplied) hhands

/-- What naming remembers after some calls, of which any may have failed. -/
structure Remembers (site : Site) (calls : List Call) : Prop where
  /-- A call that has succeeded is answered alike, and changes nothing. -/
  again : ∀ {call reply}, site.Replied calls call reply →
    (site.respond call).run (site.ledgerAfter calls) = .ok reply (site.ledgerAfter calls)
  /-- The type name in a binding is the type name of the declaration. -/
  typeId : ∀ {fullName binding}, site.Replied calls (.binding fullName) (.binding binding) →
    (site.typeId fullName).run (site.ledgerAfter calls) =
      .ok binding.id (site.ledgerAfter calls)
  /-- What has been claimed after the first calls is claimed after all of them. -/
  claimed : ∀ {before later}, calls = before ++ later →
    (site.ledgerAfter before).taken.claimed ⊆ (site.ledgerAfter calls).taken.claimed
  /-- No declaration has two identifiers for one use. -/
  unique : ∀ {fullName use id id'}, site.HandedOut calls fullName use id →
    site.HandedOut calls fullName use id' → id = id'
  /-- No identifier is handed out for two uses, be they of one declaration or of two. -/
  distinct : ∀ {fullName other use use' id}, site.HandedOut calls fullName use id →
    site.HandedOut calls other use' id → fullName = other ∧ use = use'
  /-- No reserved word is handed out. -/
  unreserved : ∀ {fullName use id}, site.HandedOut calls fullName use id → id ∉ reservedWords

/-- After any calls at any site, naming remembers what it has answered. -/
theorem remembers (site : Site) (calls : List Call) : site.Remembers calls where
  again hreplied := respond_of_records (records_of_replied hreplied)
  typeId hreplied := typeId_of_lookup
    ((site.sound_ledgerAfter calls).type_of_binding (records_of_replied hreplied))
  claimed := by
    rintro before later rfl
    exact (site.reaches_ledgerAfter before later).ext.taken
  unique h h' := by
    have hid := id?_of_handedOut h
    rw [id?_of_handedOut h', Option.some.injEq] at hid
    exact hid.symm
  distinct h h' :=
    (site.sound_ledgerAfter calls).id_injective (id?_of_handedOut h) (id?_of_handedOut h')
  unreserved h := (site.sound_ledgerAfter calls).unreserved_of_id (id?_of_handedOut h)

/-- A site at which a value name gets in the way of a zero value. -/
def snagSite : Site where
  registry := { entries := [⟨"p.M", "M"⟩, ⟨"p.emptyM", "emptyM"⟩], distinct := by decide }
  settings := {}
  module := "P"

/-- A value name, a binding that fails behind it, and the type name that was given out by then. -/
def snagCalls : List Call :=
  [.valueId "p.emptyM", .binding "p.M", .typeId "p.M"]

/-- The type name that a failed binding leaves behind is remembered, and so is the failure. -/
theorem remembers_snagSite :
    snagSite.Replied snagCalls (.typeId "p.M") (.id "M") ∧
      snagSite.HandedOut snagCalls "p.M" .typeName "M" ∧
      (snagSite.respond (.typeId "p.M")).run (snagSite.ledgerAfter snagCalls) =
        .ok (.id "M") (snagSite.ledgerAfter snagCalls) ∧
      (snagSite.respond (.binding "p.M")).run (snagSite.ledgerAfter snagCalls) =
        .error (.collision "p.M" "emptyM") (snagSite.ledgerAfter snagCalls) := by
  have hreplied : snagSite.Replied snagCalls (.typeId "p.M") (.id "M") :=
    ⟨[.valueId "p.emptyM", .binding "p.M"], [], snagSite.ledgerAfter snagCalls, rfl, by rfl⟩
  refine ⟨hreplied, ⟨_, _, hreplied, .typeId⟩, ?_, by rfl⟩
  exact (remembers snagSite snagCalls).again hreplied

end Site

end ElmBinding
