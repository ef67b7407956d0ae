import ElmBinding.Proofs.Module.Identifiers
import ElmBinding.Proofs.Naming.Turns
import ElmBinding.Proofs.Sequence.Sorting

/-!
# Methods taking turns

The methods of a service are named one after the other.  If no two of them contest a name, they may
be named in any order: the procedures are the same, and so is the ledger but for its order.  This
needs the types of the methods to be bound before, so that no method is the first to mention one.

Main results:

- Definition {lit}`Site.Uncontested`: declarations that are given different names.
- Definition {lit}`Site.BindsTypes`: methods whose types have been bound before.
- Definition {lit}`Site.turnsFrom`: the turns of services, one after the other.
- Theorem {lit}`Site.procedures_perm`: uncontested methods in another order.
- Theorem {lit}`Site.procedureGroups_reordered`: services with their methods in other orders.
-/

namespace ElmBinding

open Name

namespace Site

variable {site : Site} {ledger other after : Ledger} {service : String}

/-! ## Types of methods -/

/-- A method whose types have been bound before. -/
def BindsTypes (site : Site) (ledger : Ledger) (method : Method) : Prop :=
  (∃ binding, site.Means ledger method.input binding) ∧
    ∃ binding, site.Means ledger method.output binding

/-- What a reference means depends on the bindings alone. -/
theorem means_congr (h : ledger.bindings = other.bindings) {reference : Reference}
    {binding : Binding} :
    site.Means ledger reference binding ↔ site.Means other reference binding := by
  rw [Means, Means, h]

/-- Whether types are bound depends on the bindings alone. -/
theorem BindsTypes.congr {method : Method} (h : ledger.bindings = other.bindings)
    (hbound : site.BindsTypes ledger method) : site.BindsTypes other method := by
  rcases hbound with ⟨⟨input, hinput⟩, output, houtput⟩
  exact ⟨⟨input, (means_congr h).mp hinput⟩, output, (means_congr h).mp houtput⟩

/-- Types that are bound stay so. -/
theorem BindsTypes.extend {method : Method} (hextends : ledger.Extends after)
    (hbound : site.BindsTypes ledger method) : site.BindsTypes after method := by
  rcases hbound with ⟨⟨input, hinput⟩, output, houtput⟩
  exact ⟨⟨input, hinput.extend hextends⟩, output, houtput.extend hextends⟩

/-- The procedure of a method with given names. -/
def procedureOf (service : String) (method : Method) (id : String) (input output : Binding) :
    Procedure :=
  { id, method := method.name, service, input, output
    clientStreaming := method.clientStreaming
    serverStreaming := method.serverStreaming
    comments := method.comments }

/-- A method whose types have been bound is given its name, and nothing else happens. -/
theorem run_procedure {method : Method} {input output : Binding}
    (hinput : site.Means ledger method.input input)
    (houtput : site.Means ledger method.output output) :
    (site.procedure service method).run ledger =
      match (site.valueId method.fullName).run ledger with
      | .ok id after => .ok (procedureOf service method id input output) after
      | .error error after => .error error after := by
  rw [procedure, EStateM.run_bind]
  cases hrun : (site.valueId method.fullName).run ledger with
  | error error failed => rfl
  | ok id named =>
      have hbindings := bindings_of_valueId hrun
      have hin := reference_of_means ((means_congr hbindings.symm).mp hinput)
      have hout := reference_of_means ((means_congr hbindings.symm).mp houtput)
      simp only [EStateM.run_bind, hin, hout]
      rfl

/-- In ledgers that are alike, a method becomes the same procedure. -/
theorem procedure_like {method : Method} (hbound : site.BindsTypes ledger method)
    (hlike : ledger.Like other) :
    LikeRuns Eq ((site.procedure service method).run ledger)
      ((site.procedure service method).run other) := by
  rcases hbound with ⟨⟨input, hinput⟩, output, houtput⟩
  rw [run_procedure hinput houtput, run_procedure ((means_congr hlike.bindings).mp hinput)
    ((means_congr hlike.bindings).mp houtput)]
  have hruns := valueId_like site hlike method.fullName
  generalize (site.valueId method.fullName).run ledger = result,
    (site.valueId method.fullName).run other = result' at hruns
  cases hruns with
  | ok hsame hlike => exact .ok (by rw [hsame]) hlike
  | error error after after' => exact .error error after after'

/-- A method that becomes a procedure leaves the bindings as they are. -/
theorem bindings_of_procedure {method : Method} {procedure : Procedure}
    (hbound : site.BindsTypes ledger method)
    (h : (site.procedure service method).run ledger = .ok procedure after) :
    after.bindings = ledger.bindings := by
  rcases hbound with ⟨⟨input, hinput⟩, output, houtput⟩
  rw [run_procedure hinput houtput] at h
  cases hrun : (site.valueId method.fullName).run ledger with
  | error error failed => simp [hrun] at h
  | ok id named =>
      simp only [hrun, EStateM.Result.ok.injEq] at h
      rw [← h.2, bindings_of_valueId hrun]

/-- After a procedure, the types of the other methods are still bound. -/
theorem typesBound_after {method : Method} {rest : List Method} {procedure : Procedure}
    (hbound : ∀ other ∈ method :: rest, site.BindsTypes ledger other)
    (h : (site.procedure service method).run ledger = .ok procedure after) :
    ∀ other ∈ rest, site.BindsTypes after other := by
  rcases List.forall_mem_cons.mp hbound with ⟨hfirst, hrest⟩
  exact fun other hother => .congr (bindings_of_procedure hfirst h).symm (hrest other hother)

/-- In ledgers that are alike, methods become the same procedures. -/
theorem procedures_like {methods : List Method}
    (hbound : ∀ method ∈ methods, site.BindsTypes ledger method) (hlike : ledger.Like other) :
    LikeRuns Eq ((methods.mapM (site.procedure service)).run ledger)
      ((methods.mapM (site.procedure service)).run other) := by
  induction methods generalizing ledger other with
  | nil => exact .ok rfl hlike
  | cons method rest ih =>
      rw [List.mapM_cons]
      refine (procedure_like (hbound method List.mem_cons_self) hlike).bind ?_
      rintro procedure _ after after' hrun rfl hlike
      refine (ih (typesBound_after hbound hrun) hlike).bind ?_
      rintro procedures _ final final' - rfl hlike
      exact .ok rfl hlike

/-! ## Turns -/

/--
Methods that contest no name: each would be given another one than the others if it came first, and
one of them at most would be refused.
-/
def Uncontested (site : Site) (ledger : Ledger) (methods : List Method) : Prop :=
  (methods.map fun method => (site.valueIn ledger method.fullName).toOption).Nodup

instance (site : Site) (ledger : Ledger) (methods : List Method) :
    Decidable (site.Uncontested ledger methods) :=
  inferInstanceAs (Decidable (List.Nodup _))

/-- Uncontested methods stay so after one of them has been named. -/
theorem Uncontested.rest {method : Method} {rest : List Method} {id : String}
    (hclear : site.Uncontested ledger (method :: rest))
    (hdistinct : ((method :: rest).map Method.fullName).Nodup)
    (h : (site.valueId method.fullName).run ledger = .ok id after) :
    (∀ other ∈ rest, site.valueIn after other.fullName = site.valueIn ledger other.fullName) ∧
      site.Uncontested after rest := by
  have hfirst : site.valueIn ledger method.fullName = .ok id := by rw [valueIn, h]
  rcases List.nodup_cons.mp hclear with ⟨hnew, hrest⟩
  have hsame : ∀ other ∈ rest,
      site.valueIn after other.fullName = site.valueIn ledger other.fullName := by
    intro other hother
    refine valueIn_after (fun heq => ?_) h fun hgiven => ?_
    · exact (List.nodup_cons.mp hdistinct).1 (heq ▸ List.mem_map_of_mem hother)
    · refine hnew (List.mem_map.mpr ⟨other, hother, ?_⟩)
      dsimp only
      rw [hgiven, hfirst]
  refine ⟨hsame, ?_⟩
  rw [Uncontested, List.map_congr_left fun other hother => congrArg _ (hsame other hother)]
  exact hrest

/-- There is no procedure for a method whose name is refused. -/
theorem run_procedure_of_refused (service : String) {method : Method} {error : BindingError}
    (hbound : site.BindsTypes ledger method)
    (h : site.valueIn ledger method.fullName = .error error) :
    ∃ failed, (site.procedure service method).run ledger = .error error failed := by
  rcases hbound with ⟨⟨input, hinput⟩, output, houtput⟩
  rw [run_procedure hinput houtput]
  unfold valueIn at h
  cases hrun : (site.valueId method.fullName).run ledger with
  | ok id after => simp [hrun] at h
  | error refused failed =>
      simp only [hrun, Except.error.injEq] at h
      exact ⟨failed, by rw [h]⟩

/-- Two methods become procedures one after the other. -/
theorem run_pair {first second : Method} (site : Site) (service : String) (ledger : Ledger) :
    ([first, second].mapM (site.procedure service)).run ledger =
      match (site.procedure service first).run ledger with
      | .error error failed => .error error failed
      | .ok procedure after =>
          match (site.procedure service second).run after with
          | .error error failed => .error error failed
          | .ok procedure' final => .ok [procedure, procedure'] final := by
  simp only [List.mapM_cons, List.mapM_nil, EStateM.run_bind]
  cases (site.procedure service first).run ledger with
  | error error failed => rfl
  | ok procedure after =>
      dsimp only
      cases (site.procedure service second).run after <;> rfl

/-- If the first one of two methods is refused, so are the two. -/
theorem run_pair_of_first_refused (service : String) {first : Method} (second : Method)
    {error : BindingError} (hfirst : site.BindsTypes ledger first)
    (h : site.valueIn ledger first.fullName = .error error) :
    ∃ failed, ([first, second].mapM (site.procedure service)).run ledger = .error error failed := by
  rcases run_procedure_of_refused service hfirst h with ⟨failed, hrun⟩
  exact ⟨failed, by rw [run_pair, hrun]⟩

/-- If the second one of two methods is refused after the first one, so are the two. -/
theorem run_pair_of_second_refused (service : String) {first second : Method}
    {error : BindingError} {id : String} (hfirst : site.BindsTypes ledger first)
    (hsecond : site.BindsTypes ledger second)
    (hrun : (site.valueId first.fullName).run ledger = .ok id after)
    (h : site.valueIn after second.fullName = .error error) :
    ∃ failed, ([first, second].mapM (site.procedure service)).run ledger = .error error failed := by
  have hbindings := bindings_of_valueId hrun
  rcases run_procedure_of_refused service (hsecond.congr hbindings.symm) h with ⟨failed, hfailed⟩
  rcases hfirst with ⟨⟨input, hinput⟩, output, houtput⟩
  refine ⟨failed, ?_⟩
  rw [run_pair, run_procedure hinput houtput, hrun]
  simp only [hfailed]

/-- If one of two methods that contest nothing is refused, it is refused in both orders. -/
theorem run_pair_of_refused (service : String) {first second : Method} {error : BindingError}
    {id : String} (hne : first.fullName ≠ second.fullName)
    (hfirst : site.BindsTypes ledger first) (hsecond : site.BindsTypes ledger second)
    (hrefused : site.valueIn ledger first.fullName = .error error)
    (hgiven : site.valueIn ledger second.fullName = .ok id) :
    (∃ failed, ([first, second].mapM (site.procedure service)).run ledger = .error error failed) ∧
      ∃ failed, ([second, first].mapM (site.procedure service)).run ledger =
        .error error failed := by
  refine ⟨run_pair_of_first_refused service second hfirst hrefused, ?_⟩
  rcases exists_run_of_valueIn hgiven with ⟨after, hrun⟩
  have hlater : site.valueIn after first.fullName = .error error := by
    rw [valueIn_after hne hrun] <;> simp [hrefused]
  exact run_pair_of_second_refused service hsecond hfirst hrun hlater

/-- Two methods that contest nothing may change turns. -/
theorem procedure_comm {first second : Method} (hne : first.fullName ≠ second.fullName)
    (hfirst : site.BindsTypes ledger first) (hsecond : site.BindsTypes ledger second)
    (hclear : (site.valueIn ledger first.fullName).toOption ≠
      (site.valueIn ledger second.fullName).toOption) :
    LikeRuns List.Perm (([first, second].mapM (site.procedure service)).run ledger)
      (([second, first].mapM (site.procedure service)).run ledger) := by
  cases hgiven : site.valueIn ledger first.fullName with
  | error error =>
      cases hgiven' : site.valueIn ledger second.fullName with
      | error error' => simp [hgiven, hgiven', Except.toOption] at hclear
      | ok id' =>
          rcases run_pair_of_refused service hne hfirst hsecond hgiven hgiven' with
            ⟨⟨failed, hrun⟩, failed', hrun'⟩
          rw [hrun, hrun']
          exact .error error failed failed'
  | ok id =>
      cases hgiven' : site.valueIn ledger second.fullName with
      | error error' =>
          rcases run_pair_of_refused service hne.symm hsecond hfirst hgiven' hgiven
            with ⟨⟨failed, hrun⟩, failed', hrun'⟩
          rw [hrun, hrun']
          exact .error error' failed' failed
      | ok id' =>
          have hids : id ≠ id' := by
            rintro rfl
            simp [hgiven, hgiven'] at hclear
          rcases exists_run_of_valueIn hgiven with ⟨after, hrun⟩
          rcases exists_run_of_valueIn hgiven' with ⟨after', hrun'⟩
          rcases valueId_comm hne hids hrun hrun' with ⟨final, final', hfinal, hfinal', hlike⟩
          have hbindings := bindings_of_valueId hrun
          have hbindings' := bindings_of_valueId hrun'
          rcases hfirst with ⟨⟨input, hinput⟩, output, houtput⟩
          rcases hsecond with ⟨⟨input', hinput'⟩, output', houtput'⟩
          rw [run_pair, run_pair, run_procedure hinput houtput, run_procedure hinput' houtput',
            hrun, hrun']
          simp only [run_procedure ((means_congr hbindings).mpr hinput')
            ((means_congr hbindings).mpr houtput'), hfinal, run_procedure
            ((means_congr hbindings').mpr hinput) ((means_congr hbindings').mpr houtput), hfinal']
          exact .ok (.swap _ _ _) hlike

/-- Methods that become procedures leave the bindings as they are. -/
theorem bindings_of_procedures {methods : List Method} {procedures : List Procedure}
    (hbound : ∀ method ∈ methods, site.BindsTypes ledger method)
    (h : (methods.mapM (site.procedure service)).run ledger = .ok procedures after) :
    after.bindings = ledger.bindings := by
  induction methods generalizing ledger procedures with
  | nil =>
      obtain ⟨-, rfl⟩ := EStateM.Result.ok.inj h
      rfl
  | cons method rest ih =>
      rw [List.mapM_cons, EStateM.run_bind] at h
      cases hrun : (site.procedure service method).run ledger with
      | error error failed => simp [hrun] at h
      | ok procedure named =>
          simp only [hrun, EStateM.run_bind] at h
          cases hrest : (rest.mapM (site.procedure service)).run named with
          | error error failed => simp [hrest] at h
          | ok others final =>
              simp only [hrest] at h
              obtain ⟨-, rfl⟩ := EStateM.Result.ok.inj h
              rw [ih (typesBound_after hbound hrun) hrest,
                bindings_of_procedure (hbound method List.mem_cons_self) hrun]

/-- Two uncontested methods in front of others may change turns. -/
theorem procedures_swap (service : String) {first second : Method} {rest : List Method}
    (hdistinct : ((first :: second :: rest).map Method.fullName).Nodup)
    (hclear : site.Uncontested ledger (first :: second :: rest))
    (hbound : ∀ method ∈ first :: second :: rest, site.BindsTypes ledger method) :
    LikeRuns List.Perm (((first :: second :: rest).mapM (site.procedure service)).run ledger)
      (((second :: first :: rest).mapM (site.procedure service)).run ledger) := by
  have happend : ∀ first second, (first :: second :: rest).mapM (site.procedure service) =
      ([first, second].mapM (site.procedure service) >>= fun pair =>
        rest.mapM (site.procedure service) >>= fun others => pure (pair ++ others)) := by
    intro first second
    rw [← List.mapM_append]
    rfl
  rcases List.forall_mem_cons.mp hbound with ⟨hfirst, hothers⟩
  rcases List.forall_mem_cons.mp hothers with ⟨hsecond, hrest⟩
  have hne : first.fullName ≠ second.fullName :=
    fun heq => (List.nodup_cons.mp hdistinct).1 (heq ▸ List.mem_cons_self)
  have hnames : (site.valueIn ledger first.fullName).toOption ≠
      (site.valueIn ledger second.fullName).toOption :=
    fun heq => (List.nodup_cons.mp hclear).1 (List.mem_cons.mpr (Or.inl heq))
  have hpairBound : ∀ method ∈ [first, second], site.BindsTypes ledger method := by
    simpa using ⟨hfirst, hsecond⟩
  rw [happend, happend]
  refine (procedure_comm hne hfirst hsecond hnames).bind ?_
  rintro pair pair' after after' hrun hpair hlike
  have hbindings := (bindings_of_procedures hpairBound hrun).symm
  have hrestBound : ∀ method ∈ rest, site.BindsTypes after method :=
    fun method hmethod => (hrest method hmethod).congr hbindings
  refine (procedures_like hrestBound hlike).bind ?_
  rintro others _ final final' - rfl hlike
  exact .ok (hpair.append_right others) hlike

/-- A method in front of others keeps its turn, and they take theirs. -/
theorem procedures_cons (service : String) {method : Method} {rest rest' : List Method}
    (hbound : site.BindsTypes ledger method)
    (h : ∀ id after, (site.valueId method.fullName).run ledger = .ok id after →
      LikeRuns List.Perm ((rest.mapM (site.procedure service)).run after)
        ((rest'.mapM (site.procedure service)).run after)) :
    LikeRuns List.Perm (((method :: rest).mapM (site.procedure service)).run ledger)
      (((method :: rest').mapM (site.procedure service)).run ledger) := by
  rcases hbound with ⟨⟨input, hinput⟩, output, houtput⟩
  rw [List.mapM_cons, List.mapM_cons, EStateM.run_bind, EStateM.run_bind,
    run_procedure hinput houtput]
  cases hrun : (site.valueId method.fullName).run ledger with
  | error error failed => exact .error error failed failed
  | ok id after =>
      refine (h id after hrun).bind ?_
      rintro procedures procedures' final final' - hprocedures hlike
      exact .ok (hprocedures.cons _) hlike

/-- Methods that contest nothing become the same procedures in any order. -/
theorem procedures_perm (service : String) {methods methods' : List Method}
    (hperm : methods.Perm methods') (hdistinct : (methods.map Method.fullName).Nodup)
    (hclear : site.Uncontested ledger methods)
    (hbound : ∀ method ∈ methods, site.BindsTypes ledger method) :
    LikeRuns List.Perm ((methods.mapM (site.procedure service)).run ledger)
      ((methods'.mapM (site.procedure service)).run ledger) := by
  induction hperm generalizing ledger with
  | nil => exact .ok (.refl _) (.refl _)
  | @cons method rest rest' hperm ih =>
      rcases List.forall_mem_cons.mp hbound with ⟨hfirst, hrest⟩
      refine procedures_cons service hfirst fun id after hrun => ?_
      have hbindings := (bindings_of_valueId hrun).symm
      exact ih (List.nodup_cons.mp hdistinct).2 (hclear.rest hdistinct hrun).2
        fun other hother => (hrest other hother).congr hbindings
  | swap first second rest => exact procedures_swap service hdistinct hclear hbound
  | trans hperm hperm' ih ih' =>
      refine (ih hdistinct hclear hbound).trans (ih' ?_ ?_ ?_) fun _ _ _ h h' => h.trans h'
      · exact (hperm.map Method.fullName).nodup_iff.mp hdistinct
      · exact (hperm.map _).nodup_iff.mp hclear
      · exact fun method hmethod => hbound method (hperm.mem_iff.mpr hmethod)

/-! ## Services -/

/-- Procedures of methods with different names have different identifiers. -/
theorem procedureIds_nodup {methods : List Method} {procedures : List Procedure}
    (hsound : ledger.Sound site.settings) (hdistinct : (methods.map Method.fullName).Nodup)
    (h : (methods.mapM (site.procedure service)).run ledger = .ok procedures after) :
    (procedures.map Procedure.id).Nodup := by
  have hstep : ∀ method ∈ methods, ∀ ledger, ledger.Sound site.settings →
      Ensures site.settings (site.procedure service method) ledger
        (fun procedure after => site.HasProcedure after service method procedure)
        fun _ => True :=
    fun method _ ledger hsound => procedure_ensures hsound site.coversAll_true.types
      ⟨fun _ _ => trivial, fun _ _ => trivial⟩
  have hensures := ensures_mapM hstep HasProcedure.extend hsound
  rw [Ensures, h] at hensures
  exact (owned_procedures hensures.2 hensures.1.sound hdistinct).nodup

/-- The methods of a service become procedures, or there is some error. -/
theorem procedureGroup_covered (hsound : ledger.Sound site.settings) (service : Service) :
    Ensures site.settings (site.procedureGroup service) ledger
      (fun group after => site.HasGroup after service group) fun _ => True :=
  procedureGroup_ensures hsound site.coversAll_true.types
    fun _ _ => ⟨fun _ _ => trivial, fun _ _ => trivial⟩

/-- A service whose methods are named leads to a sound ledger. -/
theorem reaches_of_procedureGroup {service : Service} {group : ProcedureGroup}
    (hsound : ledger.Sound site.settings)
    (h : (site.procedureGroup service).run ledger = .ok group after) :
    ledger.Reaches site.settings after := by
  have hensures := procedureGroup_covered hsound service
  rw [Ensures, h] at hensures
  exact hensures.1

/-- Services whose methods are named lead to a sound ledger. -/
theorem reaches_of_procedureGroups {services : List Service} {groups : List ProcedureGroup}
    (hsound : ledger.Sound site.settings)
    (h : (services.mapM site.procedureGroup).run ledger = .ok groups after) :
    ledger.Reaches site.settings after := by
  have hensures := ensures_mapM (fun service (_ : service ∈ services) _ hsound =>
    procedureGroup_covered hsound service) HasGroup.extend hsound
  rw [Ensures, h] at hensures
  exact hensures.1

end Site

/-- Services that differ in the order of their methods only. -/
structure Service.Reorders (service other : Service) : Prop where
  name : other.name = service.name
  fullName : other.fullName = service.fullName
  comments : other.comments = service.comments
  methods : service.methods.Perm other.methods

namespace Site

variable {site : Site} {ledger other : Ledger}

/-- A service whose methods contest nothing is the same with its methods in another order. -/
theorem procedureGroup_reordered {service service' : Service} (h : service.Reorders service')
    (hsound : ledger.Sound site.settings) (hlike : ledger.Like other)
    (hdistinct : (service.methods.map Method.fullName).Nodup)
    (hclear : site.Uncontested ledger service.methods)
    (hbound : ∀ method ∈ service.methods, site.BindsTypes ledger method) :
    LikeRuns Eq ((site.procedureGroup service).run ledger)
      ((site.procedureGroup service').run other) := by
  have hbound' : ∀ method ∈ service'.methods, site.BindsTypes ledger method :=
    fun method hmethod => hbound method (h.methods.mem_iff.mpr hmethod)
  have hruns := (procedures_perm service.fullName h.methods hdistinct hclear
    hbound).trans (procedures_like hbound' hlike) fun _ _ _ hperm heq => heq ▸ hperm
  unfold procedureGroup
  rw [h.fullName, h.name, h.comments]
  refine hruns.bind ?_
  intro procedures procedures' after after' hrun hperm hlike
  have hids := procedureIds_nodup hsound hdistinct hrun
  rw [Sequence.sortedBy_eq_of_perm hperm hids]
  exact .ok rfl hlike

/-- The turns of services, each with the ledger in which it begins, until there is an error. -/
def turnsFrom (site : Site) (ledger : Ledger) : List Service → List (Ledger × Service)
  | [] => []
  | service :: rest =>
      (ledger, service) ::
        match (site.procedureGroup service).run ledger with
        | .ok _ after => site.turnsFrom after rest
        | .error _ _ => []

/-- The turn of a service begins when those in front of it have been named. -/
theorem exists_of_mem_turnsFrom {services : List Service} {service : Service} {reached : Ledger}
    (h : (reached, service) ∈ site.turnsFrom ledger services) :
    ∃ front back groups, services = front ++ service :: back ∧
      (front.mapM site.procedureGroup).run ledger = .ok groups reached := by
  induction services generalizing ledger with
  | nil => contradiction
  | cons first rest ih =>
      rw [turnsFrom] at h
      rcases List.mem_cons.mp h with heq | hlater
      · obtain ⟨rfl, rfl⟩ := Prod.mk.inj heq
        exact ⟨[], rest, [], rfl, rfl⟩
      · cases hrun : (site.procedureGroup first).run ledger with
        | error error failed => simp [hrun] at hlater
        | ok group after =>
            rw [hrun] at hlater
            rcases ih hlater with ⟨front, back, groups, rfl, hfront⟩
            refine ⟨first :: front, back, group :: groups, rfl, ?_⟩
            rw [List.mapM_cons, EStateM.run_bind, hrun]
            simp only [EStateM.run_bind, hfront]
            rfl

/--
Services are the same with their methods in other orders, if the methods of each one contest nothing
when its turn comes.
-/
theorem procedureGroups_reordered {services services' : List Service}
    (h : List.Forall₂ Service.Reorders services services')
    (hsound : ledger.Sound site.settings) (hlike : ledger.Like other)
    (hdistinct : ∀ service ∈ services, (service.methods.map Method.fullName).Nodup)
    (hbound : ∀ service ∈ services, ∀ method ∈ service.methods, site.BindsTypes ledger method)
    (hclear : ∀ turn ∈ site.turnsFrom ledger services,
      site.Uncontested turn.1 turn.2.methods) :
    LikeRuns Eq ((services.mapM site.procedureGroup).run ledger)
      ((services'.mapM site.procedureGroup).run other) := by
  induction h generalizing ledger other with
  | nil => exact .ok rfl hlike
  | @cons service service' rest rest' hservice _ ih =>
      rcases List.forall_mem_cons.mp hdistinct with ⟨hfirst, hothers⟩
      rcases List.forall_mem_cons.mp hbound with ⟨hfirstBound, hothersBound⟩
      rcases List.forall_mem_cons.mp hclear with ⟨hfirstClear, hothersClear⟩
      rw [List.mapM_cons, List.mapM_cons]
      refine (procedureGroup_reordered hservice hsound hlike hfirst hfirstClear hfirstBound).bind ?_
      rintro group _ after after' hrun rfl hlike
      rw [hrun] at hothersClear
      have hreaches := reaches_of_procedureGroup hsound hrun
      refine (ih hreaches.sound hlike hothers ?_ hothersClear).bind ?_
      · exact fun service hservice method hmethod =>
          (hothersBound service hservice method hmethod).extend hreaches.ext
      · rintro groups _ final final' - rfl hlike
        exact .ok rfl hlike

end Site

end ElmBinding
