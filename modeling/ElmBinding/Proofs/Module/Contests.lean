import ElmBinding.Proofs.Module.MethodOrder
import ElmBinding.Proofs.Naming.PlainKeys

/-!
# Contests between methods

Two methods contest a name if both would be given it when the turn of their service comes, or if
both would be refused.  Whichever of them is declared first decides about the module then.  If there
is a suffix, it is the one without; if there is none, it is the other one that is reported.  So the
order of methods matters for the module of a schema if and only if there is a contest.

Main results:

- Theorem {lit}`Site.contest_outcome`: what two orders of contesting methods lead to.
- Theorem {lit}`exists_ne_of_contested`: after a contest, some order has another result.
- Theorem {lit}`buildModule_methodOrder`: when the order of methods decides about the module.
-/

namespace ElmBinding

/-- In a list where two elements look alike, two such elements can be put in front. -/
theorem exists_perm_of_not_nodup_map {α β : Type} {look : α → β} {items : List α}
    (h : ¬(items.map look).Nodup) :
    ∃ first second rest, items.Perm (first :: second :: rest) ∧ look first = look second := by
  induction items with
  | nil => exact absurd List.nodup_nil h
  | cons a items ih =>
      by_cases hnew : look a ∈ items.map look
      · rcases List.mem_map.mp hnew with ⟨b, hb, hlook⟩
        rcases List.append_of_mem hb with ⟨before, behind, rfl⟩
        exact ⟨a, b, before ++ behind, List.perm_middle.cons a, hlook.symm⟩
      · have hrest : ¬(items.map look).Nodup := fun hnodup =>
          h (List.nodup_cons.mpr ⟨hnew, hnodup⟩)
        rcases ih hrest with ⟨first, second, rest, hperm, hlook⟩
        refine ⟨first, second, a :: rest, (hperm.cons a).trans ?_, hlook⟩
        exact (List.Perm.swap first a _).trans ((List.Perm.swap second a rest).cons first)

namespace Site

variable {site : Site} {ledger : Ledger} {package id : String} {front : List Service}
variable {first second : Method} {rest : List Method}

/-! ## Two methods -/

/-- Without a suffix, if two methods would be given one name, the later one is reported. -/
theorem exists_collision_of_contested (service : String) {first second : Method} {id : String}
    (hsound : ledger.Sound site.settings) (hempty : site.settings.collisionSuffix = "")
    (hne : first.fullName ≠ second.fullName) (hfirst : site.BindsTypes ledger first)
    (hsecond : site.BindsTypes ledger second) (hname : site.CanName second.fullName)
    (hgiven : site.valueIn ledger first.fullName = .ok id)
    (hsame : site.valueIn ledger second.fullName = .ok id) :
    ∃ candidate failed, ([first, second].mapM (site.procedure service)).run ledger =
      .error (.collision second.fullName candidate) failed := by
  rcases exists_run_of_valueIn hgiven with ⟨after, hrun⟩
  rcases refused_of_contested hsound hempty hne hrun hsame with ⟨error, hlater⟩
  have hreaches := (reaches_of_valueId hsound hrun).1
  rcases collision_of_valueIn hreaches.sound hname hlater with ⟨-, candidate, rfl⟩
  rcases run_pair_of_second_refused service hfirst hsecond hrun hlater with ⟨failed, hpair⟩
  exact ⟨candidate, failed, hpair⟩

/-- If the first one of two methods is refused, it is reported. -/
theorem exists_collision_of_refused (service : String) {first : Method} (second : Method)
    {error : BindingError} (hsound : ledger.Sound site.settings)
    (hfirst : site.BindsTypes ledger first) (hname : site.CanName first.fullName)
    (hrefused : site.valueIn ledger first.fullName = .error error) :
    ∃ candidate failed, ([first, second].mapM (site.procedure service)).run ledger =
      .error (.collision first.fullName candidate) failed := by
  rcases collision_of_valueIn hsound hname hrefused with ⟨-, candidate, rfl⟩
  rcases run_pair_of_first_refused service second hfirst hrefused with ⟨failed, hpair⟩
  exact ⟨candidate, failed, hpair⟩

/--
If two methods contest a name, then there is a suffix and both would be given the same name, or the
two orders end in different errors.
-/
theorem contest_outcome (service : String) (hsound : ledger.Sound site.settings)
    (hne : first.fullName ≠ second.fullName) (hfirst : site.BindsTypes ledger first)
    (hsecond : site.BindsTypes ledger second) (hname : site.CanName first.fullName)
    (hname' : site.CanName second.fullName)
    (hsame : (site.valueIn ledger first.fullName).toOption =
      (site.valueIn ledger second.fullName).toOption) :
    (site.settings.collisionSuffix ≠ "" ∧ ∃ id, site.valueIn ledger first.fullName = .ok id ∧
        site.valueIn ledger second.fullName = .ok id) ∨
      ∃ error error' failed failed', error ≠ error' ∧
        ([first, second].mapM (site.procedure service)).run ledger = .error error failed ∧
        ([second, first].mapM (site.procedure service)).run ledger = .error error' failed' := by
  cases hgiven : site.valueIn ledger first.fullName with
  | error error =>
      cases hgiven' : site.valueIn ledger second.fullName with
      | ok id => simp [hgiven, hgiven', Except.toOption] at hsame
      | error error' =>
          rcases exists_collision_of_refused service second hsound hfirst hname hgiven with
            ⟨candidate, failed, hpair⟩
          rcases exists_collision_of_refused service first hsound hsecond hname' hgiven' with
            ⟨candidate', failed', hpair'⟩
          exact Or.inr ⟨_, _, failed, failed', by simp [hne], hpair, hpair'⟩
  | ok id =>
      have hgiven' : site.valueIn ledger second.fullName = .ok id := by
        cases hother : site.valueIn ledger second.fullName with
        | error error' => simp [hgiven, hother, Except.toOption] at hsame
        | ok id' =>
            simp only [hgiven, hother, Except.toOption, Option.some.injEq] at hsame
            rw [hsame]
      by_cases hempty : site.settings.collisionSuffix = ""
      · rcases exists_collision_of_contested service hsound hempty hne hfirst hsecond hname' hgiven
          hgiven' with ⟨candidate, failed, hpair⟩
        rcases exists_collision_of_contested service hsound hempty hne.symm hsecond hfirst hname
          hgiven' hgiven with ⟨candidate', failed', hpair'⟩
        exact Or.inr ⟨_, _, failed, failed', by simp [hne.symm], hpair, hpair'⟩
      · exact Or.inl ⟨hempty, id, rfl, hgiven'⟩

/-! ## A service and those behind it -/

/-- The ledger after the types of a site and some services have been named. -/
def Named (site : Site) (front : List Service) (ledger : Ledger) : Prop :=
  ∃ types typed groups, site.typeDefinitions.run (.blank site.settings) = .ok types typed ∧
    (front.mapM site.procedureGroup).run typed = .ok groups ledger

/-- The turn of a service comes when those in front of it have been named. -/
theorem exists_named_of_mem_turns {service : Service} (h : (ledger, service) ∈ site.turns) :
    ∃ front back, Sequence.sortedBy Service.fullName site.registry.services =
      front ++ service :: back ∧ site.Named front ledger := by
  unfold turns at h
  cases htypes : site.typeDefinitions.run (.blank site.settings) with
  | error error failed => simp [htypes] at h
  | ok types typed =>
      rw [htypes] at h
      rcases exists_of_mem_turnsFrom h with ⟨front, back, groups, hsplit, hfront⟩
      exact ⟨front, back, hsplit, types, typed, groups, htypes, hfront⟩

/-- The ledger after some services is sound. -/
theorem Named.sound (h : site.Named front ledger) : ledger.Sound site.settings := by
  rcases h with ⟨types, typed, groups, htypes, hfront⟩
  exact (reaches_of_procedureGroups (bound_of_typeDefinitions htypes).1 hfront).sound

/-- After some services, the types of methods are bound. -/
theorem Named.bindsTypes (h : site.Named front ledger) (hdefines : site.definesTypes = true)
    {service : Service} (hservice : service ∈ site.registry.services) {method : Method}
    (hmethod : method ∈ service.methods) : site.BindsTypes ledger method := by
  rcases h with ⟨types, typed, groups, htypes, hfront⟩
  have hreaches := reaches_of_procedureGroups (bound_of_typeDefinitions htypes).1 hfront
  exact (bindsTypes_of_typeDefinitions htypes hdefines hservice hmethod).extend hreaches.ext

/-- The module depends on what becomes of the services that are left. -/
theorem Named.buildWith_eq (h : site.Named front ledger) (package : String) :
    ∃ (types : Definitions) (groups : List ProcedureGroup), ∀ services,
      site.buildWith (front ++ services) package =
        match (services.mapM site.procedureGroup).run ledger with
        | .ok others _ =>
            .ok (({ types with services := groups ++ others } : Definitions).toModule
              site.module package)
        | .error error _ => .error error := by
  rcases h with ⟨types, typed, groups, htypes, hfront⟩
  refine ⟨types, groups, fun services => ?_⟩
  unfold buildWith definitionsWith
  rw [EStateM.run_bind, htypes, List.mapM_append]
  simp only [EStateM.run_bind, hfront]
  cases (services.mapM site.procedureGroup).run ledger <;> rfl

/-- An error of the first two methods of a service is that of the module. -/
theorem buildWith_of_failed_pair {service : Service} {back : List Service} {error : BindingError}
    {failed : Ledger} (h : site.Named front ledger)
    (hmethods : service.methods = first :: second :: rest)
    (hpair : ([first, second].mapM (site.procedure service.fullName)).run ledger =
      .error error failed) :
    site.buildWith (front ++ service :: back) package = .error error := by
  have hgroup : (site.procedureGroup service).run ledger = .error error failed := by
    have hsplit : first :: second :: rest = [first, second] ++ rest := rfl
    rw [procedureGroup, hmethods, hsplit, List.mapM_append]
    simp only [EStateM.run_bind, hpair]
  rcases h.buildWith_eq package with ⟨types, groups, hbuild⟩
  rw [hbuild, List.mapM_cons, EStateM.run_bind, hgroup]

/-- The first method of a service gets what it would be given when the turn has come. -/
theorem exists_first_procedure {service : Service} {after : Ledger} {group : ProcedureGroup}
    (hbound : site.BindsTypes ledger first) (hmethods : service.methods = first :: rest)
    (hgiven : site.valueIn ledger first.fullName = .ok id)
    (h : (site.procedureGroup service).run ledger = .ok group after) :
    ∃ procedure ∈ group.procedures, procedure.id = id ∧ procedure.method = first.name := by
  rcases exists_run_of_valueIn hgiven with ⟨named, hnamed⟩
  rcases hbound with ⟨⟨input, hinput⟩, output, houtput⟩
  have hprocedure : (site.procedure service.fullName first).run ledger =
      .ok (procedureOf service.fullName first id input output) named := by
    rw [run_procedure hinput houtput, hnamed]
  rw [procedureGroup, hmethods, List.mapM_cons] at h
  simp only [EStateM.run_bind, hprocedure] at h
  cases hrest : (rest.mapM (site.procedure service.fullName)).run named with
  | error error failed => simp [hrest] at h
  | ok procedures final =>
      simp only [hrest] at h
      obtain ⟨rfl, -⟩ := EStateM.Result.ok.inj h
      refine ⟨procedureOf service.fullName first id input output, ?_, rfl, rfl⟩
      exact (Sequence.sortedBy_perm _ _).mem_iff.mpr List.mem_cons_self

/-- With a suffix, the methods of services become procedures if all names can be given out. -/
theorem exists_procedureGroups {services : List Service} (hsound : ledger.Sound site.settings)
    (hsuffix : site.settings.collisionSuffix ≠ "")
    (hall : ∀ fullName, site.registry.isRegistered fullName = true → site.CanName fullName)
    (hregistered : ∀ service ∈ services, ∀ method ∈ service.methods,
      site.registry.isRegistered method.fullName = true) :
    ∃ groups after, (services.mapM site.procedureGroup).run ledger = .ok groups after := by
  have hcovers : site.CoversTypes fun _ => False := by
    intro fullName hregistered
    exact ⟨fun hinsane => absurd (hall fullName hregistered) hinsane,
      fun hempty => absurd hempty hsuffix⟩
  have hstep : ∀ service ∈ services, ∀ ledger, ledger.Sound site.settings →
      Ensures site.settings (site.procedureGroup service) ledger
        (fun group after => site.HasGroup after service group) fun _ => False :=
    fun service hservice ledger hsound => procedureGroup_ensures hsound hcovers
      fun method hmethod => hcovers _ (hregistered service hservice method hmethod)
  have hensures := ensures_mapM hstep HasGroup.extend hsound
  rw [Ensures] at hensures
  cases hrun : (services.mapM site.procedureGroup).run ledger with
  | ok groups after => exact ⟨groups, after, rfl⟩
  | error error failed =>
      rw [hrun] at hensures
      exact absurd hensures.2 not_false

/--
With a suffix, services whose methods can be named are part of a module, and the first method gets
what it would be given when the turn of its service has come.
-/
theorem exists_buildWith (package : String) {service : Service} {back : List Service}
    (h : site.Named front ledger) (hsuffix : site.settings.collisionSuffix ≠ "")
    (hall : ∀ fullName, site.registry.isRegistered fullName = true → site.CanName fullName)
    (hregistered : ∀ other ∈ service :: back, ∀ method ∈ other.methods,
      site.registry.isRegistered method.fullName = true)
    (hbound : site.BindsTypes ledger first) (hmethods : service.methods = first :: rest)
    (hgiven : site.valueIn ledger first.fullName = .ok id) :
    ∃ module, site.buildWith (front ++ service :: back) package = .ok module ∧
      ∃ procedure ∈ module.services.flatMap ProcedureGroup.procedures,
        procedure.id = id ∧ procedure.method = first.name := by
  rcases exists_procedureGroups h.sound hsuffix hall hregistered with ⟨others, final, hrun⟩
  rcases h.buildWith_eq package with ⟨types, groups, hbuild⟩
  refine ⟨_, by rw [hbuild, hrun], ?_⟩
  rw [List.mapM_cons, EStateM.run_bind] at hrun
  cases hgroup : (site.procedureGroup service).run ledger with
  | error error failed => simp [hgroup] at hrun
  | ok group after =>
      simp only [hgroup, EStateM.run_bind] at hrun
      cases hback : (back.mapM site.procedureGroup).run after with
      | error error failed => simp [hback] at hrun
      | ok later final =>
          simp only [hback] at hrun
          obtain ⟨rfl, -⟩ := EStateM.Result.ok.inj hrun
          rcases exists_first_procedure hbound hmethods hgiven hgroup with
            ⟨procedure, hmem, hid, hmethod⟩
          refine ⟨procedure, List.mem_flatMap.mpr ⟨group, ?_, hmem⟩, hid, hmethod⟩
          exact (Sequence.sortedBy_perm _ _).mem_iff.mpr (by simp)

end Site

/-! ## Modules -/

/-- The identifiers that a module defines are distinct. -/
theorem localIds_nodup_of_buildModule {settings : Settings} {schema : Schema} {module : Module}
    (h : buildModule settings schema = .ok module) : module.localIds.Nodup := by
  rcases buildModule_eq_ok_iff.mp h with ⟨-, registry, hregistry, hbuild⟩
  rcases Site.definitions_of_build hbuild with ⟨ledger, definitions, hsound, hdefinitions, rfl⟩
  have howned := hdefinitions.owned hsound (Registry.names_nodup_of_ofSchema hregistry)
  exact (howned.perm (definitions.localIds_toModule_perm _ _)).nodup

/-- A procedure of a module is known by its identifier. -/
theorem procedure_eq_of_id {module : Module} {procedure procedure' : Procedure}
    (hids : module.localIds.Nodup)
    (h : procedure ∈ module.services.flatMap ProcedureGroup.procedures)
    (h' : procedure' ∈ module.services.flatMap ProcedureGroup.procedures)
    (hid : procedure.id = procedure'.id) : procedure = procedure' := by
  have hservices := (List.nodup_append'.mp hids).2.1
  have hmap : module.services.flatMap ProcedureGroup.ids =
      (module.services.flatMap ProcedureGroup.procedures).map Procedure.id := by
    rw [List.map_flatMap]
    rfl
  rw [hmap] at hservices
  exact List.inj_on_of_nodup_map hservices h h' hid

namespace Schema

variable {schema : Schema} {service : Service} {methods : List Method}

/-- A schema where a service has other methods. -/
def withMethods (schema : Schema) (fullName : String) (methods : List Method) : Schema :=
  { schema with
    services := schema.services.map fun service =>
      if service.fullName = fullName then { service with methods } else service }

/-- With its methods in another order, a service makes a reordered schema. -/
theorem reordersMethods_withMethods (hdistinct : (schema.services.map Service.fullName).Nodup)
    (hservice : service ∈ schema.services) (hperm : service.methods.Perm methods) :
    schema.ReordersMethods (schema.withMethods service.fullName methods) where
  fileName := rfl
  dialect := rfl
  package := rfl
  messages := rfl
  enums := rfl
  services := by
    rw [withMethods, List.forall₂_map_right_iff, List.forall₂_same]
    intro other hother
    split
    · rename_i hname
      obtain rfl := List.inj_on_of_nodup_map hdistinct hother hservice hname
      exact ⟨rfl, rfl, rfl, hperm⟩
    · exact .refl other

/-- A service with other methods has the same place among the services. -/
theorem sortedBy_withMethods {front back : List Service}
    (hdistinct : (schema.services.map Service.fullName).Nodup)
    (h : Sequence.sortedBy Service.fullName schema.services = front ++ service :: back)
    (methods : List Method) :
    Sequence.sortedBy Service.fullName (schema.withMethods service.fullName methods).services =
      front ++ { service with methods } :: back := by
  have hperm := (Sequence.sortedBy_perm Service.fullName schema.services).map Service.fullName
  have hnames := hperm.nodup_iff.mpr hdistinct
  rw [h, List.map_append, List.map_cons, List.nodup_middle, List.nodup_cons] at hnames
  have hothers : ∀ others : List Service, (∀ other ∈ others, other ∈ front ++ back) →
      (others.map fun other : Service =>
        if other.fullName = service.fullName then { other with methods } else other) = others := by
    intro others hmem
    refine (List.map_congr_left fun other hother => if_neg fun hname => hnames.1 ?_).trans
      (List.map_id others)
    rw [← hname, ← List.map_append]
    exact List.mem_map_of_mem (hmem other hother)
  rw [withMethods, Sequence.sortedBy_map, h, List.map_append, List.map_cons, if_pos rfl,
    hothers front fun other => List.mem_append_left back,
    hothers back fun other => List.mem_append_right front]
  intro other
  split <;> rfl

end Schema

variable {settings : Settings} {schema : Schema} {registry : Registry}

/-- If the first two methods contest a name when their turn comes, their order matters. -/
theorem Site.buildWith_ne_of_contest {site : Site} {ledger : Ledger} {package : String}
    {front back : List Service} {service : Service} {first second : Method} {rest : List Method}
    (h : site.Named front ledger)
    (hall : ∀ fullName, site.registry.isRegistered fullName = true → site.CanName fullName)
    (hregistered : ∀ other ∈ service :: back, ∀ method ∈ other.methods,
      site.registry.isRegistered method.fullName = true)
    (hbound : ∀ method ∈ service.methods, site.BindsTypes ledger method)
    (hperm : service.methods.Perm (first :: second :: rest))
    (hne : first.fullName ≠ second.fullName) (hname : first.name ≠ second.name)
    (hsame : (site.valueIn ledger first.fullName).toOption =
      (site.valueIn ledger second.fullName).toOption)
    (hids : ∀ methods module, service.methods.Perm methods →
      site.buildWith (front ++ { service with methods } :: back) package = .ok module →
      module.localIds.Nodup) :
    site.buildWith (front ++ { service with methods := first :: second :: rest } :: back) package ≠
      site.buildWith (front ++ { service with methods := second :: first :: rest } :: back)
        package := by
  have hswap := hperm.trans (List.Perm.swap second first rest)
  have hfirst : first ∈ service.methods := hperm.mem_iff.mpr (by simp)
  have hsecond : second ∈ service.methods := hperm.mem_iff.mpr (by simp)
  have hmethod : ∀ method ∈ service.methods, site.CanName method.fullName := fun method hmethod =>
    hall _ (hregistered service List.mem_cons_self method hmethod)
  rcases contest_outcome service.fullName h.sound hne (hbound first hfirst) (hbound second hsecond)
    (hmethod first hfirst) (hmethod second hsecond) hsame with
    ⟨hsuffix, id, hgiven, hgiven'⟩ | ⟨error, error', failed, failed', hdiffer, hpair, hpair'⟩
  · have hregistered' : ∀ methods, service.methods.Perm methods →
        ∀ other ∈ { service with methods } :: back, ∀ method ∈ other.methods,
          site.registry.isRegistered method.fullName = true := by
      intro methods hmethods other hother method hmethod
      rcases List.mem_cons.mp hother with rfl | hother
      · exact hregistered service List.mem_cons_self method (hmethods.mem_iff.mpr hmethod)
      · exact hregistered other (List.mem_cons_of_mem _ hother) method hmethod
    rcases exists_buildWith package h hsuffix hall (hregistered' _ hperm)
      (hbound first hfirst) rfl hgiven with ⟨module, hmodule, procedure, hmem, hid, hlabel⟩
    rcases exists_buildWith package h hsuffix hall (hregistered' _ hswap)
      (hbound second hsecond) rfl hgiven' with
      ⟨module', hmodule', procedure', hmem', hid', hlabel'⟩
    intro heq
    rw [hmodule, hmodule', Except.ok.injEq] at heq
    subst heq
    -- In one module, the two procedures with the contested identifier are the same.
    have hsameProcedure := procedure_eq_of_id (hids _ _ hperm hmodule) hmem hmem'
      (hid.trans hid'.symm)
    exact hname (hlabel.symm.trans ((congrArg Procedure.method hsameProcedure).trans hlabel'))
  · have hfailed : site.buildWith
        (front ++ { service with methods := first :: second :: rest } :: back) package =
          .error error := buildWith_of_failed_pair h rfl hpair
    have hfailed' : site.buildWith
        (front ++ { service with methods := second :: first :: rest } :: back) package =
          .error error' := buildWith_of_failed_pair h rfl hpair'
    rw [hfailed, hfailed']
    exact fun heq => hdiffer (Except.error.inj heq)

/-- A service with its methods in another order makes a reordered schema, built at the same site. -/
theorem buildModule_withMethods {front back : List Service} {service : Service}
    (hcheck : settings.check = .ok ())
    (hregistry : Registry.ofSchema settings schema.packageName schema = .ok registry)
    (hsplit : Sequence.sortedBy Service.fullName registry.services = front ++ service :: back)
    {methods : List Method} (hperm : service.methods.Perm methods) :
    schema.ReordersMethods (schema.withMethods service.fullName methods) ∧
      buildModule settings (schema.withMethods service.fullName methods) =
        (⟨registry, settings, schema.moduleName settings⟩ : Site).buildWith
          (front ++ { service with methods } :: back) schema.packageName := by
  have hdistinct := Catalog.services_nodup (Registry.names_nodup_of_ofSchema hregistry)
  rw [Registry.services_eq hregistry] at hdistinct hsplit
  have hservice : service ∈ schema.services :=
    (Sequence.sortedBy_perm Service.fullName _).mem_iff.mp (hsplit ▸ by simp)
  have hreorders := Schema.reordersMethods_withMethods hdistinct hservice hperm
  refine ⟨hreorders, ?_⟩
  rw [buildModule_eq_buildWith hcheck hregistry hreorders,
    Schema.sortedBy_withMethods hdistinct hsplit]

/--
If methods contest a name when the turn of their service comes, then some order of the methods of
this service leads to another module, or to another error.
-/
theorem exists_ne_of_contested (hcheck : settings.check = .ok ())
    (hregistry : Registry.ofSchema settings schema.packageName schema = .ok registry)
    (hdefines : Site.definesTypes ⟨registry, settings, schema.moduleName settings⟩ = true)
    (hplain : schema.isPlain = true)
    (hmethodNames : ∀ service ∈ schema.services, (service.methods.map Method.name).Nodup)
    (h : Site.Contested ⟨registry, settings, schema.moduleName settings⟩) :
    ∃ other, schema.ReordersMethods other ∧
      buildModule settings other ≠ buildModule settings schema := by
  rcases h with ⟨⟨ledger, service⟩, hturn, hcontest⟩
  rcases Site.exists_named_of_mem_turns hturn with ⟨front, back, hsplit, hnamed⟩
  rcases exists_perm_of_not_nodup_map hcontest with ⟨first, second, rest, hperm, hsame⟩
  have hmem : ∀ other ∈ service :: back, other ∈ registry.services := fun other hother =>
    (Sequence.sortedBy_perm Service.fullName _).mem_iff.mp
      (hsplit ▸ List.mem_append_right front hother)
  have hservice := hmem service List.mem_cons_self
  have hswap := hperm.trans (List.Perm.swap second first rest)
  rcases buildModule_withMethods hcheck hregistry hsplit hperm with ⟨hthere, hbuild⟩
  rcases buildModule_withMethods hcheck hregistry hsplit hswap with ⟨hhere, hbuild'⟩
  have hne : buildModule settings (schema.withMethods service.fullName (first :: second :: rest)) ≠
      buildModule settings (schema.withMethods service.fullName (second :: first :: rest)) := by
    have hfullNames := (hperm.map Method.fullName).nodup_iff.mp
      (Site.methodNames_nodup (Registry.names_nodup_of_ofSchema hregistry) hservice)
    have hlabels := (hperm.map Method.name).nodup_iff.mp
      (hmethodNames service (Registry.services_eq hregistry ▸ hservice))
    rcases isFragment_of_check hcheck with ⟨hseparator, hsuffix⟩
    rw [hbuild, hbuild']
    refine Site.buildWith_ne_of_contest hnamed ?_ ?_ ?_ hperm ?_ ?_ hsame ?_
    · exact fun fullName hregistered =>
        Site.canName_of_isPlain hregistry hplain hseparator hsuffix hregistered
    · exact fun other hother method hmethod =>
        Registry.isRegistered_of_method hregistry
          (Registry.services_eq hregistry ▸ hmem other hother) hmethod
    · exact fun method hmethod => hnamed.bindsTypes hdefines hservice hmethod
    · exact fun heq => (List.nodup_cons.mp hfullNames).1 (heq ▸ List.mem_cons_self)
    · exact fun heq => (List.nodup_cons.mp hlabels).1 (heq ▸ List.mem_cons_self)
    · intro methods module hmethods hmodule
      rw [← (buildModule_withMethods hcheck hregistry hsplit hmethods).2] at hmodule
      exact localIds_nodup_of_buildModule hmodule
  by_cases hsameModule : buildModule settings
      (schema.withMethods service.fullName (first :: second :: rest)) = buildModule settings schema
  · exact ⟨_, hhere, fun heq => hne (hsameModule.trans heq.symm)⟩
  · exact ⟨_, hthere, hsameModule⟩

/--
If the types of methods are defined, the order of methods matters if and only if some methods
contest a name when the turn of their service comes.  If none do, every reordered schema has the
same module, or fails with the same error.  If some do, a reordered schema has another result.
-/
theorem buildModule_methodOrder
    (hregistry : Registry.ofSchema settings schema.packageName schema = .ok registry)
    (hdefines : Site.definesTypes ⟨registry, settings, schema.moduleName settings⟩ = true) :
    (¬Site.Contested ⟨registry, settings, schema.moduleName settings⟩ →
        ∀ other, schema.ReordersMethods other →
          buildModule settings other = buildModule settings schema) ∧
      (Site.Contested ⟨registry, settings, schema.moduleName settings⟩ →
        settings.check = .ok () → schema.isPlain = true →
        (∀ service ∈ schema.services, (service.methods.map Method.name).Nodup) →
          ∃ other, schema.ReordersMethods other ∧
            buildModule settings other ≠ buildModule settings schema) := by
  constructor
  · intro hclear other hreorders
    cases hcheck : settings.check with
    | error broken => rw [buildModule_of_illegal hcheck, buildModule_of_illegal hcheck]
    | ok checked =>
        have hsorted := Sequence.forall₂_sortedBy (fun h => Service.Reorders.fullName h)
          hreorders.services
        rw [← Registry.services_eq hregistry] at hsorted
        rw [buildModule_eq_buildWith hcheck hregistry hreorders,
          buildModule_of_registry hcheck hregistry, Site.build_eq_buildWith]
        exact Site.buildWith_of_not_contested (Registry.names_nodup_of_ofSchema hregistry) hdefines
          hclear hsorted
  · intro hcontested hcheck hplain hmethodNames
    exact exists_ne_of_contested hcheck hregistry hdefines hplain hmethodNames hcontested

/-- A schema with a service whose two methods want one name. -/
def cacheSchema : Schema where
  messages := [{ name := "Key", fullName := "Key" }]
  services := [{
    name := "Cache", fullName := "Cache"
    methods := [
      { name := "Get", fullName := "Cache.Get"
        input := { fullName := "Key" }, output := { fullName := "Key" } },
      { name := "get", fullName := "Cache.get"
        input := { fullName := "Key" }, output := { fullName := "Key" } }] }]

/-- The registry of the schema with methods that want one name. -/
def cacheRegistry : Registry where
  toCatalog := cacheSchema.catalog { collisionSuffix := "_" } cacheSchema.packageName
  distinct := by decide +kernel

/-- The site of the schema with methods that want one name. -/
def cacheSite : Site :=
  ⟨cacheRegistry, { collisionSuffix := "_" }, cacheSchema.moduleName { collisionSuffix := "_" }⟩

/-- The same schema with methods that want different names. -/
def queueSchema : Schema where
  messages := [{ name := "Key", fullName := "Key" }]
  services := [{
    name := "Queue", fullName := "Queue"
    methods := [
      { name := "Push", fullName := "Queue.Push"
        input := { fullName := "Key" }, output := { fullName := "Key" } },
      { name := "pop", fullName := "Queue.pop"
        input := { fullName := "Key" }, output := { fullName := "Key" } }] }]

/-- The registry of the schema with methods that want different names. -/
def queueRegistry : Registry where
  toCatalog := queueSchema.catalog { collisionSuffix := "_" } queueSchema.packageName
  distinct := by decide +kernel

/-- The site of the schema with methods that want different names. -/
def queueSite : Site :=
  ⟨queueRegistry, { collisionSuffix := "_" }, queueSchema.moduleName { collisionSuffix := "_" }⟩

/-- The methods of the cache may not change places, those of the queue may. -/
theorem buildModule_methodOrder_with_and_without_contest :
    (Registry.ofSchema { collisionSuffix := "_" } cacheSchema.packageName cacheSchema =
        .ok cacheRegistry ∧
      cacheSite.definesTypes = true ∧ cacheSite.Contested ∧ cacheSite.settings.check = .ok () ∧
      cacheSchema.isPlain = true ∧
      (∀ service ∈ cacheSchema.services, (service.methods.map Method.name).Nodup) ∧
      ∃ other, cacheSchema.ReordersMethods other ∧
        buildModule { collisionSuffix := "_" } other ≠
          buildModule { collisionSuffix := "_" } cacheSchema) ∧
    Registry.ofSchema { collisionSuffix := "_" } queueSchema.packageName queueSchema =
        .ok queueRegistry ∧
      queueSite.definesTypes = true ∧ ¬queueSite.Contested ∧
      ∀ other, queueSchema.ReordersMethods other →
        buildModule { collisionSuffix := "_" } other =
          buildModule { collisionSuffix := "_" } queueSchema := by
  have hcache : Registry.ofSchema { collisionSuffix := "_" } cacheSchema.packageName cacheSchema =
      .ok cacheRegistry := Registry.ofSchema_eq_ok_iff.mpr rfl
  have hqueue : Registry.ofSchema { collisionSuffix := "_" } queueSchema.packageName queueSchema =
      .ok queueRegistry := Registry.ofSchema_eq_ok_iff.mpr rfl
  have hdefines : cacheSite.definesTypes = true := by decide +kernel
  have hdefines' : queueSite.definesTypes = true := by decide +kernel
  have hcontested : cacheSite.Contested := by decide +kernel
  have hclear : ¬queueSite.Contested := by decide +kernel
  have hcheck : cacheSite.settings.check = .ok () := by decide +kernel
  have hplain : cacheSchema.isPlain = true := by decide +kernel
  have hnames : ∀ service ∈ cacheSchema.services, (service.methods.map Method.name).Nodup := by
    decide +kernel
  constructor
  · exact ⟨hcache, hdefines, hcontested, hcheck, hplain, hnames,
      (buildModule_methodOrder hcache hdefines).2 hcontested hcheck hplain hnames⟩
  · exact ⟨hqueue, hdefines', hclear, (buildModule_methodOrder hqueue hdefines').1 hclear⟩

end ElmBinding
