import ElmBinding.Proofs.Module.Identifiers
import ElmBinding.Proofs.Module.Layout

/-!
# Modules are complete

A module has a union for every enumeration of its schema, a record for every message that is
no entry of a map, a choice for every declared oneof with members, and for every service the
procedures of its methods, whatever the depth of the declaration.  It has each of them once
and nothing else.  Comments are those of the declarations, and the definitions of each kind
stand in the order of their identifiers.

Main results:

- Definition {lit}`Layout.Mirrors`: definitions with the contents of their declarations.
- Definition {lit}`Module.Ascending`: modules with each kind of definition in order.
- Theorems {lit}`Module.Ascending.union?_eq_some_iff`, {lit}`Module.Ascending.choice?_eq_some_iff`
  and {lit}`Module.Ascending.record?_eq_some_iff`: look-ups in a module.
- Theorem {lit}`buildModule_complete`: what a module defines, and in which order.
-/

namespace ElmBinding

/-! ## Contents -/

/-- What a union tells about a value of its enumeration. -/
structure ValueOutline where
  label : String
  number : Int
  comments : Comments

/-- The outline of a value. -/
def EnumValue.outline (value : EnumValue) : ValueOutline :=
  ⟨value.name, value.number, value.comments⟩

/-- The outline of the value of a variant. -/
def Variant.outline (variant : Variant) : ValueOutline :=
  ⟨variant.label, variant.number, variant.comments⟩

/-- The outline of the value of an alias. -/
def VariantAlias.outline (nickname : VariantAlias) : ValueOutline :=
  ⟨nickname.label, nickname.number, nickname.comments⟩

/-- The outline of the value of a part of a union. -/
def UnionPart.outline : UnionPart → ValueOutline
  | variant part => part.outline
  | nickname part => part.outline

/-- A union that has each value of an enumeration as a variant or as an alias. -/
structure Union.Mirrors (union : Union) (enumeration : Enumeration) : Prop where
  values : (union.variants.map Variant.outline ++ union.aliases.map VariantAlias.outline).Perm
    (enumeration.values.map EnumValue.outline)
  comments : union.comments = enumeration.comments

/-- A procedure that is called like a method of a service. -/
structure Procedure.Mirrors (procedure : Procedure) (owner : Service) (source : Method) :
    Prop where
  method : procedure.method = source.name
  service : procedure.service = owner.fullName
  clientStreaming : procedure.clientStreaming = source.clientStreaming
  serverStreaming : procedure.serverStreaming = source.serverStreaming
  comments : procedure.comments = source.comments

/-- Procedures that stand one to one for the methods of a service. -/
structure ProcedureGroup.Mirrors (group : ProcedureGroup) (service : Service) : Prop where
  label : group.label = service.name
  fullName : group.fullName = service.fullName
  procedures : ∃ pairs, Pairing service.methods group.procedures pairs ∧
    ∀ pair ∈ pairs, pair.2.Mirrors service pair.1
  comments : group.comments = service.comments

/-- A layout in which definitions have the contents of their declarations. -/
structure Layout.Mirrors (layout : Layout) : Prop where
  unions : ∀ pair ∈ layout.unions, pair.2.Mirrors pair.1
  records : ∀ pair ∈ layout.recordPairs, pair.2.comments = pair.1.comments
  choices : ∀ pair ∈ layout.choicePairs, pair.2.comments = pair.1.1.comments
  fields : ∀ pair ∈ layout.fieldPairs,
    pair.2.number = some pair.1.number ∧ pair.2.comments = pair.1.comments
  services : ∀ pair ∈ layout.services, pair.2.Mirrors pair.1

/-- A module whose definitions ascend by identifier, and its services by label. -/
structure Module.Ascending (module : Module) : Prop where
  unions : module.unions.Pairwise fun a b => a.binding.id < b.binding.id
  choices : module.choices.Pairwise fun a b => a.binding.id < b.binding.id
  records : module.records.Pairwise fun a b => a.binding.id < b.binding.id
  services : module.services.Pairwise fun a b => a.label ≤ b.label
  procedures : ∀ group ∈ module.services, group.procedures.Pairwise fun a b => a.id < b.id

/-! ## Definitions mirror declarations -/

namespace Site

variable {site : Site} {ledger : Ledger}

/-- A part of a union has the outline of its value. -/
theorem HasPart.outline {placed : EnumValue × Option Nat} {part : UnionPart}
    (h : HasPart ledger placed part) : part.outline = placed.1.outline := by
  cases h with
  | variant hid => rfl
  | nickname hid => rfl

/-- A union has the values of its enumeration. -/
theorem HasUnion.mirrors {enumeration : Enumeration} {union : Union}
    (h : HasUnion ledger enumeration union) : union.Mirrors enumeration where
  values := by
    rcases h.parts with ⟨parts, hparts, hvariants, haliases⟩
    have houtlines : List.Forall₂ Eq (parts.map UnionPart.outline)
        ((placements enumeration.values).map fun placed => placed.1.outline) := by
      rw [List.forall₂_map_left_iff, List.forall₂_map_right_iff]
      exact hparts.flip.imp fun _ _ hpart => hpart.outline
    rw [List.forall₂_eq_eq_eq] at houtlines
    rw [hvariants, haliases, ← map_fst_placements enumeration.values, List.map_map]
    exact (UnionPart.map_perm UnionPart.outline parts).trans (List.Perm.of_eq houtlines)
  comments := h.comments

/-- A procedure is called like its method. -/
theorem HasProcedure.mirrors {service : Service} {method : Method} {procedure : Procedure}
    (h : site.HasProcedure ledger service.fullName method procedure) :
    procedure.Mirrors service method :=
  ⟨h.method, h.service, h.clientStreaming, h.serverStreaming, h.comments⟩

/-- The procedures of a service stand for its methods. -/
theorem HasGroup.mirrors {service : Service} {group : ProcedureGroup}
    (h : site.HasGroup ledger service group) : group.Mirrors service where
  label := h.label
  fullName := h.fullName
  procedures := by
    rcases h.exists_pairing with ⟨pairs, hpairing, hprocedures⟩
    exact ⟨pairs, hpairing, fun pair hpair => (hprocedures pair hpair).mirrors⟩
  comments := h.comments

end Site

/-- A layout whose pairs match has the contents of the declarations. -/
theorem Layout.Stems.mirrors {layout : Layout} {site : Site} {ledger : Ledger}
    (h : layout.Stems site ledger) : layout.Mirrors where
  unions pair hpair := (h.unions pair hpair).mirrors
  records := by
    intro pair hpair
    rcases List.mem_map.mp hpair with ⟨entry, hentry, rfl⟩
    exact (h.records entry hentry).comments
  choices := by
    intro pair hpair
    rcases List.mem_flatMap.mp hpair with ⟨entry, hentry, hpair⟩
    exact (RecordLayout.hasChoice_of_mem (h.records entry hentry) hpair).2.comments
  fields := by
    intro pair hpair
    rcases List.mem_flatMap.mp hpair with ⟨entry, hentry, hpair⟩
    have hplace := RecordLayout.hasPlace_of_mem (h.records entry hentry) hpair
    exact ⟨hplace.number, hplace.comments⟩
  services pair hpair := (h.services pair hpair).mirrors

/-! ## Order -/

/-- The definitions of a module are in order. -/
theorem ascending_of_build {settings : Settings} {schema : Schema} {module : Module}
    (h : buildModule settings schema = .ok module) : module.Ascending := by
  rcases buildModule_eq_ok_iff.mp h with ⟨-, registry, hregistry, hbuild⟩
  rcases Site.definitions_of_build hbuild with ⟨ledger, definitions, hsound, hdefinitions, rfl⟩
  have howned := hdefinitions.owned hsound (Registry.names_nodup_of_ofSchema hregistry)
  have hids := (definitions.localIds_toModule_perm (schema.moduleName settings)
    schema.packageName).nodup_iff.mpr howned.nodup
  rw [Module.localIds, List.nodup_append', List.nodup_append', List.nodup_append'] at hids
  rcases hids with ⟨⟨⟨hunions, hchoices, -⟩, hrecords, -⟩, hservices, -⟩
  exact {
    unions := Sequence.pairwise_lt_of_nodup (Sequence.pairwise_sortedBy _ _)
      (nodup_map_of_nodup_flatMap (fun union => ⟨_, rfl⟩) hunions)
    choices := Sequence.pairwise_lt_of_nodup (Sequence.pairwise_sortedBy _ _)
      (nodup_map_of_nodup_flatMap (fun choice => ⟨_, rfl⟩) hchoices)
    records := Sequence.pairwise_lt_of_nodup (Sequence.pairwise_sortedBy _ _)
      (nodup_map_of_nodup_flatMap (fun record => ⟨_, rfl⟩) hrecords)
    services := Sequence.pairwise_sortedBy _ _
    procedures := by
      intro group hgroup
      have hnodup := (List.nodup_flatMap.mp hservices).1 group hgroup
      have hmem := (Sequence.sortedBy_perm _ _).mem_iff.mp hgroup
      rcases exists_of_forall₂_of_mem hdefinitions.services hmem with ⟨service, -, hmade⟩
      rcases hmade.procedures with ⟨procedures, -, hsorted⟩
      apply Sequence.pairwise_lt_of_nodup _ hnodup
      rw [hsorted]
      exact Sequence.pairwise_sortedBy _ _ }

/-! ## Look-ups -/

namespace Module.Ascending

variable {module : Module} {id : String}

/-- A look-up of a union finds the one with the identifier. -/
theorem union?_eq_some_iff (h : module.Ascending) {union : Union} :
    module.union? id = some union ↔ union ∈ module.unions ∧ union.binding.id = id :=
  Sequence.find?_eq_some_iff_of_pairwise h.unions

/-- A look-up of a choice finds the one with the identifier. -/
theorem choice?_eq_some_iff (h : module.Ascending) {choice : Choice} :
    module.choice? id = some choice ↔ choice ∈ module.choices ∧ choice.binding.id = id :=
  Sequence.find?_eq_some_iff_of_pairwise h.choices

/-- A look-up of a record finds the one with the identifier. -/
theorem record?_eq_some_iff (h : module.Ascending) {record : Record} :
    module.record? id = some record ↔ record ∈ module.records ∧ record.binding.id = id :=
  Sequence.find?_eq_some_iff_of_pairwise h.records

end Module.Ascending

/-! ## Completeness -/

/--
A module defines one union for every enumeration of its schema, one record for every message
that is no entry of a map, one choice for every declared oneof with members, and one group of
procedures for every service, with the contents of the declarations and in order.
-/
theorem buildModule_complete {settings : Settings} {schema : Schema} {module : Module}
    (h : buildModule settings schema = .ok module) :
    ∃ layout, layoutOf settings schema = .ok layout ∧ layout.Lists schema module ∧
      layout.Mirrors ∧ module.Ascending := by
  rcases exists_layout h with ⟨layout, site, ledger, horigin⟩
  exact ⟨layout, horigin.layout_eq, horigin.lists, horigin.stems.mirrors, ascending_of_build h⟩

/-- A schema with nested types, an entry of a map, an empty oneof and a synthetic one. -/
def orchardSchema : Schema where
  messages := [{
    name := "Tree", fullName := "Tree", comments := { leading := "A tree." }
    fields := [
      { name := "marks", fullName := "Tree.marks", number := 1, cardinality := .repeated
        kind := .message { fullName := "Tree.MarksEntry" } },
      { name := "apple", fullName := "Tree.apple", number := 2, oneof := some 0
        kind := .message { fullName := "Tree.Apple" } },
      { name := "bark", fullName := "Tree.bark", number := 3, oneof := some 2
        kind := .enumeration { fullName := "Tree.Apple.Taste" }, tracksPresence := true }]
    oneofs := [
      { name := "fruit", fullName := "Tree.fruit", comments := { trailing := "What it bears." } },
      { name := "nothing", fullName := "Tree.nothing" },
      { name := "_bark", fullName := "Tree._bark", synthetic := true }]
    messages := [
      { name := "MarksEntry", fullName := "Tree.MarksEntry", mapEntry := true
        fields := [
          { name := "key", fullName := "Tree.MarksEntry.key", number := 1
            kind := .scalar .string },
          { name := "value", fullName := "Tree.MarksEntry.value", number := 2
            kind := .message { fullName := "Tree.Apple" } }] },
      { name := "Apple", fullName := "Tree.Apple"
        enums := [{
          name := "Taste", fullName := "Tree.Apple.Taste"
          values := [
            { name := "SWEET", fullName := "Tree.Apple.SWEET", number := 0 },
            { name := "SOUR", fullName := "Tree.Apple.SOUR", number := 1 }] }] }] }]
  services := [{
    name := "Orchard", fullName := "Orchard"
    methods := [
      { name := "Water", fullName := "Orchard.Water"
        input := { fullName := "Tree" }, output := { fullName := "Tree" } },
      { name := "Pick", fullName := "Orchard.Pick", serverStreaming := true
        input := { fullName := "Tree" }, output := { fullName := "Tree.Apple" } }] }]

/-- The orchard has a module. -/
theorem exists_module_orchardSchema :
    ∃ module, buildModule { collisionSuffix := "_" } orchardSchema = .ok module := by
  have hok : (buildModule { collisionSuffix := "_" } orchardSchema).isOk = true := by
    decide +kernel
  cases hmodule : buildModule { collisionSuffix := "_" } orchardSchema with
  | error error =>
      rw [hmodule] at hok
      contradiction
  | ok module => exact ⟨module, rfl⟩

/-- The module of the orchard is complete. -/
theorem buildModule_orchardSchema :
    ∃ module, buildModule { collisionSuffix := "_" } orchardSchema = .ok module ∧
      ∃ layout, layoutOf { collisionSuffix := "_" } orchardSchema = .ok layout ∧
        layout.Lists orchardSchema module ∧
        layout.Mirrors ∧ module.Ascending := by
  rcases exists_module_orchardSchema with ⟨module, hmodule⟩
  exact ⟨module, hmodule, buildModule_complete hmodule⟩

end ElmBinding
