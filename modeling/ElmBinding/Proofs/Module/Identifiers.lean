import ElmBinding.Proofs.Module.Definitions
import ElmBinding.Proofs.Module.Slots
import ElmBinding.Proofs.Naming.Ownership
import Mathlib.Data.List.Flatten

/-!
# The identifiers of a module

Every identifier that a module defines is owned by one of the declarations behind the module:
the identifiers of a union by the enumeration and its values, those of a record and its
choices by the message, its oneofs and their members, those of a service by its methods.  The
names of declarations are distinct, so the identifiers are.

Main results:

- Theorems {lit}`Site.HasUnion.owned`, {lit}`Site.HasRecord.owned`,
  {lit}`Site.HasGroup.owned`: who owns the identifiers of a definition.
- Theorem {lit}`Site.HasDefinitions.owned`: who owns those of all definitions.
- Theorem {lit}`localIds_nodup_and_legal`: no identifier of a module clashes.
-/

namespace ElmBinding

variable {site : Site} {ledger : Ledger} {settings : Settings}

/-! ## Parts of unions -/

/-- The identifier of a named value. -/
def UnionPart.id : UnionPart → String
  | variant part => part.id
  | nickname part => part.id

/-- What variants and aliases have, the parts have that they come from. -/
theorem UnionPart.map_perm {α : Type} (has : UnionPart → α) (parts : List UnionPart) :
    ((parts.filterMap variant?).map (fun part => has (.variant part)) ++
      (parts.filterMap alias?).map fun part => has (.nickname part)).Perm (parts.map has) := by
  induction parts with
  | nil => exact List.Perm.refl _
  | cons part rest ih =>
      cases part with
      | variant part => exact ih.cons (has (.variant part))
      | nickname part => exact List.perm_middle.trans (ih.cons (has (.nickname part)))

namespace Site

/-! ## Owners -/

/-- The identifiers of a union are owned by its enumeration and the values. -/
theorem HasUnion.owned {enumeration : Enumeration} {union : Union}
    (hunion : HasUnion ledger enumeration union) (hsound : ledger.Sound settings)
    (hnames : enumeration.names.Nodup) : ledger.Owned union.ids enumeration.names := by
  rcases hunion.parts with ⟨parts, hparts, hvariants, haliases⟩
  have hvalues : (placements enumeration.values).flatMap (fun placed => [placed.1.fullName]) =
      enumeration.values.map EnumValue.fullName := by
    rw [← List.map_eq_flatMap, ← map_fst_placements enumeration.values, List.map_map]
    rw [map_fst_placements]
    rfl
  have hstep : ∀ placed part, HasPart ledger placed part → [placed.1.fullName].Nodup →
      ledger.Owned [part.id] [placed.1.fullName] := by
    intro placed part hpart _
    cases hpart with
    | variant hid => exact Ledger.owned_typeId hid
    | nickname hid => exact Ledger.owned_valueId hid
  have hpartIds := Ledger.Owned.flatMap hsound hparts hstep
    (by rw [hvalues]; exact (List.nodup_cons.mp hnames).2)
  rw [hvalues, ← List.map_eq_flatMap] at hpartIds
  have hids := (hsound.owned_binding hunion.binding).append hsound
    (hpartIds.perm (UnionPart.map_perm UnionPart.id parts))
    (List.singleton_disjoint.mpr (List.nodup_cons.mp hnames).1)
  rw [Union.ids, hvariants, haliases, List.append_assoc]
  exact hids

/-- The identifiers of a choice are owned by its oneof and the members. -/
theorem HasChoice.owned {oneof : Oneof} {members : List Field} {choice : Choice}
    (hchoice : site.HasChoice ledger oneof members choice) (hsound : ledger.Sound settings)
    (hnames : (Slot.choice oneof members).names.Nodup) :
    ledger.Owned choice.ids (Slot.choice oneof members).names := by
  rcases List.nodup_cons.mp hnames with ⟨hfresh, hmembers⟩
  rw [List.map_eq_flatMap] at hmembers
  have hstep : ∀ member variant, site.HasVariant ledger member variant →
      [member.fullName].Nodup → ledger.Owned [variant.id] [member.fullName] := by
    intro member variant hvariant _
    exact Ledger.owned_typeId hvariant.id
  have hvariants := Ledger.Owned.flatMap hsound hchoice.variants hstep hmembers
  rw [← List.map_eq_flatMap, ← List.map_eq_flatMap] at hvariants
  exact (hsound.owned_binding hchoice.binding).append hsound hvariants
    (List.singleton_disjoint.mpr hfresh)

/-- The identifiers of a slot are owned by the oneof of its choice and the members. -/
theorem HasSlot.owned {slot : Slot} {made : RecordField × Option Choice}
    (hslot : site.HasSlot ledger slot made) (hsound : ledger.Sound settings)
    (hnames : slot.names.Nodup) :
    ledger.Owned (made.2.toList.flatMap Choice.ids) slot.names := by
  cases hslot with
  | plain hfield => exact Ledger.owned_nil _
  | optional helement => exact Ledger.owned_nil _
  | choice hchoice =>
      rw [Option.toList_some, List.flatMap_singleton]
      exact hchoice.owned hsound hnames

/-- The identifiers that a message becomes. -/
def recordIds (made : Record × List Choice) : List String :=
  made.1.binding.names ++ made.2.flatMap Choice.ids

/-- The identifiers of a record and its choices are owned by the message and its oneofs. -/
theorem HasRecord.owned {message : Message} {made : Record × List Choice}
    (hrecord : site.HasRecord ledger message made) (hsound : ledger.Sound settings)
    (hnames : message.names.Nodup) : ledger.Owned (recordIds made) message.names := by
  rcases hrecord.slots with ⟨fields, hslots, -, hchoices⟩
  rcases List.nodup_cons.mp hnames with ⟨hfresh, -⟩
  have hstep : ∀ slot field, site.HasSlot ledger slot field → slot.names.Nodup →
      ledger.Owned (field.2.toList.flatMap Choice.ids) slot.names := by
    intro slot field hslot hslotNames
    exact hslot.owned hsound hslotNames
  have hslotIds := Ledger.Owned.flatMap hsound hslots hstep (Message.slots_names_nodup hnames)
  have hids : fields.flatMap (fun field => field.2.toList.flatMap Choice.ids) =
      made.2.flatMap Choice.ids := by
    rw [hchoices, List.filterMap_eq_flatMap_toList, List.flatMap_assoc]
  rw [hids] at hslotIds
  exact (hsound.owned_binding hrecord.binding).append hsound
    (hslotIds.mono Message.slots_names_subset) (List.singleton_disjoint.mpr hfresh)

/-- The identifiers of procedures are owned by their methods. -/
theorem owned_procedures {owner : String} {methods : List Method} {procedures : List Procedure}
    (hprocedures : List.Forall₂ (site.HasProcedure ledger owner) methods procedures)
    (hsound : ledger.Sound settings) (hnames : (methods.map Method.fullName).Nodup) :
    ledger.Owned (procedures.map Procedure.id) (methods.map Method.fullName) := by
  rw [List.map_eq_flatMap] at hnames
  have hstep : ∀ method procedure,
      site.HasProcedure ledger owner method procedure → [method.fullName].Nodup →
      ledger.Owned [procedure.id] [method.fullName] := by
    intro method procedure hprocedure _
    exact Ledger.owned_valueId hprocedure.id
  have howned := Ledger.Owned.flatMap hsound hprocedures hstep hnames
  rw [← List.map_eq_flatMap, ← List.map_eq_flatMap] at howned
  exact howned

/-- The identifiers of a service are owned by its methods. -/
theorem HasGroup.owned {service : Service} {group : ProcedureGroup}
    (hgroup : site.HasGroup ledger service group) (hsound : ledger.Sound settings)
    (hnames : service.names.Nodup) : ledger.Owned group.ids service.names := by
  rcases hgroup.procedures with ⟨procedures, hprocedures, hsorted⟩
  have howned := owned_procedures hprocedures hsound (List.nodup_cons.mp hnames).2
  have hperm : group.ids.Perm (procedures.map Procedure.id) := by
    rw [ProcedureGroup.ids, hsorted]
    exact (Sequence.sortedBy_perm _ _).map Procedure.id
  exact (howned.perm hperm).mono (List.subset_cons_self _ _)

end Site

/-! ## Modules -/

/-- The identifiers of definitions. -/
def Definitions.ids (definitions : Definitions) : List String :=
  definitions.unions.flatMap Union.ids ++
    (definitions.records.flatMap Site.recordIds ++
      definitions.services.flatMap ProcedureGroup.ids)

/-- A module has the identifiers of its definitions. -/
theorem Definitions.localIds_toModule_perm (definitions : Definitions) (name package : String) :
    (definitions.toModule name package).localIds.Perm definitions.ids := by
  unfold Module.localIds Definitions.ids
  simp only [Definitions.toModule]
  have hunions := (Sequence.sortedBy_perm (fun union : Union => union.binding.id)
    definitions.unions).flatMap_right Union.ids
  have hchoices := (Sequence.sortedBy_perm (fun choice : Choice => choice.binding.id)
    (definitions.records.flatMap Prod.snd)).flatMap_right Choice.ids
  have hrecords := (Sequence.sortedBy_perm (fun record : Record => record.binding.id)
    (definitions.records.map Prod.fst)).flatMap_right fun record => record.binding.names
  have hservices := (Sequence.sortedBy_perm ProcedureGroup.label
    definitions.services).flatMap_right ProcedureGroup.ids
  have htogether : ((definitions.records.flatMap Prod.snd).flatMap Choice.ids ++
      (definitions.records.map Prod.fst).flatMap fun record => record.binding.names).Perm
        (definitions.records.flatMap Site.recordIds) := by
    rw [List.flatMap_assoc, List.flatMap_map]
    exact List.perm_append_comm.trans (List.flatMap_append_perm _ _ _)
  have hinner := ((hchoices.append hrecords).trans htogether).append hservices
  rw [List.append_assoc] at hinner
  rw [List.append_assoc, List.append_assoc]
  exact hunions.append hinner

/-- The identifiers of definitions are owned by the declarations of the registry. -/
theorem Site.HasDefinitions.owned {definitions : Definitions}
    (hdefinitions : site.HasDefinitions ledger definitions) (hsound : ledger.Sound settings)
    (hnames : site.registry.names.Nodup) :
    ledger.Owned definitions.ids site.registry.names := by
  rw [Catalog.names, List.nodup_append', List.nodup_append'] at hnames
  rcases hnames with ⟨hnamesEnums, ⟨hnamesMessages, hnamesServices, hapartServices⟩, hapart⟩
  have henums := (Sequence.sortedBy_perm Enumeration.fullName site.registry.enums).flatMap_right
    Enumeration.names
  have hunions := Ledger.Owned.flatMap hsound hdefinitions.unions
    (fun _ _ hunion hnodup => hunion.owned hsound hnodup) (henums.nodup_iff.mpr hnamesEnums)
  -- Entries of maps become no records, so their names own nothing.
  have hkept : ((site.registry.messages.filter fun message => !message.mapEntry).flatMap
      Message.names).Sublist (site.registry.messages.flatMap Message.names) :=
    List.filter_sublist.flatMap Message.names
  have hmessages : (site.registry.recordMessages.flatMap Message.names).Perm _ :=
    (Sequence.sortedBy_perm Message.fullName _).flatMap_right Message.names
  have hrecords := Ledger.Owned.flatMap hsound hdefinitions.records
    (fun _ _ hrecord hnodup => hrecord.owned hsound hnodup)
    (hmessages.nodup_iff.mpr (hkept.nodup hnamesMessages))
  have hservices := (Sequence.sortedBy_perm Service.fullName
    site.registry.services).flatMap_right Service.names
  have hgroups := Ledger.Owned.flatMap hsound hdefinitions.services
    (fun _ _ hgroup hnodup => hgroup.owned hsound hnodup)
    (hservices.nodup_iff.mpr hnamesServices)
  exact (hunions.mono henums.subset).append hsound
    ((hrecords.mono (List.Subset.trans hmessages.subset hkept.subset)).append hsound
      (hgroups.mono hservices.subset) hapartServices) hapart

/--
The identifiers that a module defines are distinct, whatever they stand for, legal and not
reserved.
-/
theorem localIds_nodup_and_legal {schema : Schema} {module : Module}
    (h : buildModule settings schema = .ok module) :
    module.localIds.Nodup ∧ ∀ id ∈ module.localIds,
      Name.isIdentifier id = true ∧ Name.isReserved id = false := by
  rcases buildModule_eq_ok_iff.mp h with ⟨-, registry, hregistry, hbuild⟩
  rcases Site.definitions_of_build hbuild with ⟨ledger, definitions, hsound, hdefinitions, rfl⟩
  have hperm := definitions.localIds_toModule_perm (schema.moduleName settings) schema.packageName
  have howned := (hdefinitions.owned hsound (Registry.names_nodup_of_ofSchema hregistry)).perm hperm
  exact ⟨howned.nodup, fun id hid => howned.legal hsound hid⟩

/-- A schema in which an enumeration and a member of a oneof clash, and a value and a message. -/
def clashingSchema : Schema where
  enums := [{
    name := "Kind", fullName := "Kind"
    values := [
      { name := "SHAPE", fullName := "SHAPE", number := 0 },
      { name := "FORM", fullName := "FORM", number := 0 }] }]
  messages := [{
    name := "Shape", fullName := "Shape"
    fields := [{
      name := "kind", fullName := "Shape.kind", number := 1
      kind := .enumeration { fullName := "Kind" }, oneof := some 0 }]
    oneofs := [{ name := "size", fullName := "Shape.size" }] }]
  services := [{
    name := "Shapes", fullName := "Shapes"
    methods := [{
      name := "Draw", fullName := "Shapes.Draw"
      input := { fullName := "Shape" }, output := { fullName := "Shape" } }] }]

/-- The clashing declarations get identifiers of their own. -/
theorem localIds_clashingSchema :
    ∃ module, buildModule { collisionSuffix := "_" } clashingSchema = .ok module ∧
      module.localIds.Nodup ∧ ∀ id ∈ module.localIds,
        Name.isIdentifier id = true ∧ Name.isReserved id = false := by
  have hok : (buildModule { collisionSuffix := "_" } clashingSchema).isOk = true := by
    decide +kernel
  cases hmodule : buildModule { collisionSuffix := "_" } clashingSchema with
  | error error =>
      rw [hmodule] at hok
      contradiction
  | ok module => exact ⟨module, rfl, localIds_nodup_and_legal hmodule⟩

example :
    (buildModule { collisionSuffix := "_" } clashingSchema).toOption.map Module.localIds =
      some [
        "Kind", "emptyKind", "kindDecoder", "kindEncoder", "kindFuzzer", "Shape", "form",
        "ShapeSize", "emptyShapeSize", "shapeSizeDecoder", "shapeSizeEncoder", "shapeSizeFuzzer",
        "Kind_", "Shape_", "emptyShape_", "shapeDecoder", "shapeEncoder", "shapeFuzzer",
        "shapesDraw"] := by
  decide +kernel

end ElmBinding
