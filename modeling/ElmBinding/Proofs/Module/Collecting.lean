import ElmBinding.Module.Build
import ElmBinding.Proofs.Sequence.Sorting

/-!
# Imports in one pass

The imports of a module are read off its finished definitions.  They can also be collected while
the definitions are made: each step notes the modules that its result mentions, in an ascending
list without repeats.  The same names are noted in another order and more than once, and an
ascending list keeps neither.

Main results:

- Definition {lit}`Collecting`: steps of naming that note modules.
- Definition {lit}`Site.collectDefinitions`: the definitions of a module, with notes on the way.
- Definition {lit}`Collects`: a step does what a plain step does, and notes what it mentions.
- Theorem {lit}`Site.collects_definitions`: the notes are the imports of the definitions.
- Theorem {lit}`Site.buildCollecting_eq`: to collect imports is to read them off.
-/

namespace ElmBinding

open Name Sequence

/-! ## Notes on the way -/

/-- Steps of naming that note the modules that the module at hand has to import. -/
abbrev Collecting := StateT (List String) Naming

/-- Note a module. -/
def note (name : String) : Collecting Unit :=
  modify (insertText name)

/-- Note the home of a type, unless that is the module at hand. -/
def noteHome (binding : Binding) : Collecting Unit :=
  match binding.module with
  | some home => note home
  | none => return ()

namespace Site

/-- The type of a single value of a field, with a note of bytes or of the home of the type. -/
def collectElement (site : Site) (field : Field) : Collecting Element :=
  match field.kind with
  | .scalar wire =>
      match wire.primitive? with
      | some primitive => do
          if primitive = .bytes then
            note bytesModule
          return .scalar wire primitive
      | none => throw (unsupported field)
  | .enumeration target | .message target => do
      let binding ← site.reference target
      noteHome binding
      return .named binding
  | .group _ => throw (unsupported field)

/-- The type of a map field with an entry message, with a note of dictionaries. -/
def collectMapType (site : Site) (field : Field) (entry : Message) : Collecting FieldType :=
  match entry.fields with
  | keyField :: valueField :: _ => do
      let key ← site.collectElement keyField
      if key.isMapKey then
        let value ← site.collectElement valueField
        note dictModule
        return .map key value
      else
        throw (.unsupported field.fullName (mapText keyField valueField))
  | _ => throw (unsupported field)

/-- The type of a field, with notes. -/
def collectFieldType (site : Site) (field : Field) : Collecting FieldType :=
  if field.cardinality = .repeated then
    match site.mapEntry? field with
    | some entry => site.collectMapType field entry
    | none => do
        let element ← site.collectElement field
        return .list element
  else do
    let element ← site.collectElement field
    return .single element

/-- The record field of a schema field with a label, with notes. -/
def collectLabelledField (site : Site) (label : String) (field : Field) :
    Collecting RecordField := do
  let type ← site.collectFieldType field
  return {
    label, number := some field.number, cardinality := field.cardinality, type
    comments := field.comments }

/-- The variants of a choice between fields, with notes. -/
def collectChoiceVariants (site : Site) (labels : Namespace) :
    List Field → Collecting (List ChoiceVariant)
  | [] => return []
  | member :: rest => do
      let id ← site.typeId member.fullName
      let (label, labels) ← claimLabel labels member.name member.fullName
      let field ← site.collectLabelledField label member
      let variants ← site.collectChoiceVariants labels rest
      return ⟨id, field⟩ :: variants

/-- The choice of a oneof between its members, with notes. -/
def collectChoice (site : Site) (oneof : Oneof) (members : List Field) : Collecting Choice := do
  let binding ← site.binding oneof.fullName
  let variants ← site.collectChoiceVariants (blankLabels site.settings) members
  return { binding, variants, comments := oneof.comments }

/-- The record field of a slot, with its choice and with notes. -/
def collectSlotField (site : Site) (labels : Namespace) :
    Slot → Collecting ((RecordField × Option Choice) × Namespace)
  | .plain field => do
      let (label, labels) ← claimLabel labels field.name field.fullName
      let recordField ← site.collectLabelledField label field
      return ((recordField, none), labels)
  | .optional field => do
      let (label, labels) ← claimLabel labels field.name field.fullName
      let element ← site.collectElement field
      let recordField : RecordField := {
        label, number := some field.number, cardinality := .optional
        type := .maybe element, comments := field.comments }
      return ((recordField, none), labels)
  | .choice oneof members => do
      let choice ← site.collectChoice oneof members
      let (label, labels) ← claimLabel labels oneof.name oneof.fullName
      return ((choiceField label choice, some choice), labels)
  | .stray index count => throw (.breach (.strayIndex index count))

/-- The record fields of slots, with their choices and with notes. -/
def collectSlotFields (site : Site) (labels : Namespace) :
    List Slot → Collecting (List (RecordField × Option Choice))
  | [] => return []
  | slot :: rest => do
      let (field, labels) ← site.collectSlotField labels slot
      let fields ← site.collectSlotFields labels rest
      return field :: fields

/-- The record of a message, with its choices and with notes. -/
def collectRecord (site : Site) (message : Message) : Collecting (Record × List Choice) := do
  let binding ← site.binding message.fullName
  let fields ← site.collectSlotFields (blankLabels site.settings) message.slots
  return ({ binding, fields := fields.map Prod.fst, comments := message.comments },
    fields.filterMap Prod.snd)

/-- The procedure of a method, with notes of the homes of its input and output. -/
def collectProcedure (site : Site) (service : String) (method : Method) :
    Collecting Procedure := do
  let id ← site.valueId method.fullName
  let input ← site.reference method.input
  let output ← site.reference method.output
  noteHome input
  noteHome output
  return {
    id, method := method.name, service, input, output
    clientStreaming := method.clientStreaming
    serverStreaming := method.serverStreaming
    comments := method.comments }

/-- The procedures of a service, with notes. -/
def collectProcedureGroup (site : Site) (service : Service) : Collecting ProcedureGroup := do
  let procedures ← service.methods.mapM (site.collectProcedure service.fullName)
  return {
    label := service.name
    fullName := service.fullName
    procedures := sortedBy Procedure.id procedures
    comments := service.comments }

/-- The definitions of the module of a site, with notes. -/
def collectDefinitions (site : Site) : Collecting Definitions := do
  let unions ← (sortedBy Enumeration.fullName site.registry.enums).mapM fun enumeration =>
    (site.union enumeration : Collecting Union)
  let records ← site.registry.recordMessages.mapM site.collectRecord
  let services ← (sortedBy Service.fullName site.registry.services).mapM site.collectProcedureGroup
  return { unions, records, services }

/-- The module that a site has, with the imports that were noted while it was made. -/
def buildCollecting (site : Site) (package : String) : Except BindingError Module :=
  match (site.collectDefinitions.run []).run (.blank site.settings) with
  | .ok (definitions, imports) _ =>
      .ok { definitions.toModule site.module package with imports }
  | .error error _ => .error error

end Site

/-! ## Steps with notes -/

/--
With some modules noted already, a step does what a plain step does.  The notes are then the modules
that the whole of its result mentions and those noted before.
-/
def Collects {α : Type} (noted : List String) (step : Collecting α) (plain : Naming α)
    (mentions : α → List String) : Prop :=
  step.run (sortedSet noted) = (fun a => (a, sortedSet (mentions a))) <$> plain

namespace Collects

variable {α β : Type} {noted : List String} {step : Collecting α} {plain : Naming α}
  {mentions : α → List String}

/--
A result without a step mentions what was noted before.  It does not matter in which order that
was, and how often.
-/
theorem pure {a : α} (h : ∀ name, name ∈ noted ↔ name ∈ mentions a) :
    Collects noted (Pure.pure a) (Pure.pure a) mentions := by
  rw [Collects, StateT.run_pure, map_pure, sortedSet_eq_of_mem_iff h]

/-- An error leaves no notes. -/
theorem throw (error : BindingError) (mentions : α → List String) :
    Collects noted (MonadExcept.throw error) (MonadExcept.throw error) mentions :=
  rfl

/-- A plain step notes nothing. -/
theorem lift (plain : Naming α) : Collects noted (liftM plain) plain fun _ => noted := by
  rw [Collects, map_eq_pure_bind]
  rfl

/-- A step goes on with what the one before it has noted. -/
theorem bind {next : α → Collecting β} {plainNext : α → Naming β} {mentions' : β → List String}
    (h : Collects noted step plain mentions)
    (hnext : ∀ a, Collects (mentions a) (next a) (plainNext a) mentions') :
    Collects noted (step >>= next) (plain >>= plainNext) mentions' := by
  rw [Collects, StateT.run_bind, h, bind_map_left, map_bind]
  exact congrArg _ (funext hnext)

/-- A note comes in front of those before. -/
theorem note {name : String} (h : Collects (name :: noted) step plain mentions) :
    Collects noted (ElmBinding.note name >>= fun _ => step) plain mentions := by
  rw [Collects, StateT.run_bind]
  exact h

/-- The home of a type comes in front of those before. -/
theorem noteHome {binding : Binding}
    (h : Collects (binding.module.toList ++ noted) step plain mentions) :
    Collects noted (ElmBinding.noteHome binding >>= fun _ => step) plain mentions := by
  unfold ElmBinding.noteHome
  cases hhome : binding.module with
  | none =>
      rw [hhome] at h
      exact h
  | some home =>
      rw [hhome] at h
      exact h.note

/-- If every item notes what its result mentions, then a run over items does. -/
theorem mapM {ι : Type} {step : ι → Collecting α} {plain : ι → Naming α}
    {mentions : α → List String}
    (h : ∀ item noted, Collects noted (step item) (plain item) fun a => mentions a ++ noted)
    (items : List ι) (noted : List String) :
    Collects noted (items.mapM step) (items.mapM plain) fun results =>
      results.flatMap mentions ++ noted := by
  induction items generalizing noted with
  | nil => exact .pure fun _ => Iff.rfl
  | cons item rest ih =>
      rw [List.mapM_cons, List.mapM_cons]
      refine (h item noted).bind fun a => (ih _).bind fun results => .pure fun name => ?_
      simp only [List.flatMap_cons, List.mem_append]
      tauto

end Collects

/-! ## Definitions with notes -/

theorem FieldType.imports_single (element : Element) :
    (single element).imports = element.imports := by
  simp [imports, isMap, elements]

theorem FieldType.imports_list (element : Element) :
    (list element).imports = element.imports := by
  simp [imports, isMap, elements]

theorem FieldType.imports_map (key value : Element) :
    (map key value).imports = dictModule :: (key.imports ++ value.imports) := by
  simp [imports, isMap, elements]

theorem FieldType.imports_maybe (element : Element) :
    (maybe element).imports = element.imports := by
  simp [imports, isMap, elements]

theorem FieldType.imports_choice (binding : Binding) : (choice binding).imports = [] :=
  rfl

/-- The modules that the types of fields mention. -/
def mentionedBy (fields : List RecordField) : List String :=
  fields.flatMap fun field => field.type.imports

/-- The fields of the variants of choices. -/
def memberFields (choices : List Choice) : List RecordField :=
  choices.flatMap fun choice => choice.variants.map ChoiceVariant.field

/-- Records and choices mention together what each record mentions with its own choices. -/
theorem mem_mentionedBy_fieldsOf (made : List (Record × List Choice)) (name : String) :
    name ∈ mentionedBy (fieldsOf (made.map Prod.fst) (made.flatMap Prod.snd)) ↔
      name ∈ made.flatMap fun entry => mentionedBy (fieldsOf [entry.1] entry.2) := by
  induction made with
  | nil => exact Iff.rfl
  | cons entry rest ih =>
      simp only [List.flatMap_cons, List.mem_append, ← ih]
      simp only [mentionedBy, fieldsOf, List.map_cons, List.flatMap_cons, List.flatMap_nil,
        List.flatMap_append, List.mem_append, List.append_nil]
      tauto

namespace Site

variable (site : Site)

/-- An element notes what it mentions. -/
theorem collects_element (field : Field) (noted : List String) :
    Collects noted (site.collectElement field) (site.element field) fun element =>
      element.imports ++ noted := by
  unfold collectElement element
  cases field.kind with
  | scalar wire =>
      dsimp only
      cases wire.primitive? with
      | none => exact .throw _ _
      | some primitive =>
          by_cases hbytes : primitive = .bytes
          · subst hbytes
            exact .note (.pure fun _ => Iff.rfl)
          · have hnone : (Element.scalar wire primitive).imports = [] := if_neg hbytes
            simp only [if_neg hbytes]
            exact .pure fun _ => by rw [hnone, List.nil_append]
  | enumeration target | message target =>
      exact (Collects.lift _).bind fun binding => .noteHome (.pure fun _ => Iff.rfl)
  | group _ => exact .throw _ _

/-- The type of a map field notes what it mentions. -/
theorem collects_mapType (field : Field) (entry : Message) (noted : List String) :
    Collects noted (site.collectMapType field entry) (site.mapType field entry) fun type =>
      type.imports ++ noted := by
  unfold collectMapType mapType
  rcases entry.fields with _ | ⟨keyField, _ | ⟨valueField, rest⟩⟩
  · exact .throw _ _
  · exact .throw _ _
  · refine (site.collects_element keyField noted).bind fun key => ?_
    cases key.isMapKey with
    | false => exact .throw _ _
    | true =>
        -- The notes are in the order of the steps, the last one first.
        refine (site.collects_element valueField _).bind fun value => .note (.pure fun name => ?_)
        simp only [FieldType.imports_map, List.mem_cons, List.mem_append]
        tauto

/-- The type of a field notes what it mentions. -/
theorem collects_fieldType (field : Field) (noted : List String) :
    Collects noted (site.collectFieldType field) (site.fieldType field) fun type =>
      type.imports ++ noted := by
  unfold collectFieldType fieldType
  split
  · cases site.mapEntry? field with
    | some entry => exact site.collects_mapType field entry noted
    | none =>
        refine (site.collects_element field noted).bind fun element => .pure fun name => ?_
        rw [FieldType.imports_list]
  · refine (site.collects_element field noted).bind fun element => .pure fun name => ?_
    rw [FieldType.imports_single]

/-- A labelled field notes what its type mentions. -/
theorem collects_labelledField (label : String) (field : Field) (noted : List String) :
    Collects noted (site.collectLabelledField label field) (site.labelledField label field)
      fun recordField => recordField.type.imports ++ noted :=
  (site.collects_fieldType field noted).bind fun _ => .pure fun _ => Iff.rfl

/-- The variants of a choice note what their types mention. -/
theorem collects_choiceVariants (labels : Namespace) (members : List Field)
    (noted : List String) :
    Collects noted (site.collectChoiceVariants labels members)
      (site.choiceVariants labels members) fun variants =>
        mentionedBy (variants.map ChoiceVariant.field) ++ noted := by
  induction members generalizing labels noted with
  | nil => exact .pure fun _ => Iff.rfl
  | cons member rest ih =>
      refine (Collects.lift _).bind fun id => (Collects.lift _).bind fun claimed => ?_
      refine (site.collects_labelledField claimed.1 member _).bind fun field => ?_
      refine (ih claimed.2 _).bind fun variants => .pure fun name => ?_
      simp only [mentionedBy, List.map_cons, List.flatMap_cons, List.mem_append]
      tauto

/-- A choice notes what the types of its members mention. -/
theorem collects_choice (oneof : Oneof) (members : List Field) (noted : List String) :
    Collects noted (site.collectChoice oneof members) (site.choice oneof members) fun choice =>
      mentionedBy (memberFields [choice]) ++ noted := by
  refine (Collects.lift _).bind fun binding => ?_
  refine (site.collects_choiceVariants _ members _).bind fun variants => .pure fun name => ?_
  simp [mentionedBy, memberFields]

/-- A slot notes what its field and the members of its choice mention. -/
theorem collects_slotField (labels : Namespace) (slot : Slot) (noted : List String) :
    Collects noted (site.collectSlotField labels slot) (site.slotField labels slot) fun made =>
      mentionedBy (made.1.1 :: memberFields made.1.2.toList) ++ noted := by
  cases slot with
  | plain field =>
      refine (Collects.lift _).bind fun claimed => ?_
      refine (site.collects_labelledField claimed.1 field _).bind fun recordField => ?_
      exact .pure fun name => by simp [mentionedBy, memberFields]
  | optional field =>
      refine (Collects.lift _).bind fun claimed => ?_
      refine (site.collects_element field _).bind fun element => .pure fun name => ?_
      simp [mentionedBy, memberFields, FieldType.imports_maybe]
  | choice oneof members =>
      refine (site.collects_choice oneof members _).bind fun choice => ?_
      refine (Collects.lift _).bind fun claimed => .pure fun name => ?_
      -- The field of a choice mentions nothing, since the choice is at home in the module.
      simp [mentionedBy, choiceField, FieldType.imports_choice]
  | stray index count => exact .throw _ _

/-- Slots note what their fields and the members of their choices mention. -/
theorem collects_slotFields (labels : Namespace) (slots : List Slot) (noted : List String) :
    Collects noted (site.collectSlotFields labels slots) (site.slotFields labels slots) fun made =>
      mentionedBy (made.map Prod.fst ++ memberFields (made.filterMap Prod.snd)) ++ noted := by
  induction slots generalizing labels noted with
  | nil => exact .pure fun _ => Iff.rfl
  | cons slot rest ih =>
      refine (site.collects_slotField labels slot noted).bind fun first => ?_
      refine (ih first.2 _).bind fun others => .pure fun name => ?_
      have hchoices : memberFields ((first.1 :: others).filterMap Prod.snd) =
          memberFields first.1.2.toList ++ memberFields (others.filterMap Prod.snd) := by
        cases hchoice : first.1.2 <;> simp [memberFields, hchoice]
      simp only [hchoices, mentionedBy, List.map_cons, List.flatMap_append, List.flatMap_cons,
        List.cons_append, List.mem_append]
      tauto

/-- A record notes what its fields and the members of its choices mention. -/
theorem collects_record (message : Message) (noted : List String) :
    Collects noted (site.collectRecord message) (site.record message) fun made =>
      mentionedBy (fieldsOf [made.1] made.2) ++ noted := by
  refine (Collects.lift _).bind fun binding => ?_
  refine (site.collects_slotFields _ _ _).bind fun made => .pure fun name => ?_
  simp [fieldsOf, memberFields]

/-- A procedure notes the homes of its input and its output. -/
theorem collects_procedure (service : String) (method : Method) (noted : List String) :
    Collects noted (site.collectProcedure service method) (site.procedure service method)
      fun procedure => procedure.imports ++ noted := by
  refine (Collects.lift _).bind fun id => (Collects.lift _).bind fun input => ?_
  refine (Collects.lift _).bind fun output => .noteHome (.noteHome (.pure fun name => ?_))
  simp only [Procedure.imports, List.mem_append]
  tauto

/-- A service notes what its procedures mention. -/
theorem collects_procedureGroup (service : Service) (noted : List String) :
    Collects noted (site.collectProcedureGroup service) (site.procedureGroup service) fun group =>
      group.procedures.flatMap Procedure.imports ++ noted := by
  refine (Collects.mapM (site.collects_procedure service.fullName) _ _).bind fun procedures => ?_
  refine .pure fun name => ?_
  have hperm := (sortedBy_perm Procedure.id procedures).flatMap_right Procedure.imports
  simp only [List.mem_append, hperm.mem_iff]

/-- The notes that are made with the definitions of a module are the imports of these. -/
theorem collects_definitions :
    Collects [] site.collectDefinitions site.definitions fun definitions =>
      mentionedBy (fieldsOf (definitions.records.map Prod.fst)
        (definitions.records.flatMap Prod.snd)) ++
      (definitions.services.flatMap ProcedureGroup.procedures).flatMap Procedure.imports := by
  have hunions : ∀ noted, Collects noted
      ((sortedBy Enumeration.fullName site.registry.enums).mapM fun enumeration =>
        (site.union enumeration : Collecting Union))
      ((sortedBy Enumeration.fullName site.registry.enums).mapM site.union)
      fun results => (results.flatMap fun _ => []) ++ noted :=
    Collects.mapM (fun enumeration _ => .lift (site.union enumeration)) _
  -- Unions mention nothing, so the first notes are those of the records.
  refine (hunions _).bind fun unions => ?_
  refine (Collects.mapM site.collects_record _ _).bind fun records => ?_
  refine (Collects.mapM site.collects_procedureGroup _ _).bind fun services => ?_
  refine .pure fun name => ?_
  have hnone : (unions.flatMap fun _ => ([] : List String)) = [] :=
    List.flatMap_eq_nil_iff.mpr fun _ _ => rfl
  simp only [hnone, List.flatMap_assoc, List.mem_append, mem_mentionedBy_fieldsOf]
  tauto

/-- To collect imports while definitions are made is to read them off afterwards. -/
theorem buildCollecting_eq (package : String) :
    site.buildCollecting package = site.build package := by
  have hrun : site.collectDefinitions.run [] = _ <$> site.definitions := site.collects_definitions
  rw [buildCollecting, build, hrun]
  simp only [Functor.map, EStateM.map, EStateM.run]
  cases site.definitions (.blank site.settings) with
  | ok definitions ledger => rfl
  | error error ledger => rfl

end Site

end ElmBinding
