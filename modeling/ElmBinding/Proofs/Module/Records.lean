import ElmBinding.Module.Record
import ElmBinding.Proofs.Naming.Steps

/-!
# What records are made of

Naming a message ends in a record that matches the message slot by slot: a plain field has
the type of its field, a choice has a variant for every member of its oneof, and every
binding in it is the one that the ledger has given out.  The match outlives the growth of
the ledger, so that it may be read in the ledger of the finished module.

An error comes up only where something is at fault: a field without a counterpart, a name
that makes no identifier, a collision without a suffix, a field outside the oneofs of its
message.

Main results:

- Definition {lit}`Site.supports`: whether the values of a field have a counterpart.
- Definition {lit}`Site.HasRecord`: how a record matches its message.
- Definition {lit}`Site.CoversMessage`: the errors that naming a message can end in.
- Theorem {lit}`Site.record_ensures`: what naming a message ensures.
-/

namespace ElmBinding

open Name

/-! ## Supported fields -/

/-- Whether single values of a kind have a counterpart. -/
def FieldKind.hasElement : FieldKind → Bool
  | .scalar wire => wire.primitive?.isSome
  | .enumeration _ => true
  | .message _ => true
  | .group _ => false

/-- Whether values of a kind can be the keys of a dictionary. -/
def FieldKind.isMapKey : FieldKind → Bool
  | .scalar wire => wire.primitive? = some .int || wire.primitive? = some .string
  | _ => false

/-- Whether an entry message has the key and the value of a dictionary. -/
def Message.isDictionary (entry : Message) : Bool :=
  match entry.fields with
  | keyField :: valueField :: _ => keyField.kind.isMapKey && valueField.kind.hasElement
  | _ => false

/-- Whether the values of a field have a counterpart. -/
def Site.supports (site : Site) (field : Field) : Bool :=
  if field.cardinality = .repeated then
    match site.mapEntry? field with
    | some entry => entry.isDictionary
    | none => field.kind.hasElement
  else
    field.kind.hasElement

/-- The keys of dictionaries have a counterpart. -/
theorem FieldKind.hasElement_of_isMapKey {kind : FieldKind} (h : kind.isMapKey = true) :
    kind.hasElement = true := by
  cases kind with
  | scalar wire =>
      simp only [isMapKey, Bool.or_eq_true, decide_eq_true_eq] at h
      rcases h with h | h <;> simp [hasElement, h]
  | enumeration target => rfl
  | message target => rfl
  | group target => simp [isMapKey] at h

/-! ## Labels -/

/-- Labels claimed one after another, for names in their order. -/
inductive Labelled : Namespace → List String → List String → Prop
  | nil {labels : Namespace} : Labelled labels [] []
  | cons {labels after : Namespace} {name label : String} {names rest : List String}
      (hclaim : labels.claim (labelCandidate name) = .ok (label, after))
      (hrest : Labelled after names rest) : Labelled labels (name :: names) (label :: rest)

/-- Labels that are claimed one after another are legal, distinct and new. -/
theorem Labelled.distinct {labels : Namespace} {names ids : List String}
    (h : Labelled labels names ids) :
    ids.Nodup ∧ ∀ id ∈ ids, isIdentifier id = true ∧ id ∉ labels.claimed := by
  induction h with
  | nil => simp
  | @cons labels _ name label names rest hclaim hrest ih =>
      rcases Namespace.eq_insert_of_claim hclaim with ⟨hlegal, hfree, rfl⟩
      have hnew : ∀ id ∈ rest, id ≠ label ∧ id ∉ labels.claimed := by
        intro id hid
        have hnotin := (ih.2 id hid).2
        rw [Namespace.claimed_insert, List.mem_cons, not_or] at hnotin
        exact hnotin
      refine ⟨List.nodup_cons.mpr ⟨fun hmem => (hnew label hmem).1 rfl, ih.1⟩, ?_⟩
      intro id hid
      rcases List.mem_cons.mp hid with rfl | hid
      · exact ⟨hlegal, hfree⟩
      · exact ⟨(ih.2 id hid).1, (hnew id hid).2⟩

/-- The name that a slot takes its label from. -/
def Slot.name : Slot → String
  | .plain field => field.name
  | .optional field => field.name
  | .choice oneof _ => oneof.name
  | .stray _ _ => ""

namespace Site

variable {site : Site} {ledger after : Ledger} {fail : BindingError → Prop}

/-! ## Matches -/

/-- The type of a single value of a field. -/
inductive HasElement (site : Site) (ledger : Ledger) (field : Field) : Element → Prop
  | scalar {wire : Scalar} {primitive : Primitive} (hkind : field.kind = .scalar wire)
      (hprimitive : wire.primitive? = some primitive) :
      HasElement site ledger field (.scalar wire primitive)
  | enumeration {target : Reference} {binding : Binding}
      (hkind : field.kind = .enumeration target)
      (hmeans : site.Means ledger target binding) :
      HasElement site ledger field (.named binding)
  | message {target : Reference} {binding : Binding} (hkind : field.kind = .message target)
      (hmeans : site.Means ledger target binding) :
      HasElement site ledger field (.named binding)

/-- The type of a field. -/
inductive HasType (site : Site) (ledger : Ledger) (field : Field) : FieldType → Prop
  | single {element : Element} (hsingle : field.cardinality ≠ .repeated)
      (helement : site.HasElement ledger field element) :
      HasType site ledger field (.single element)
  | list {element : Element} (hrepeated : field.cardinality = .repeated)
      (hentry : site.mapEntry? field = none)
      (helement : site.HasElement ledger field element) :
      HasType site ledger field (.list element)
  | map {entry : Message} {keyField valueField : Field} {rest : List Field}
      {key value : Element} (hrepeated : field.cardinality = .repeated)
      (hentry : site.mapEntry? field = some entry)
      (hfields : entry.fields = keyField :: valueField :: rest)
      (hkey : site.HasElement ledger keyField key) (hmapKey : key.isMapKey = true)
      (hvalue : site.HasElement ledger valueField value) :
      HasType site ledger field (.map key value)

/-- The record field of a schema field. -/
structure HasField (site : Site) (ledger : Ledger) (field : Field) (recordField : RecordField) :
    Prop where
  number : recordField.number = some field.number
  cardinality : recordField.cardinality = field.cardinality
  type : site.HasType ledger field recordField.type
  comments : recordField.comments = field.comments

/-- The variant of a member of a oneof. -/
structure HasVariant (site : Site) (ledger : Ledger) (member : Field) (variant : ChoiceVariant) :
    Prop where
  id : ledger.typeIds.lookup member.fullName = some variant.id
  field : site.HasField ledger member variant.field

/-- The choice of a oneof. -/
structure HasChoice (site : Site) (ledger : Ledger) (oneof : Oneof) (members : List Field)
    (choice : Choice) : Prop where
  binding : ledger.bindings.lookup oneof.fullName = some choice.binding
  variants : List.Forall₂ (site.HasVariant ledger) members choice.variants
  labels : Labelled (blankLabels site.settings) (members.map Field.name)
    (choice.variants.map fun variant => variant.field.label)
  comments : choice.comments = oneof.comments

/-- The record field of a slot, with its choice if it has one. -/
inductive HasSlot (site : Site) (ledger : Ledger) : Slot → RecordField × Option Choice → Prop
  | plain {field : Field} {recordField : RecordField}
      (hfield : site.HasField ledger field recordField) :
      HasSlot site ledger (.plain field) (recordField, none)
  | optional {field : Field} {label : String} {element : Element}
      (helement : site.HasElement ledger field element) :
      HasSlot site ledger (.optional field)
        ({ label, number := some field.number, cardinality := .optional,
           type := .maybe element, comments := field.comments }, none)
  | choice {oneof : Oneof} {members : List Field} {label : String} {choice : Choice}
      (hchoice : site.HasChoice ledger oneof members choice) :
      HasSlot site ledger (.choice oneof members) (choiceField label choice, some choice)

/-- The record of a message, with its choices. -/
structure HasRecord (site : Site) (ledger : Ledger) (message : Message)
    (made : Record × List Choice) : Prop where
  binding : ledger.bindings.lookup message.fullName = some made.1.binding
  slots : ∃ fields, List.Forall₂ (site.HasSlot ledger) message.slots fields ∧
    made.1.fields = fields.map Prod.fst ∧ made.2 = fields.filterMap Prod.snd
  labels : Labelled (blankLabels site.settings) (message.slots.map Slot.name)
    (made.1.fields.map RecordField.label)
  comments : made.1.comments = message.comments

/-! ## Matches in larger ledgers -/

/-- An element still matches in an extension of the ledger. -/
theorem HasElement.extend {field : Field} {element : Element} (hextends : ledger.Extends after)
    (h : site.HasElement ledger field element) : site.HasElement after field element := by
  cases h with
  | scalar hkind hprimitive => exact .scalar hkind hprimitive
  | enumeration hkind hmeans => exact .enumeration hkind (hmeans.extend hextends)
  | message hkind hmeans => exact .message hkind (hmeans.extend hextends)

/-- A type still matches in an extension of the ledger. -/
theorem HasType.extend {field : Field} {type : FieldType} (hextends : ledger.Extends after)
    (h : site.HasType ledger field type) : site.HasType after field type := by
  cases h with
  | single hsingle helement => exact .single hsingle (helement.extend hextends)
  | list hrepeated hentry helement => exact .list hrepeated hentry (helement.extend hextends)
  | map hrepeated hentry hfields hkey hmapKey hvalue =>
      exact .map hrepeated hentry hfields (hkey.extend hextends) hmapKey (hvalue.extend hextends)

/-- A record field still matches in an extension of the ledger. -/
theorem HasField.extend {field : Field} {recordField : RecordField}
    (hextends : ledger.Extends after) (h : site.HasField ledger field recordField) :
    site.HasField after field recordField :=
  { h with type := h.type.extend hextends }

/-- A variant still matches in an extension of the ledger. -/
theorem HasVariant.extend {member : Field} {variant : ChoiceVariant}
    (hextends : ledger.Extends after) (h : site.HasVariant ledger member variant) :
    site.HasVariant after member variant where
  id := hextends.typeId? h.id
  field := h.field.extend hextends

/-- A choice still matches in an extension of the ledger. -/
theorem HasChoice.extend {oneof : Oneof} {members : List Field} {choice : Choice}
    (hextends : ledger.Extends after) (h : site.HasChoice ledger oneof members choice) :
    site.HasChoice after oneof members choice :=
  { h with
    binding := hextends.binding? h.binding
    variants := h.variants.imp fun _ _ hvariant => hvariant.extend hextends }

/-- A slot still matches in an extension of the ledger. -/
theorem HasSlot.extend {slot : Slot} {made : RecordField × Option Choice}
    (hextends : ledger.Extends after) (h : site.HasSlot ledger slot made) :
    site.HasSlot after slot made := by
  cases h with
  | plain hfield => exact .plain (hfield.extend hextends)
  | optional helement => exact .optional (helement.extend hextends)
  | choice hchoice => exact .choice (hchoice.extend hextends)

/-- A record still matches in an extension of the ledger. -/
theorem HasRecord.extend {message : Message} {made : Record × List Choice}
    (hextends : ledger.Extends after) (h : site.HasRecord ledger message made) :
    site.HasRecord after message made := by
  rcases h.slots with ⟨fields, hslots, hfields, hchoices⟩
  exact { h with
    binding := hextends.binding? h.binding
    slots := ⟨fields, hslots.imp fun _ _ hslot => hslot.extend hextends, hfields, hchoices⟩ }

/-! ## Faults -/

/-- A class of errors that holds those of naming the targets of references. -/
def CoversTypes (site : Site) (fail : BindingError → Prop) : Prop :=
  ∀ fullName, site.registry.isRegistered fullName = true → site.CoversName fail fullName

/-- A class of errors that holds those of values without a counterpart, unless they have one. -/
def CoversValues (fail : BindingError → Prop) (supported : Bool) : Prop :=
  supported = false → ∀ fullName kind, fail (.unsupported fullName kind)

/-- A class of errors that holds those of claiming a label. -/
def CoversLabel (site : Site) (fail : BindingError → Prop) (name fullName : String) : Prop :=
  Covers site.settings fail fullName
    (isIdentifier (labelCandidate name) = true ∧
      isFragment site.settings.collisionSuffix = true)

/-- A class of errors that holds those of a field with a label. -/
structure CoversField (site : Site) (fail : BindingError → Prop) (field : Field) : Prop where
  label : site.CoversLabel fail field.name field.fullName
  values : CoversValues fail (site.supports field)

/-- A class of errors that holds those of a member of a oneof. -/
structure CoversMember (site : Site) (fail : BindingError → Prop) (member : Field) : Prop where
  name : site.CoversName fail member.fullName
  field : site.CoversField fail member

/-- A class of errors that holds those of a slot. -/
def CoversSlot (site : Site) (fail : BindingError → Prop) : Slot → Prop
  | .plain field => site.CoversField fail field
  | .optional field =>
      site.CoversLabel fail field.name field.fullName ∧ CoversValues fail field.kind.hasElement
  | .choice oneof members =>
      site.CoversName fail oneof.fullName ∧ site.CoversLabel fail oneof.name oneof.fullName ∧
        ∀ member ∈ members, site.CoversMember fail member
  | .stray index count => fail (.breach (.strayIndex index count))

/-- A class of errors that holds those of a message. -/
structure CoversMessage (site : Site) (fail : BindingError → Prop) (message : Message) :
    Prop where
  name : site.CoversName fail message.fullName
  slots : ∀ slot ∈ message.slots, site.CoversSlot fail slot

/-! ## Types -/

/-- The values of a field have a type unless there is no counterpart for them. -/
theorem element_ensures {field : Field} (hsound : ledger.Sound site.settings)
    (htypes : site.CoversTypes fail) (hvalues : CoversValues fail field.kind.hasElement) :
    Ensures site.settings (site.element field) ledger
      (fun element after => site.HasElement after field element) fail := by
  unfold Site.element
  cases hkind : field.kind with
  | scalar wire =>
      cases hprimitive : wire.primitive? with
      | none =>
          simp only [hprimitive]
          apply ensures_throw hsound
          apply hvalues
          rw [hkind, FieldKind.hasElement, hprimitive]
          rfl
      | some primitive =>
          simp only [hprimitive]
          exact ensures_pure hsound (.scalar hkind hprimitive)
  | enumeration target =>
      apply ensures_bind (reference_ensures hsound (htypes target.fullName))
      intro binding after hreached hmeans
      exact ensures_pure hreached.sound (.enumeration hkind hmeans)
  | message target =>
      apply ensures_bind (reference_ensures hsound (htypes target.fullName))
      intro binding after hreached hmeans
      exact ensures_pure hreached.sound (.message hkind hmeans)
  | group target =>
      apply ensures_throw hsound
      apply hvalues
      rw [hkind]
      rfl

/-- Whether an element is a key of dictionaries depends on the kind of its field. -/
theorem HasElement.isMapKey_eq {field : Field} {element : Element}
    (h : site.HasElement ledger field element) : element.isMapKey = field.kind.isMapKey := by
  cases h with
  | scalar hkind hprimitive => simp [hkind, FieldKind.isMapKey, Element.isMapKey, hprimitive]
  | enumeration hkind hmeans => simp [hkind, FieldKind.isMapKey, Element.isMapKey]
  | message hkind hmeans => simp [hkind, FieldKind.isMapKey, Element.isMapKey]

/-- A map field has a type unless its entry message describes no dictionary. -/
theorem mapType_ensures {field : Field} {entry : Message} (hsound : ledger.Sound site.settings)
    (htypes : site.CoversTypes fail) (hvalues : CoversValues fail entry.isDictionary)
    (hrepeated : field.cardinality = .repeated) (hentry : site.mapEntry? field = some entry) :
    Ensures site.settings (site.mapType field entry) ledger
      (fun type after => site.HasType after field type) fail := by
  unfold Site.mapType
  split
  · rename_i keyField valueField rest hfields
    have hdictionary : entry.isDictionary =
        (keyField.kind.isMapKey && valueField.kind.hasElement) := by
      rw [Message.isDictionary, hfields]
    rw [hdictionary] at hvalues
    have hkeyValues : CoversValues fail keyField.kind.hasElement := by
      intro hnone
      apply hvalues
      rw [Bool.and_eq_false_iff]
      refine Or.inl (Bool.eq_false_iff.mpr fun hmapKey => ?_)
      rw [FieldKind.hasElement_of_isMapKey hmapKey] at hnone
      contradiction
    apply ensures_bind (element_ensures hsound htypes hkeyValues)
    intro key keyed hkeyed hkey
    split
    · rename_i hmapKey
      have hvalueValues : CoversValues fail valueField.kind.hasElement := by
        intro hnone
        exact hvalues (Bool.and_eq_false_iff.mpr (Or.inr hnone))
      apply ensures_bind (element_ensures hkeyed.sound htypes hvalueValues)
      intro value after hreached hvalue
      exact ensures_pure hreached.sound
        (.map hrepeated hentry hfields (hkey.extend hreached.ext) hmapKey hvalue)
    · rename_i hmapKey
      apply ensures_throw hkeyed.sound
      apply hvalues
      rw [← hkey.isMapKey_eq, Bool.eq_false_iff.mpr hmapKey, Bool.false_and]
  · rename_i hfields
    apply ensures_throw hsound
    apply hvalues
    unfold Message.isDictionary
    split
    · rename_i keyField valueField rest hcons
      exact absurd hcons (hfields keyField valueField rest)
    · rfl

/-- A field has a type unless there is no counterpart for its values. -/
theorem fieldType_ensures {field : Field} (hsound : ledger.Sound site.settings)
    (htypes : site.CoversTypes fail) (hvalues : CoversValues fail (site.supports field)) :
    Ensures site.settings (site.fieldType field) ledger
      (fun type after => site.HasType after field type) fail := by
  unfold Site.fieldType
  unfold Site.supports at hvalues
  by_cases hrepeated : field.cardinality = .repeated
  · rw [if_pos hrepeated] at hvalues ⊢
    cases hentry : site.mapEntry? field with
    | some entry =>
        rw [hentry] at hvalues
        exact mapType_ensures hsound htypes hvalues hrepeated hentry
    | none =>
        rw [hentry] at hvalues
        apply ensures_bind (element_ensures hsound htypes hvalues)
        intro element after hreached helement
        exact ensures_pure hreached.sound (.list hrepeated hentry helement)
  · rw [if_neg hrepeated] at hvalues ⊢
    apply ensures_bind (element_ensures hsound htypes hvalues)
    intro element after hreached helement
    exact ensures_pure hreached.sound (.single hrepeated helement)

/-! ## Records -/

/-- A label is claimed among the labels of its record and leaves the ledger alone. -/
theorem claimLabel_ensures {labels : Namespace} {name fullName : String}
    (hsound : ledger.Sound site.settings)
    (hlabels : labels.suffix = site.settings.collisionSuffix)
    (hcovers : site.CoversLabel fail name fullName) :
    Ensures site.settings (claimLabel labels name fullName) ledger
      (fun claimed _ => labels.claim (labelCandidate name) = .ok claimed) fail := by
  unfold claimLabel
  cases hclaim : labels.claim (labelCandidate name) with
  | ok claimed => exact ensures_pure hsound rfl
  | error refused => exact ensures_throw hsound (hcovers.refusal id hlabels hclaim)

/-- Claiming a label keeps the suffix of the labels. -/
theorem suffix_of_claim {labels claimed : Namespace} {name label : String}
    (hlabels : labels.suffix = site.settings.collisionSuffix)
    (hclaim : labels.claim (labelCandidate name) = .ok (label, claimed)) :
    claimed.suffix = site.settings.collisionSuffix := by
  rw [(Namespace.eq_insert_of_claim hclaim).2.2, Namespace.suffix_insert, hlabels]

/-- A field with a label becomes a record field with that label. -/
theorem labelledField_ensures {label : String} {field : Field}
    (hsound : ledger.Sound site.settings) (htypes : site.CoversTypes fail)
    (hcovers : site.CoversField fail field) :
    Ensures site.settings (site.labelledField label field) ledger
      (fun recordField after => recordField.label = label ∧ site.HasField after field recordField)
      fail := by
  unfold Site.labelledField
  apply ensures_bind (fieldType_ensures hsound htypes hcovers.values)
  intro type after hreached htype
  exact ensures_pure hreached.sound ⟨rfl, rfl, rfl, htype, rfl⟩

/-- The members of a oneof become variants, one each. -/
theorem choiceVariants_ensures {labels : Namespace} {members : List Field}
    (hsound : ledger.Sound site.settings)
    (hlabels : labels.suffix = site.settings.collisionSuffix)
    (htypes : site.CoversTypes fail)
    (hmembers : ∀ member ∈ members, site.CoversMember fail member) :
    Ensures site.settings (site.choiceVariants labels members) ledger
      (fun variants after => List.Forall₂ (site.HasVariant after) members variants ∧
        Labelled labels (members.map Field.name)
          (variants.map fun variant => variant.field.label)) fail := by
  induction members generalizing ledger labels with
  | nil => exact ensures_pure hsound ⟨.nil, .nil⟩
  | cons member rest ih =>
      unfold Site.choiceVariants
      rcases List.forall_mem_cons.mp hmembers with ⟨hmember, hrest⟩
      apply ensures_bind (typeId_ensures hsound hmember.name)
      rintro id typed htyped ⟨hid, -⟩
      apply ensures_bind (claimLabel_ensures htyped.sound hlabels hmember.field.label)
      rintro ⟨label, labels'⟩ claimed hclaimed hclaim
      apply ensures_bind (labelledField_ensures hclaimed.sound htypes hmember.field)
      rintro field fielded hfielded ⟨rfl, hfield⟩
      apply ensures_bind (ih hfielded.sound (suffix_of_claim hlabels hclaim) hrest)
      rintro variants after hreached ⟨hvariants, hlabelled⟩
      refine ensures_pure hreached.sound ⟨.cons ⟨?_, ?_⟩ hvariants, .cons hclaim hlabelled⟩
      · exact ((hclaimed.trans hfielded).trans hreached).ext.typeId? hid
      · exact hfield.extend hreached.ext

/-- A oneof becomes a choice between its members. -/
theorem choice_ensures {oneof : Oneof} {members : List Field}
    (hsound : ledger.Sound site.settings) (htypes : site.CoversTypes fail)
    (hname : site.CoversName fail oneof.fullName)
    (hmembers : ∀ member ∈ members, site.CoversMember fail member) :
    Ensures site.settings (site.choice oneof members) ledger
      (fun choice after => site.HasChoice after oneof members choice) fail := by
  unfold Site.choice
  apply ensures_bind (binding_ensures hsound hname)
  intro binding bound hbound hbinding
  apply ensures_bind (choiceVariants_ensures hbound.sound rfl htypes hmembers)
  rintro variants after hreached ⟨hvariants, hlabels⟩
  exact ensures_pure hreached.sound
    ⟨hreached.ext.binding? hbinding, hvariants, hlabels, rfl⟩

/-- A slot becomes a record field, and a oneof a choice as well. -/
theorem slotField_ensures {labels : Namespace} {slot : Slot}
    (hsound : ledger.Sound site.settings)
    (hlabels : labels.suffix = site.settings.collisionSuffix)
    (htypes : site.CoversTypes fail) (hcovers : site.CoversSlot fail slot) :
    Ensures site.settings (site.slotField labels slot) ledger
      (fun made after => site.HasSlot after slot made.1 ∧
        labels.claim (labelCandidate slot.name) = .ok (made.1.1.label, made.2)) fail := by
  cases slot with
  | plain field =>
      apply ensures_bind (claimLabel_ensures hsound hlabels hcovers.label)
      rintro ⟨label, labels'⟩ claimed hclaimed hclaim
      apply ensures_bind (labelledField_ensures hclaimed.sound htypes hcovers)
      rintro recordField after hreached ⟨rfl, hfield⟩
      exact ensures_pure hreached.sound ⟨.plain hfield, hclaim⟩
  | optional field =>
      apply ensures_bind (claimLabel_ensures hsound hlabels hcovers.1)
      rintro ⟨label, labels'⟩ claimed hclaimed hclaim
      apply ensures_bind (element_ensures hclaimed.sound htypes hcovers.2)
      intro element after hreached helement
      exact ensures_pure hreached.sound ⟨.optional helement, hclaim⟩
  | choice oneof members =>
      rcases hcovers with ⟨hname, hlabel, hmembers⟩
      apply ensures_bind (choice_ensures hsound htypes hname hmembers)
      intro choice chosen hchosen hchoice
      apply ensures_bind (claimLabel_ensures hchosen.sound hlabels hlabel)
      rintro ⟨label, labels'⟩ after hreached hclaim
      exact ensures_pure hreached.sound ⟨.choice (hchoice.extend hreached.ext), hclaim⟩
  | stray index count => exact ensures_throw hsound hcovers

/-- The slots of a message become record fields, one each. -/
theorem slotFields_ensures {labels : Namespace} {slots : List Slot}
    (hsound : ledger.Sound site.settings)
    (hlabels : labels.suffix = site.settings.collisionSuffix)
    (htypes : site.CoversTypes fail) (hcovers : ∀ slot ∈ slots, site.CoversSlot fail slot) :
    Ensures site.settings (site.slotFields labels slots) ledger
      (fun made after => List.Forall₂ (site.HasSlot after) slots made ∧
        Labelled labels (slots.map Slot.name) (made.map fun field => field.1.label)) fail := by
  induction slots generalizing ledger labels with
  | nil => exact ensures_pure hsound ⟨.nil, .nil⟩
  | cons slot rest ih =>
      unfold Site.slotFields
      rcases List.forall_mem_cons.mp hcovers with ⟨hslot, hrest⟩
      apply ensures_bind (slotField_ensures hsound hlabels htypes hslot)
      rintro ⟨field, labels'⟩ fielded hfielded ⟨hfield, hclaim⟩
      apply ensures_bind (ih hfielded.sound (suffix_of_claim hlabels hclaim) hrest)
      rintro fields after hreached ⟨hfields, hlabelled⟩
      exact ensures_pure hreached.sound
        ⟨.cons (hfield.extend hreached.ext) hfields, .cons hclaim hlabelled⟩

/-- A message becomes a record, and its oneofs become choices. -/
theorem record_ensures {message : Message} (hsound : ledger.Sound site.settings)
    (htypes : site.CoversTypes fail) (hcovers : site.CoversMessage fail message) :
    Ensures site.settings (site.record message) ledger
      (fun made after => site.HasRecord after message made) fail := by
  unfold Site.record
  apply ensures_bind (binding_ensures hsound hcovers.name)
  intro binding bound hbound hbinding
  apply ensures_bind (slotFields_ensures hbound.sound rfl htypes hcovers.slots)
  rintro fields after hreached ⟨hfields, hlabels⟩
  refine ensures_pure hreached.sound
    ⟨hreached.ext.binding? hbinding, ⟨fields, hfields, rfl, rfl⟩, ?_, rfl⟩
  rw [List.map_map]
  exact hlabels

end Site

end ElmBinding
