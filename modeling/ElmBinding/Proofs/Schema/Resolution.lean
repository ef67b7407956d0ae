import ElmBinding.Proofs.Schema.Clashes
import ElmBinding.Proofs.Schema.Coherence
import ElmBinding.Proofs.Schema.Targets

/-!
# What linked references mean

Schemas that are linked together declare every full name once.  Linking gives each field and
each method the full name and the package of the one type that its written name means in its
scope, tells enumerations from messages, and changes nothing else.

Main results:

- Definition {lit}`Schema.types`: the types that a schema declares.
- Definition {lit}`IsOuterScope`: the scopes in which a name is looked up.
- Definition {lit}`Denotes`: the full names that a written name may stand for in a scope.
- Definitions {lit}`Reference.ResolvedTo`, {lit}`FieldKind.ResolvedTo` and
  {lit}`Schema.ResolvedTo`: references, kinds and schemas before and after linking.
- Theorem {lit}`denotes_of_lookup?`: what is looked up is what a name stands for.
- Theorem {lit}`resolvedTo_of_link`: what linking makes of settled schemas.
-/

namespace ElmBinding

/-! ## Declared names -/

namespace Schema

/-- The full names of messages, enumerations, values and services, at every depth. -/
def declaredNames (schema : Schema) : List String :=
  schema.allMessages.map Message.fullName ++ schema.allEnums.map Enumeration.fullName ++
    (schema.allEnums.flatMap Enumeration.values).map EnumValue.fullName ++
    schema.services.map Service.fullName

/-- The messages and enumerations of a schema at every depth, as symbols. -/
def types (schema : Schema) : List Symbol :=
  (schema.allMessages.map fun message => ⟨message.fullName, .message, schema.packageName⟩) ++
    schema.allEnums.map fun enumeration =>
      ⟨enumeration.fullName, .enumeration, schema.packageName⟩

/-- The declared names are the names of the symbols. -/
theorem declaredNames_perm (schema : Schema) : schema.declaredNames.Perm schema.symbolNames := by
  have hnames : ∀ enums : List Enumeration, (enums.map Enumeration.fullName ++
      (enums.flatMap Enumeration.values).map EnumValue.fullName).Perm
        (enums.flatMap Enumeration.names) := by
    intro enums
    rw [List.map_flatMap]
    exact List.map_append_flatMap_perm _ _ _
  have houter := hnames schema.allEnums
  have hinner := List.map_append_flatMap_perm schema.allMessages Message.fullName
    fun message => message.enums.flatMap Enumeration.names
  rw [symbolNames_eq, declaredNames]
  apply List.perm_iff_count.mpr
  intro name
  have hcountOuter := houter.count_eq name
  have hcountInner := hinner.count_eq name
  simp only [allEnums, List.flatMap_append, List.flatMap_assoc, List.count_append,
    List.map_append] at *
  omega

/-- The types of a schema are those of its symbols that are types. -/
theorem types_perm (schema : Schema) :
    schema.types.Perm (schema.symbols.filter Symbol.isType) := by
  have hvalues : ∀ (package : String) (values : List EnumValue),
      (values.map fun value => (⟨value.fullName, .value, package⟩ : Symbol)).filter
        Symbol.isType = [] := by
    intro package values
    rw [List.filter_eq_nil_iff, List.forall_mem_map]
    exact fun _ _ => by simp [Symbol.isType]
  have henums : ∀ (package : String) (enums : List Enumeration),
      (enums.flatMap (Enumeration.symbols package)).filter Symbol.isType =
        enums.map fun enumeration => ⟨enumeration.fullName, .enumeration, package⟩ := by
    intro package enums
    induction enums with
    | nil => rfl
    | cons enumeration rest ih =>
        rw [List.flatMap_cons, List.filter_append, ih, Enumeration.symbols,
          List.filter_cons_of_pos rfl, hvalues]
        rfl
  have hmessages : ∀ (package : String) (message : Message),
      (message.ownSymbols package).filter Symbol.isType =
        ⟨message.fullName, .message, package⟩ ::
          message.enums.map fun enumeration => ⟨enumeration.fullName, .enumeration, package⟩ := by
    intro package message
    rw [Message.ownSymbols, List.filter_cons_of_pos rfl, henums]
  have hservices : (schema.services.map fun service =>
      (⟨service.fullName, .service, schema.packageName⟩ : Symbol)).filter Symbol.isType = [] := by
    rw [List.filter_eq_nil_iff, List.forall_mem_map]
    exact fun _ _ => by simp [Symbol.isType]
  rw [types, allEnums, symbols, List.filter_append, List.filter_append, hservices, henums,
    List.append_nil, List.filter_flatMap, List.map_append, List.map_flatMap]
  simp only [hmessages]
  -- The enumerations outside of messages come last on one side and first on the other.
  refine (List.perm_append_comm_assoc _ _ _).trans (List.Perm.append_left _ ?_)
  exact List.map_append_flatMap_perm _ _ _

end Schema

/-! ## Written names -/

/-- A scope around a scope: the empty one, the scope itself, or what stands before a dot in it. -/
def IsOuterScope (outer scope : String) : Prop :=
  outer = "" ∨ outer = scope ∨ ∃ inner, scope = outer ++ "." ++ inner

/--
The full names that a written name may stand for in a scope: the name behind its leading dot, or
the name in a scope around the scope.
-/
def Denotes (scope written fullName : String) : Prop :=
  written = "." ++ fullName ∨
    ∃ outer, IsOuterScope outer scope ∧ fullName = qualify outer written

/-- Joined pieces are joined pieces, the mark and other joined pieces. -/
theorem intercalate_append {mark : Char} {front back : List (List Char)} (hfront : front ≠ [])
    (hback : back ≠ []) : [mark].intercalate (front ++ back) =
      [mark].intercalate front ++ mark :: [mark].intercalate back := by
  induction front with
  | nil => contradiction
  | cons piece rest ih =>
      cases rest with
      | nil =>
          rcases List.exists_cons_of_ne_nil hback with ⟨next, others, rfl⟩
          simp [List.intercalate_cons_cons]
      | cons next others =>
          have hinner := ih (List.cons_ne_nil next others)
          rw [List.cons_append] at hinner
          rw [List.cons_append, List.cons_append, List.intercalate_cons_cons, hinner,
            List.intercalate_cons_cons]
          simp only [List.append_assoc]

/-- The first segments of a name are a scope around it. -/
theorem isOuterScope_leadingSegments (name : String) (count : Nat) :
    IsOuterScope (leadingSegments name count) name := by
  have hjoined := Text.intercalate_splitAtChar '.' name.toList
  unfold leadingSegments
  generalize Text.splitAtChar '.' name.toList = segments at hjoined ⊢
  by_cases hnone : segments.take count = []
  · left
    rw [hnone]
    rfl
  · right
    by_cases hall : segments.drop count = []
    · left
      rw [List.take_of_length_le (List.drop_eq_nil_iff.mp hall), hjoined, String.ofList_toList]
    · right
      refine ⟨String.ofList (['.'].intercalate (segments.drop count)), ?_⟩
      apply String.toList_inj.mp
      rw [← hjoined, ← List.take_append_drop count segments, intercalate_append hnone hall]
      simp [String.toList_append]

variable {table : List Symbol}

/-- What is looked up is what a name stands for. -/
theorem denotes_of_lookup? {scope written : String} {symbol : Symbol}
    (h : lookup? table scope written = some symbol) : Denotes scope written symbol.name := by
  have hfound : ∀ {fullName : String}, findSymbol? table fullName = some symbol →
      symbol.name = fullName := by
    intro fullName hfind
    simpa using List.find?_some hfind
  unfold lookup? at h
  split at h
  · rename_i absolute hchars
    left
    rw [hfound h]
    apply String.toList_inj.mp
    simp [String.toList_append, hchars]
  · right
    rcases List.exists_of_findSome?_eq_some h with ⟨outer, houter, hfind⟩
    rcases List.mem_map.mp houter with ⟨count, -, rfl⟩
    exact ⟨_, isOuterScope_leadingSegments scope count, hfound hfind⟩

/-! ## References before and after linking -/

/--
A written reference in a scope and the reference that it becomes: the written name stands for
the full name of exactly one type, which is of that package.
-/
def Reference.ResolvedTo (types : List Symbol) (scope : String) (written : Reference)
    (symbol : Symbol) (target : Reference) : Prop :=
  Denotes scope written.fullName target.fullName ∧
    (types.filter fun type => type.name = target.fullName) = [symbol] ∧
    target.package = symbol.package

/--
A written kind in a scope and the kind that it becomes.  Scalar types stay what they are.  Other
kinds refer to exactly one type; they are enumerations if the type is one, and groups if they
have been groups.
-/
structure FieldKind.ResolvedTo (types : List Symbol) (scope : String)
    (written kind : FieldKind) : Prop where
  scalar : ∀ type, kind = .scalar type ↔ written = .scalar type
  group : (∃ target, kind = .group target) ↔ ∃ reference, written = .group reference
  target : ∀ target, kind.target? = some target → ∃ reference symbol,
    written.target? = some reference ∧ reference.ResolvedTo types scope symbol target ∧
      (kind = .enumeration target ↔ symbol.kind = .enumeration)

/-! ## Everything else -/

/-- A field without its type. -/
def Field.untyped (field : Field) : Field :=
  { field with kind := .scalar .bool }

mutual

/-- A message without the types of its fields and of those inside it. -/
def Message.untyped : Message → Message
  | ⟨name, fullName, fields, oneofs, messages, enums, mapEntry, comments⟩ =>
      ⟨name, fullName, fields.map Field.untyped, oneofs, untypedMessages messages, enums,
        mapEntry, comments⟩

/-- Messages without the types of their fields. -/
def untypedMessages : List Message → List Message
  | [] => []
  | message :: rest => message.untyped :: untypedMessages rest

end

/-- A method without its types. -/
def Method.untyped (method : Method) : Method :=
  { method with input := {}, output := {} }

/-- A service without the types of its methods. -/
def Service.untyped (service : Service) : Service :=
  { service with methods := service.methods.map Method.untyped }

/-- A schema without the types of its fields and methods. -/
def Schema.untyped (schema : Schema) : Schema :=
  { schema with
    messages := untypedMessages schema.messages
    services := schema.services.map Service.untyped }

/-- A schema as written and the schema that it becomes. -/
structure Schema.ResolvedTo (types : List Symbol) (schema linked : Schema) : Prop where
  fields : List.Forall₂ (fun message other => List.Forall₂ (fun field resolved =>
    field.kind.ResolvedTo types message.fullName resolved.kind) message.fields other.fields)
    schema.allMessages linked.allMessages
  methods : List.Forall₂ (fun service other => List.Forall₂ (fun method resolved =>
    (∃ symbol, method.input.ResolvedTo types schema.packageName symbol resolved.input) ∧
      ∃ symbol, method.output.ResolvedTo types schema.packageName symbol resolved.output)
    service.methods other.methods) schema.services linked.services
  /-- Nothing but types has changed. -/
  same : linked.untyped = schema.untyped

/-! ## Linking -/

/-- What is equal item by item under a function is equal under it. -/
theorem map_eq_of_forall₂ {α β γ : Type} {read : α → γ} {other : β → γ} {items : List α}
    {items' : List β} (h : List.Forall₂ (fun a b => other b = read a) items items') :
    items'.map other = items.map read := by
  induction h with
  | nil => rfl
  | cons hhead _ ih => rw [List.map_cons, List.map_cons, hhead, ih]

/-- Linking changes messages in their types only. -/
theorem untypedMessages_linkMessages {messages linked : List Message}
    (h : linkMessages table messages = .ok linked) :
    untypedMessages linked = untypedMessages messages := by
  induction messages using forest_induction generalizing linked with
  | nil =>
      rw [linkMessages_nil, Except.ok.injEq] at h
      rw [← h]
  | cons message rest ihInner ihRest =>
      rcases linkMessages_cons_eq_ok_iff.mp h with
        ⟨fields, inner, others, hfields, hinner, hothers, rfl⟩
      have hsame : fields.map Field.untyped = message.fields.map Field.untyped := by
        apply map_eq_of_forall₂
        apply (forall₂_of_mapM hfields).imp
        intro field other hlink
        rcases exists_kind_of_linkField hlink with ⟨kind, rfl⟩
        rfl
      rcases message with ⟨name, fullName, oldFields, oneofs, messages, enums, mapEntry, comments⟩
      rw [untypedMessages, untypedMessages, ihRest hothers, Message.untyped, Message.untyped,
        hsame, ihInner hinner]

/-- Linking changes services in their types only. -/
theorem untyped_linkService {package : String} {service linked : Service}
    (h : linkService table package service = .ok linked) : linked.untyped = service.untyped := by
  rcases map_eq_ok_iff.mp h with ⟨methods, hmethods, rfl⟩
  have hsame : methods.map Method.untyped = service.methods.map Method.untyped := by
    apply map_eq_of_forall₂
    apply (forall₂_of_mapM hmethods).imp
    intro method other hlink
    rcases bind_eq_ok_iff.mp hlink with ⟨input, -, hlink⟩
    rcases bind_eq_ok_iff.mp hlink with ⟨output, -, hlink⟩
    rw [← Except.ok.inj hlink]
    rfl
  simp only [Service.untyped, hsame]

/-- Linking changes schemas in their types only. -/
theorem untyped_linkSchema {schema linked : Schema} (h : linkSchema table schema = .ok linked) :
    linked.untyped = schema.untyped := by
  rcases linkSchema_eq_ok_iff.mp h with ⟨messages, services, hmessages, hservices, rfl⟩
  have hsame : services.map Service.untyped = schema.services.map Service.untyped :=
    map_eq_of_forall₂ ((forall₂_of_mapM hservices).imp fun _ _ => untyped_linkService)
  simp only [Schema.untyped, untypedMessages_linkMessages hmessages, hsame]

section

variable {types : List Symbol} {scope : String} (hdistinct : (table.map Symbol.name).Nodup)
  (htypes : types.Perm (table.filter Symbol.isType))
include hdistinct htypes

/-- A linked reference means exactly one type. -/
theorem resolvedTo_of_linkReference {reference : Reference} {symbol : Symbol}
    (h : linkReference table scope reference = .ok symbol) :
    reference.ResolvedTo types scope symbol symbol.reference := by
  unfold linkReference at h
  split at h
  · rename_i found hfound
    obtain rfl := Except.ok.inj h
    rcases Option.filter_eq_some_iff.mp hfound with ⟨hlookup, htype⟩
    have hmem : found ∈ types :=
      htypes.mem_iff.mpr (List.mem_filter.mpr ⟨mem_of_lookup? hlookup, htype⟩)
    have hnames : (types.map Symbol.name).Nodup :=
      (htypes.map Symbol.name).nodup_iff.mpr (hdistinct.sublist (List.filter_sublist.map _))
    exact ⟨denotes_of_lookup? hlookup, Sequence.filter_eq_singleton_of_mem hnames hmem, rfl⟩
  · contradiction

/-- A linked kind is what the type is that it refers to, if groups refer to messages. -/
theorem resolvedTo_of_linkKind {written kind : FieldKind}
    (hgroup : ∀ reference symbol, written = .group reference →
      linkReference table scope reference = .ok symbol → symbol.kind = .message)
    (h : linkKind table scope written = .ok kind) : written.ResolvedTo types scope kind := by
  have hnamed : ∀ {reference : Reference} {symbol : Symbol}, written.target? = some reference →
      linkReference table scope reference = .ok symbol →
      ∀ target, symbol.fieldKind.target? = some target → ∃ reference symbol',
        written.target? = some reference ∧ reference.ResolvedTo types scope symbol' target ∧
          (symbol.fieldKind = .enumeration target ↔ symbol'.kind = .enumeration) := by
    intro reference symbol hwritten hlink target htarget
    have hresolved := resolvedTo_of_linkReference hdistinct htypes hlink
    refine ⟨reference, symbol, hwritten, ?_⟩
    unfold Symbol.fieldKind at htarget ⊢
    split at htarget
    · rename_i hkind
      obtain rfl := Option.some.inj htarget
      simp [hkind, hresolved]
    · rename_i hkind
      obtain rfl := Option.some.inj htarget
      simp [hkind, hresolved]
  have hplain : ∀ (symbol : Symbol) type target,
      symbol.fieldKind ≠ .scalar type ∧ symbol.fieldKind ≠ .group target := by
    intro symbol type target
    unfold Symbol.fieldKind
    split <;> simp
  cases written with
  | scalar type =>
      obtain rfl := Except.ok.inj h
      exact ⟨fun _ => Iff.rfl, by simp, by simp [FieldKind.target?]⟩
  | enumeration reference | message reference =>
      rcases map_eq_ok_iff.mp h with ⟨symbol, hlink, rfl⟩
      refine ⟨fun type => ?_, ?_, hnamed rfl hlink⟩
      · simp [(hplain symbol type {}).1]
      · simp [(hplain symbol .bool _).2]
  | group reference =>
      rcases map_eq_ok_iff.mp h with ⟨symbol, hlink, rfl⟩
      refine ⟨by simp, by simp, ?_⟩
      intro target htarget
      obtain rfl := Option.some.inj htarget
      have hresolved := resolvedTo_of_linkReference hdistinct htypes hlink
      exact ⟨reference, symbol, rfl, hresolved, by simp [hgroup reference symbol rfl hlink]⟩

/-- A linked schema is what the schema becomes, if the schema is settled. -/
theorem resolvedTo_of_linkSchema {schema linked : Schema} (hsettled : schema.Settled)
    (hsymbols : ∀ symbol ∈ schema.symbols, symbol ∈ table)
    (h : linkSchema table schema = .ok linked) : schema.ResolvedTo types linked where
  fields := by
    rcases linkSchema_eq_ok_iff.mp h with ⟨messages, services, hmessages, -, rfl⟩
    have hpairs := (List.forall₂_and_left _ _).mpr
      ⟨fun message (hmem : message ∈ families schema.messages) => hmem,
        forall₂_linkMessages hmessages⟩
    apply hpairs.imp
    rintro message other ⟨hmem, hlinked⟩
    have hfields := (List.forall₂_and_left _ _).mpr
      ⟨fun field (hfield : field ∈ message.fields) => hfield, hlinked.fields⟩
    apply hfields.imp
    rintro field resolved ⟨hfield, hlink⟩
    rcases map_eq_ok_iff.mp hlink with ⟨kind, hkind, rfl⟩
    refine resolvedTo_of_linkKind hdistinct htypes ?_ hkind
    intro reference symbol hgroup hsymbol
    rcases (hsettled.inner message hmem).groups field hfield reference hgroup with
      ⟨nested, hnested, rfl⟩
    have hdeclared := hsymbols _ (schema.messageSymbol_mem (mem_families_of_mem hmem hnested))
    rw [linkReference_home schema.packageName hdistinct hdeclared] at hsymbol
    rw [← Except.ok.inj hsymbol]
  methods := by
    rcases linkSchema_eq_ok_iff.mp h with ⟨messages, services, -, hservices, rfl⟩
    apply (forall₂_of_mapM hservices).imp
    intro service other hlink
    rcases map_eq_ok_iff.mp hlink with ⟨methods, hmethods, rfl⟩
    apply (forall₂_of_mapM hmethods).imp
    intro method resolved hmade
    rcases bind_eq_ok_iff.mp hmade with ⟨input, hinput, hmade⟩
    rcases bind_eq_ok_iff.mp hmade with ⟨output, houtput, hmade⟩
    rw [← Except.ok.inj hmade]
    exact ⟨⟨input, resolvedTo_of_linkReference hdistinct htypes hinput⟩,
      ⟨output, resolvedTo_of_linkReference hdistinct htypes houtput⟩⟩
  same := untyped_linkSchema h

end

/--
Schemas that are linked together declare every full name once, and each of them becomes a schema
whose references are to the types that all of them declare.
-/
theorem resolvedTo_of_link {schemas linked : List Schema}
    (hsettled : ∀ schema ∈ schemas, schema.Settled) (h : link schemas = .ok linked) :
    (linked.flatMap Schema.declaredNames).Nodup ∧
      List.Forall₂ (Schema.ResolvedTo (linked.flatMap Schema.types)) schemas linked := by
  rcases bind_eq_ok_iff.mp h with ⟨table, htable, hlinked⟩
  rcases symbolTable_eq_ok_iff.mp htable with ⟨rfl, hdistinct⟩
  have hsteps := forall₂_of_mapM hlinked
  have hsymbols : linked.flatMap Schema.symbols = schemas.flatMap Schema.symbols := by
    rw [List.flatMap_def, List.flatMap_def]
    exact congrArg List.flatten (map_eq_of_forall₂ (hsteps.imp fun _ _ => symbols_linkSchema))
  have htypes : (linked.flatMap Schema.types).Perm
      ((schemas.flatMap Schema.symbols).filter Symbol.isType) := by
    rw [← hsymbols, List.filter_flatMap]
    exact List.Perm.flatMap_left _ fun schema _ => schema.types_perm
  constructor
  · have hnames : (linked.flatMap Schema.declaredNames).Perm
        ((linked.flatMap Schema.symbols).map Symbol.name) := by
      rw [List.map_flatMap]
      exact List.Perm.flatMap_left _ fun schema _ => schema.declaredNames_perm
    rw [hnames.nodup_iff, hsymbols]
    exact hdistinct
  · have hpairs := (List.forall₂_and_left _ _).mpr
      ⟨fun schema (hmem : schema ∈ schemas) => hmem, hsteps⟩
    apply hpairs.imp
    rintro schema other ⟨hmem, hlink⟩
    refine resolvedTo_of_linkSchema hdistinct htypes (hsettled schema hmem) ?_ hlink
    exact fun symbol hsymbol => List.mem_flatMap.mpr ⟨schema, hmem, hsymbol⟩

end ElmBinding
