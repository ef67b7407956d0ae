import ElmBinding.Proofs.Schema.Linking

/-!
# Schemas without comments

Comments take no part in linking.  Neither does what tells that a field of the newer dialect tracks
its presence.  A schema that is stripped of the comments, or of both, is linked as the schema is.

Main results:

- Definition {lit}`Schema.stripped`: a schema without comments, and without presence if that is not
  to be kept.
- Theorem {lit}`linkAlone_stripped`: a stripped schema is linked as the schema is.
-/

namespace ElmBinding

/-! ## Stripped declarations -/

/--
A field without its comments, and without what tells that its presence is tracked, unless that is
to be kept.
-/
def Field.stripped (tracking : Bool) (field : Field) : Field :=
  { field with
    oneof := if tracking then field.oneof else none
    tracksPresence := tracking && field.tracksPresence
    comments := {} }

/-- A oneof without its comments. -/
def Oneof.stripped (oneof : Oneof) : Oneof :=
  { oneof with comments := {} }

/-- A value of an enumeration without its comments. -/
def EnumValue.stripped (value : EnumValue) : EnumValue :=
  { value with comments := {} }

/-- An enumeration without comments. -/
def Enumeration.stripped (enumeration : Enumeration) : Enumeration :=
  { enumeration with values := enumeration.values.map EnumValue.stripped, comments := {} }

/-- A method without its comments. -/
def Method.stripped (method : Method) : Method :=
  { method with comments := {} }

/-- A service without comments. -/
def Service.stripped (service : Service) : Service :=
  { service with methods := service.methods.map Method.stripped, comments := {} }

mutual

/-- A message without comments, and without oneofs and presence unless they are to be kept. -/
def Message.stripped (tracking : Bool) : Message → Message
  | ⟨name, fullName, fields, oneofs, messages, enums, mapEntry, _⟩ =>
      ⟨name, fullName, fields.map (Field.stripped tracking),
        if tracking then oneofs.map Oneof.stripped else [], strippedMessages tracking messages,
        enums.map Enumeration.stripped, mapEntry, {}⟩

/-- Messages without comments, and without oneofs and presence unless they are to be kept. -/
def strippedMessages (tracking : Bool) : List Message → List Message
  | [] => []
  | message :: rest => message.stripped tracking :: strippedMessages tracking rest

end

/--
A schema without comments, and without its dialect, oneofs and presence unless they are to be kept.
-/
def Schema.stripped (tracking : Bool) (schema : Schema) : Schema :=
  { schema with
    dialect := if tracking then schema.dialect else .proto2
    messages := schema.messages.map (Message.stripped tracking)
    enums := schema.enums.map Enumeration.stripped
    services := schema.services.map Service.stripped }

/-- A schema with all comments erased and nothing else. -/
def Schema.withoutComments (schema : Schema) : Schema :=
  schema.stripped true

/-- Messages are stripped one by one. -/
theorem strippedMessages_eq_map (tracking : Bool) (messages : List Message) :
    strippedMessages tracking messages = messages.map (Message.stripped tracking) := by
  induction messages with
  | nil => rw [strippedMessages, List.map_nil]
  | cons message rest ih => rw [strippedMessages, ih, List.map_cons]

/-- A stripped message and what is left of its parts. -/
theorem Message.stripped_eq (tracking : Bool) (message : Message) :
    message.stripped tracking =
      { message with
        fields := message.fields.map (Field.stripped tracking)
        oneofs := if tracking then message.oneofs.map Oneof.stripped else []
        messages := message.messages.map (Message.stripped tracking)
        enums := message.enums.map Enumeration.stripped
        comments := {} } := by
  cases message
  rw [Message.stripped, strippedMessages_eq_map]

/-- The families of stripped messages are stripped. -/
theorem families_stripped (tracking : Bool) (messages : List Message) :
    families (messages.map (Message.stripped tracking)) =
      (families messages).map (Message.stripped tracking) := by
  induction messages using forest_induction with
  | nil => simp
  | cons message rest hinner hrest =>
      have hmessages : (message.stripped tracking).messages =
          message.messages.map (Message.stripped tracking) := by rw [Message.stripped_eq]
      rw [List.map_cons, families_cons_eq, families_cons_eq, hmessages, hinner, hrest,
        List.map_cons, List.map_append]

/-! ## Results under functions -/

section Results

variable {α β γ ε : Type}

/-- A function behind two steps may follow the second one. -/
theorem map_bind (first : Except ε α) (next : α → Except ε β) (change : β → γ) :
    (first >>= next).map change = first >>= fun a => (next a).map change := by
  cases first <;> rfl

/-- A function between two steps may precede the second one. -/
theorem bind_map (first : Except ε α) (change : α → β) (next : β → Except ε γ) :
    (first.map change >>= next) = first >>= fun a => next (change a) := by
  cases first <;> rfl

/-- Two runs of two steps look the same if their first steps do, and their second steps then do. -/
theorem map_bind_congr {first first' : Except ε α} {next next' : α → Except ε β} {δ : Type}
    {view : α → δ} {change : β → γ} (hfirst : first.map view = first'.map view)
    (hnext : ∀ {a a'}, view a = view a' → (next a).map change = (next' a').map change) :
    (first >>= next).map change = (first' >>= next').map change := by
  cases first with
  | error error =>
      cases first' with
      | error error' => exact congrArg Except.error (Except.error.inj hfirst)
      | ok a' => contradiction
  | ok a =>
      cases first' with
      | error error' => contradiction
      | ok a' => exact hnext (Except.ok.inj hfirst)

/-- Results with functions behind them look the same if the results do, and the values then do. -/
theorem map_map_congr {result result' : Except ε α} {make make' : α → β} {δ : Type} {view : α → δ}
    {change : β → γ} (hresult : result.map view = result'.map view)
    (hmake : ∀ {a a'}, view a = view a' → change (make a) = change (make' a')) :
    (result.map make).map change = (result'.map make').map change := by
  cases result with
  | error error =>
      cases result' with
      | error error' => exact congrArg Except.error (Except.error.inj hresult)
      | ok a' => contradiction
  | ok a =>
      cases result' with
      | error error' => contradiction
      | ok a' => exact congrArg Except.ok (hmake (Except.ok.inj hresult))

/-- Steps with a function behind each of them are steps with a function behind them all. -/
theorem mapM_map_result (step : α → Except ε β) (change : β → γ) (items : List α) :
    items.mapM (fun a => (step a).map change) = (items.mapM step).map (List.map change) := by
  induction items with
  | nil => rfl
  | cons a rest ih =>
      rw [List.mapM_cons, List.mapM_cons, ih, bind_map, map_bind]
      congr 1
      funext b
      rw [bind_map, map_bind]
      rfl

/-- If a step makes of a stripped item what it makes of the item, stripped, so do all steps. -/
theorem mapM_stripped {change : α → α} {strip : β → β} {step : α → Except ε β}
    (h : ∀ a, step (change a) = (step a).map strip) (items : List α) :
    (items.map change).mapM step = (items.mapM step).map (List.map strip) := by
  rw [List.mapM_map, ← mapM_map_result]
  congr 1
  funext a
  exact h a

/-- If steps look the same for changed items, so do all steps in order. -/
theorem mapM_map_congr {δ : Type} {step : α → Except ε β} {step' : γ → Except ε β} {change : γ → α}
    {view : β → δ} (h : ∀ item, (step (change item)).map view = (step' item).map view)
    (items : List γ) :
    ((items.map change).mapM step).map (List.map view) =
      (items.mapM step').map (List.map view) := by
  rw [List.mapM_map, ← mapM_map_result, ← mapM_map_result]
  congr 1
  funext item
  exact h item

/-- If a step looks the same for changed items, so does a run of steps. -/
theorem foldlM_map_congr {δ : Type} {step : β → α → Except ε β} {step' : β → γ → Except ε β}
    {change : γ → α} {view : β → δ}
    (h : ∀ {b b'} item, view b = view b' →
      (step b (change item)).map view = (step' b' item).map view)
    (items : List γ) {b b' : β} (hb : view b = view b') :
    ((items.map change).foldlM step b).map view = (items.foldlM step' b').map view := by
  induction items generalizing b b' with
  | nil => exact congrArg Except.ok hb
  | cons item rest ih =>
      rw [List.map_cons, List.foldlM_cons, List.foldlM_cons]
      exact map_bind_congr (h item hb) ih

end Results

/-! ## Linking -/

section Linking

variable (table : List Symbol) (tracking : Bool)

/-- A stripped field is linked as the field is. -/
theorem linkField_stripped (scope : String) (field : Field) :
    linkField table scope (field.stripped tracking) =
      (linkField table scope field).map (Field.stripped tracking) := by
  have hkind : (field.stripped tracking).kind = field.kind := rfl
  rw [linkField, linkField, hkind]
  cases linkKind table scope field.kind <;> rfl

/-- Stripped messages are linked as the messages are. -/
theorem linkMessages_stripped (messages : List Message) :
    linkMessages table (messages.map (Message.stripped tracking)) =
      (linkMessages table messages).map (List.map (Message.stripped tracking)) := by
  induction messages using forest_induction with
  | nil =>
      rw [List.map_nil, linkMessages_nil]
      rfl
  | cons message rest hinner hrest =>
      rcases message with ⟨name, fullName, fields, oneofs, messages, enums, mapEntry, comments⟩
      have hfields := mapM_stripped (linkField_stripped table tracking fullName) fields
      rw [List.map_cons, linkMessages, linkMessages, hrest, Message.stripped_eq, linkMessage,
        linkMessage, hfields, hinner]
      simp only [bind_map, map_bind, bind_assoc, pure_bind]
      congr 1
      funext linkedFields
      congr 1
      funext linkedMessages
      congr 1
      funext others
      simp only [pure, Except.pure, Except.map, List.map_cons, Message.stripped_eq]

/-- A stripped method is linked as the method is. -/
theorem linkMethod_stripped (package : String) (method : Method) :
    linkMethod table package method.stripped =
      (linkMethod table package method).map Method.stripped := by
  simp only [linkMethod, map_bind]
  rfl

/-- A stripped service is linked as the service is. -/
theorem linkService_stripped (package : String) (service : Service) :
    linkService table package service.stripped =
      (linkService table package service).map Service.stripped := by
  have hmethods := mapM_stripped (linkMethod_stripped table package) service.methods
  have hparts : service.stripped.methods = service.methods.map Method.stripped := rfl
  rw [linkService, linkService, hparts, hmethods]
  cases service.methods.mapM (linkMethod table package) <;> rfl

/-- A stripped schema is linked as the schema is. -/
theorem linkSchema_stripped (schema : Schema) :
    linkSchema table (schema.stripped tracking) =
      (linkSchema table schema).map (Schema.stripped tracking) := by
  have hmessages := linkMessages_stripped table tracking schema.messages
  have hservices := mapM_stripped (linkService_stripped table schema.packageName) schema.services
  have hpackage : (schema.stripped tracking).packageName = schema.packageName := rfl
  have hparts : (schema.stripped tracking).messages =
      schema.messages.map (Message.stripped tracking) := rfl
  have hothers : (schema.stripped tracking).services = schema.services.map Service.stripped := rfl
  rw [linkSchema, linkSchema, hpackage, hparts, hothers, hmessages, hservices]
  simp only [bind_map, map_bind]
  rfl

end Linking

/-- A stripped schema has the symbols of the schema. -/
theorem symbols_stripped (tracking : Bool) (schema : Schema) :
    (schema.stripped tracking).symbols = schema.symbols := by
  have henums : ∀ (package : String) (enums : List Enumeration),
      (enums.map Enumeration.stripped).flatMap (Enumeration.symbols package) =
        enums.flatMap (Enumeration.symbols package) := by
    intro package enums
    rw [List.flatMap_map]
    congr 1
    funext enumeration
    simp [Enumeration.symbols, Enumeration.stripped, EnumValue.stripped, Function.comp_def]
  have hmessages : ∀ (package : String) (message : Message),
      (message.stripped tracking).ownSymbols package = message.ownSymbols package := by
    intro package message
    rw [Message.stripped_eq, Message.ownSymbols, Message.ownSymbols, henums]
  have hall : (schema.stripped tracking).allMessages =
      schema.allMessages.map (Message.stripped tracking) :=
    families_stripped tracking schema.messages
  unfold Schema.symbols
  rw [hall, List.flatMap_map]
  simp only [hmessages]
  simp [Schema.stripped, henums, Schema.packageName, Service.stripped, Function.comp_def]

/-- A stripped schema is linked as the schema is. -/
theorem linkAlone_stripped (tracking : Bool) (schema : Schema) :
    linkAlone (schema.stripped tracking) = (linkAlone schema).map (Schema.stripped tracking) := by
  have htable : symbolTable [schema.stripped tracking] = symbolTable [schema] := by
    simp only [symbolTable, List.flatMap_singleton, symbols_stripped]
  simp only [linkAlone, htable, linkSchema_stripped, map_bind]

end ElmBinding
