import ElmBinding.Proofs.Naming.Catalogs
import ElmBinding.Schema.Linking
import Mathlib.Data.List.Forall2

/-!
# What linking keeps

Linking changes the types of fields and of methods and nothing else.  A linked schema has the
symbols of the schema it comes from, and they are distinct.

Main results:

- Theorems {lit}`linkMessage_eq_ok_iff` and {lit}`linkSchema_eq_ok_iff`: what the parts of linked
  declarations are.
- Theorem {lit}`symbols_linkSchema`: linking keeps symbols.
- Theorem {lit}`symbols_nodup_of_linkAlone`: the symbols of a linked schema are distinct.
-/

namespace ElmBinding

variable {table : List Symbol}

/-! ## Linked declarations -/

/-- Two steps end well if the first one does and the second one does with its result. -/
theorem bind_eq_ok_iff {α β ε : Type} {first : Except ε α} {next : α → Except ε β} {b : β} :
    (first >>= next) = .ok b ↔ ∃ a, first = .ok a ∧ next a = .ok b := by
  cases first with
  | error error => simp [bind, Except.bind]
  | ok a => simp [bind, Except.bind]

/-- A result under a function is well if the result is. -/
theorem map_eq_ok_iff {α β ε : Type} {result : Except ε α} {change : α → β} {b : β} :
    result.map change = .ok b ↔ ∃ a, result = .ok a ∧ change a = b := by
  cases result with
  | error error => simp [Except.map]
  | ok a => simp [Except.map]

/-- Steps for the items of a list end well if each of them does. -/
theorem forall₂_of_mapM {α β ε : Type} {step : α → Except ε β} {items : List α} {results : List β}
    (h : items.mapM step = .ok results) :
    List.Forall₂ (fun a b => step a = .ok b) items results := by
  induction items generalizing results with
  | nil =>
      rw [List.mapM_nil] at h
      rw [← Except.ok.inj h]
      exact .nil
  | cons a rest ih =>
      rw [List.mapM_cons] at h
      rcases bind_eq_ok_iff.mp h with ⟨b, hb, h⟩
      rcases bind_eq_ok_iff.mp h with ⟨others, hothers, h⟩
      rw [← Except.ok.inj h]
      exact .cons hb (ih hothers)

/-- If a step makes something of each item, the steps in order make a list of that. -/
theorem mapM_eq_ok_map {α β ε : Type} {step : α → Except ε β} {make : α → β} {items : List α}
    (h : ∀ a ∈ items, step a = .ok (make a)) : items.mapM step = .ok (items.map make) := by
  induction items with
  | nil => rfl
  | cons a rest ih =>
      rcases List.forall_mem_cons.mp h with ⟨hfirst, hrest⟩
      rw [List.mapM_cons, hfirst, ih hrest]
      rfl

/-- Steps that end well one by one end well in order. -/
theorem mapM_of_forall₂ {α β ε : Type} {step : α → Except ε β} {items : List α} {results : List β}
    (h : List.Forall₂ (fun a b => step a = .ok b) items results) :
    items.mapM step = .ok results := by
  induction h with
  | nil => rfl
  | cons hfirst _ ih =>
      rw [List.mapM_cons, hfirst, ih]
      rfl

@[simp] theorem linkMessages_nil (table : List Symbol) : linkMessages table [] = .ok [] := by
  rw [linkMessages]

/-- A linked message: its fields linked, and the messages inside it. -/
theorem linkMessage_eq_ok_iff {message linked : Message} :
    linkMessage table message = .ok linked ↔
      ∃ fields inner, message.fields.mapM (linkField table message.fullName) = .ok fields ∧
        linkMessages table message.messages = .ok inner ∧
        linked = { message with fields, messages := inner } := by
  rcases message with ⟨name, fullName, fields, oneofs, messages, enums, mapEntry, comments⟩
  simp only [linkMessage, bind_eq_ok_iff, pure, Except.pure, Except.ok.injEq]
  constructor
  · rintro ⟨linkedFields, hfields, inner, hinner, rfl⟩
    exact ⟨linkedFields, inner, hfields, hinner, rfl⟩
  · rintro ⟨linkedFields, inner, hfields, hinner, rfl⟩
    exact ⟨linkedFields, hfields, inner, hinner, rfl⟩

/-- Messages are linked one after the other. -/
theorem linkMessages_eq_mapM (table : List Symbol) (messages : List Message) :
    linkMessages table messages = messages.mapM (linkMessage table) := by
  induction messages with
  | nil => exact linkMessages_nil table
  | cons message rest ih => rw [linkMessages, List.mapM_cons, ih]

/-- Linked messages: the first one with linked fields and insides, then the others. -/
theorem linkMessages_cons_eq_ok_iff {message : Message} {rest linked : List Message} :
    linkMessages table (message :: rest) = .ok linked ↔
      ∃ fields inner others, message.fields.mapM (linkField table message.fullName) = .ok fields ∧
        linkMessages table message.messages = .ok inner ∧ linkMessages table rest = .ok others ∧
        linked = { message with fields, messages := inner } :: others := by
  rw [linkMessages, bind_eq_ok_iff]
  simp only [linkMessage_eq_ok_iff, bind_eq_ok_iff, pure, Except.pure, Except.ok.injEq]
  constructor
  · rintro ⟨_, ⟨linkedFields, inner, hfields, hinner, rfl⟩, others, hothers, rfl⟩
    exact ⟨linkedFields, inner, others, hfields, hinner, hothers, rfl⟩
  · rintro ⟨linkedFields, inner, others, hfields, hinner, hothers, rfl⟩
    exact ⟨_, ⟨linkedFields, inner, hfields, hinner, rfl⟩, others, hothers, rfl⟩

/-- A linked schema: linked messages, and services with linked methods. -/
theorem linkSchema_eq_ok_iff {schema linked : Schema} :
    linkSchema table schema = .ok linked ↔
      ∃ messages services, linkMessages table schema.messages = .ok messages ∧
        schema.services.mapM (linkService table schema.packageName) = .ok services ∧
        linked = { schema with messages, services } := by
  simp only [linkSchema, bind_eq_ok_iff, pure, Except.pure, Except.ok.injEq]
  constructor
  · rintro ⟨messages, hmessages, services, hservices, rfl⟩
    exact ⟨messages, services, hmessages, hservices, rfl⟩
  · rintro ⟨messages, services, hmessages, hservices, rfl⟩
    exact ⟨messages, hmessages, services, hservices, rfl⟩

/-- A linked service has the name that it had. -/
theorem fullName_linkService {package : String} {service linked : Service}
    (h : linkService table package service = .ok linked) :
    linked.fullName = service.fullName := by
  unfold linkService at h
  cases hmethods : service.methods.mapM (linkMethod table package) with
  | error error =>
      rw [hmethods] at h
      contradiction
  | ok methods =>
      rw [hmethods] at h
      rw [← Except.ok.inj h]

/-- A message with its fields linked, and what else stays as it is. -/
structure Message.Linked (table : List Symbol) (message linked : Message) : Prop where
  name : linked.name = message.name
  fullName : linked.fullName = message.fullName
  oneofs : linked.oneofs = message.oneofs
  enums : linked.enums = message.enums
  mapEntry : linked.mapEntry = message.mapEntry
  fields : List.Forall₂ (fun field other => linkField table message.fullName field = .ok other)
    message.fields linked.fields

/-- Messages at every depth are linked. -/
theorem forall₂_linkMessage {messages linked : List Message}
    (h : linkMessages table messages = .ok linked) :
    List.Forall₂ (fun message other => linkMessage table message = .ok other) (families messages)
      (families linked) := by
  induction messages using forest_induction generalizing linked with
  | nil =>
      rw [linkMessages_nil, Except.ok.injEq] at h
      rw [← h, families_nil]
      exact .nil
  | cons message rest hinner hrest =>
      rcases linkMessages_cons_eq_ok_iff.mp h with
        ⟨fields, inner, others, hfields, hmessages, hothers, rfl⟩
      rw [families_cons_eq, families_cons_eq]
      exact .cons (linkMessage_eq_ok_iff.mpr ⟨fields, inner, hfields, hmessages, rfl⟩)
        (List.rel_append (hinner hmessages) (hrest hothers))

/-- Messages at every depth have their fields linked. -/
theorem forall₂_linkMessages {messages linked : List Message}
    (h : linkMessages table messages = .ok linked) :
    List.Forall₂ (Message.Linked table) (families messages) (families linked) := by
  apply (forall₂_linkMessage h).imp
  intro message other hlink
  rcases linkMessage_eq_ok_iff.mp hlink with ⟨fields, inner, hfields, -, rfl⟩
  exact ⟨rfl, rfl, rfl, rfl, rfl, forall₂_of_mapM hfields⟩

/-- A linked field has the oneof and the cardinality that it had. -/
theorem eq_of_linkField {scope : String} {field linked : Field}
    (h : linkField table scope field = .ok linked) :
    linked.oneof = field.oneof ∧ linked.cardinality = field.cardinality := by
  rcases map_eq_ok_iff.mp h with ⟨kind, -, rfl⟩
  exact ⟨rfl, rfl⟩

/-! ## Symbols -/

/-- Linked messages declare the symbols that they had. -/
theorem ownSymbols_linkMessages {messages linked : List Message} (package : String)
    (h : linkMessages table messages = .ok linked) :
    (families linked).flatMap (Message.ownSymbols package) =
      (families messages).flatMap (Message.ownSymbols package) := by
  induction messages using forest_induction generalizing linked with
  | nil =>
      rw [linkMessages_nil, Except.ok.injEq] at h
      rw [← h]
  | cons message rest ihInner ihRest =>
      rcases linkMessages_cons_eq_ok_iff.mp h with ⟨fields, inner, others, -, hinner, hothers, rfl⟩
      simp only [families_cons_eq, List.flatMap_cons, List.flatMap_append, ihInner hinner,
        ihRest hothers]
      rfl

/-- Linked services have the names that they had. -/
theorem fullNames_linkServices {package : String} {services linked : List Service}
    (h : services.mapM (linkService table package) = .ok linked) :
    linked.map Service.fullName = services.map Service.fullName := by
  induction services generalizing linked with
  | nil =>
      rw [List.mapM_nil] at h
      rw [← Except.ok.inj h]
  | cons service rest ih =>
      rw [List.mapM_cons] at h
      rcases bind_eq_ok_iff.mp h with ⟨first, hfirst, h⟩
      rcases bind_eq_ok_iff.mp h with ⟨others, hothers, h⟩
      rw [← Except.ok.inj h, List.map_cons, List.map_cons, fullName_linkService hfirst, ih hothers]

/-- Linking keeps the symbols of a schema. -/
theorem symbols_linkSchema {schema linked : Schema} (h : linkSchema table schema = .ok linked) :
    linked.symbols = schema.symbols := by
  rcases linkSchema_eq_ok_iff.mp h with ⟨messages, services, hmessages, hservices, rfl⟩
  have hnames := congrArg
    (List.map fun name => (⟨name, .service, schema.packageName⟩ : Symbol))
    (fullNames_linkServices hservices)
  rw [List.map_map, List.map_map] at hnames
  have hown := ownSymbols_linkMessages schema.packageName hmessages
  unfold Schema.symbols Schema.allMessages
  exact congrArg₂ (· ++ ·)
    (congrArg (schema.enums.flatMap (Enumeration.symbols schema.packageName) ++ ·) hown) hnames

/-- The symbols of schemas make a table if their names are distinct. -/
theorem symbolTable_eq_ok_iff {schemas : List Schema} :
    symbolTable schemas = .ok table ↔
      table = schemas.flatMap Schema.symbols ∧ (table.map Symbol.name).Nodup := by
  simp only [symbolTable]
  cases hrepeat : Sequence.firstRepeat? ((schemas.flatMap Schema.symbols).map Symbol.name) with
  | some name =>
      have hrepeated : ¬((schemas.flatMap Schema.symbols).map Symbol.name).Nodup := by
        rw [← Sequence.firstRepeat?_eq_none_iff, hrepeat]
        exact Option.some_ne_none name
      constructor
      · intro h
        contradiction
      · rintro ⟨rfl, hnodup⟩
        contradiction
  | none =>
      have hnodup := (Sequence.firstRepeat?_eq_none_iff _).mp hrepeat
      rw [Except.ok.injEq]
      constructor
      · rintro rfl
        exact ⟨rfl, hnodup⟩
      · rintro ⟨rfl, -⟩
        rfl

/-- The symbols of a schema that is linked on its own are distinct. -/
theorem symbols_nodup_of_linkAlone {schema linked : Schema} (h : linkAlone schema = .ok linked) :
    (linked.symbols.map Symbol.name).Nodup := by
  unfold linkAlone at h
  rcases bind_eq_ok_iff.mp h with ⟨table, htable, hlinked⟩
  rcases symbolTable_eq_ok_iff.mp htable with ⟨rfl, hnodup⟩
  rw [List.flatMap_singleton] at hnodup
  rw [symbols_linkSchema hlinked]
  exact hnodup

end ElmBinding
