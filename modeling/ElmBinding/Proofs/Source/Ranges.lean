import ElmBinding.Proofs.Schema.Resolution
import ElmBinding.Proofs.Source.Numbers
import ElmBinding.Proofs.Source.Oneofs

/-!
# Numbers in range

The numbers in a source text are checked one after the other, in the order in which the
declarations stand.  The first number that does not fit is reported, and where all of them fit, the
schema has exactly the numbers that are read, however deep its messages nest.  A literal that is not
readable counts as zero, which always fits.

Main results:

- Definition {lit}`Settles`: a step that ends well if its numbers fit, and reports one otherwise.
- Theorem {lit}`settles_declareAll`: the body of a message settles its numbers.
- Theorem {lit}`settles_schemaOf`: the schema of a tree settles the numbers in the tree.
- Theorem {lit}`numbers_of_text`: which numbers are accepted and what they are read as.
-/

namespace ElmBinding
namespace Source

open Grammar

/-! ## Numbers in order -/

/--
A step that has numbers to check ends well if all of them fit, and else it reports the first one
that does not.
-/
def Settles {α : Type} (numbers : List WrittenNumber) (result : Except SchemaError α)
    (good : α → Prop) : Prop :=
  match numbers.find? fun number => !number.fits with
  | some number => result = .error number.error
  | none => ∃ a, result = .ok a ∧ good a

namespace Settles

variable {α β : Type} {numbers others : List WrittenNumber} {result : Except SchemaError α}
  {next : α → Except SchemaError β} {good : α → Prop} {fine : β → Prop}

/-- A step without numbers ends well. -/
theorem ok {a : α} (h : good a) : Settles [] (.ok a) good :=
  ⟨a, rfl, h⟩

/-- A step with one number is told by what it does where the number fits and where it does not. -/
theorem of_fits {number : WrittenNumber}
    (hfits : number.fits = true → ∃ a, result = .ok a ∧ good a)
    (hbeyond : number.fits = false → result = .error number.error) :
    Settles [number] result good := by
  unfold Settles
  cases hnumber : number.fits with
  | true =>
      rw [List.find?_cons_of_neg (by simp [hnumber])]
      exact hfits hnumber
  | false =>
      rw [List.find?_cons_of_pos (by simp [hnumber])]
      exact hbeyond hnumber

/-- What a step that settles its numbers comes to can be weakened. -/
theorem imp {weaker : α → Prop} (h : Settles numbers result good)
    (himp : ∀ a, good a → weaker a) : Settles numbers result weaker := by
  unfold Settles at h ⊢
  cases hfind : numbers.find? fun number => !number.fits with
  | some number =>
      rw [hfind] at h
      exact h
  | none =>
      rw [hfind] at h
      exact h.imp fun a ha => ⟨ha.1, himp a ha.2⟩

/-- Two steps settle the numbers of both, one after the other. -/
theorem bind (h : Settles numbers result good)
    (hnext : ∀ a, good a → Settles others (next a) fine) :
    Settles (numbers ++ others) (result >>= next) fine := by
  unfold Settles at h ⊢
  rw [List.find?_append]
  cases hfind : numbers.find? fun number => !number.fits with
  | some number =>
      rw [hfind] at h
      rw [h]
      rfl
  | none =>
      rw [hfind] at h
      rcases h with ⟨a, rfl, hgood⟩
      exact hnext a hgood

/-- A result under a function settles what the result does. -/
theorem map {change : α → β} (h : Settles numbers result good)
    (hchange : ∀ a, good a → fine (change a)) : Settles numbers (result.map change) fine := by
  have hbind := h.bind fun a hgood => ok (hchange a hgood)
  rw [List.append_nil] at hbind
  cases result <;> exact hbind

/-- What is made of a result settles what the result does. -/
theorem making {make : α → β} (h : Settles numbers result good)
    (hmake : ∀ a, good a → fine (make a)) :
    Settles numbers (do let a ← result; return make a) fine := by
  have hmap := h.map hmake
  cases result <;> exact hmap

/-- Steps for the items of a list settle the numbers of each of them. -/
theorem mapM {γ : Type} {items : List γ} {step : γ → Except SchemaError α}
    {numberOf : γ → WrittenNumber} {good : γ → α → Prop}
    (h : ∀ item ∈ items, Settles [numberOf item] (step item) (good item)) :
    Settles (items.map numberOf) (items.mapM step)
      fun results => List.Forall₂ good items results := by
  induction items with
  | nil => exact ok .nil
  | cons item items ih =>
      rcases List.forall_mem_cons.mp h with ⟨hitem, hitems⟩
      rw [List.mapM_cons]
      exact hitem.bind fun a ha => (ih hitems).map fun results hresults => .cons ha hresults

end Settles

/-! ## Declarations with one number -/

section Declarations

variable {node : Node Rule} {origin : Origin} {scope fullName : String}

/-- A tag is accepted if it fits, as what it is read as. -/
theorem settles_tagOf (h : IsLiteral (tagIn fullName node).literal) :
    Settles [tagIn fullName node] (tagOf fullName node)
      fun number => (number : Int) = (tagIn fullName node).value := by
  have hread : integerValue ((node.child? .tag).elim [] Node.text) =
      clampToInt64 (tagIn fullName node).value := integerValue_of_isLiteral h
  have hrange : (tagIn fullName node).fits = true ↔
      0 ≤ clampToInt64 (tagIn fullName node).value ∧
        clampToInt64 (tagIn fullName node).value ≤ 0xFFFFFFFF := WrittenNumber.fits_iff _
  simp only [tagOf, fieldNumber, hread]
  refine .of_fits (fun hfits => ?_) fun hbeyond => ?_
  · have hclamp := WrittenNumber.clampToInt64_of_fits _ hfits
    rw [if_pos (hrange.mp hfits)]
    rw [hrange, hclamp] at hfits
    exact ⟨_, rfl, by rw [hclamp, Int.toNat_of_nonneg hfits.1]⟩
  · rw [if_neg (mt hrange.mpr (by simp [hbeyond]))]
    rfl

/-- The number of a value is accepted if it fits, as what it is read as. -/
theorem settles_enumValueOf (h : IsLiteral (valueIn scope node).literal) :
    Settles [valueIn scope node] (enumValueOf origin scope node)
      fun value => (value.fullName, value.number) = (valueIn scope node).entry := by
  have hread : integerValue ((node.child? .enumFieldValue).elim [] Node.text) =
      clampToInt64 (valueIn scope node).value := integerValue_of_isLiteral h
  have hrange : (valueIn scope node).fits = true ↔
      -0x80000000 ≤ clampToInt64 (valueIn scope node).value ∧
        clampToInt64 (valueIn scope node).value ≤ 0x7FFFFFFF := WrittenNumber.fits_iff _
  simp only [enumValueOf, hread]
  refine .of_fits (fun hfits => ?_) fun hbeyond => ?_
  · rw [if_pos (hrange.mp hfits)]
    exact ⟨_, rfl, by rw [WrittenNumber.clampToInt64_of_fits _ hfits]; rfl⟩
  · rw [if_neg (mt hrange.mpr (by simp [hbeyond]))]
    rfl

/-- What is made of a tag that is accepted settles the tag. -/
theorem settles_of_tagOf {α : Type} {make : Nat → α} {good : α → Prop}
    (h : IsLiteral (tagIn fullName node).literal)
    (hmake : ∀ number : Nat, (fullName, (number : Int)) = (tagIn fullName node).entry →
      good (make number)) :
    Settles [tagIn fullName node] (do let number ← tagOf fullName node; return make number)
      good :=
  (settles_tagOf h).making fun number hnumber => hmake number (by rw [hnumber]; rfl)

/-- A field settles its tag. -/
theorem settles_fieldOf (hnode : node.Everywhere Numbered) (hrule : node.rule = .field) :
    Settles [fieldTagIn scope node] (fieldOf origin scope node)
      fun field => field.numbered = (fieldTagIn scope node).entry :=
  settles_of_tagOf (isLiteral_tagIn hnode (Or.inl hrule) _) fun _ hnumber => hnumber

/-- A map field settles its tag; the fields of its entry have none in the text. -/
theorem settles_mapFieldOf (hnode : node.Everywhere Numbered) (hrule : node.rule = .mapField) :
    Settles [fieldTagIn scope node] (mapFieldOf origin scope node) fun made =>
      made.1.numbered = (fieldTagIn scope node).entry ∧ made.2.numbers = [] := by
  refine settles_of_tagOf (isLiteral_tagIn hnode (Or.inr (Or.inl hrule)) _) fun _ hnumber => ?_
  refine ⟨hnumber, ?_⟩
  rw [Message.numbers, Message.family_eq]
  simp [entryMessage, Message.ownNumbers]

/-- The field of a group settles its tag. -/
theorem settles_groupFieldOf (hnode : node.Everywhere Numbered) (hrule : node.rule = .groupField) :
    Settles [tagIn (qualify scope (String.ofList
        ((node.childString .groupName).toList.map Char.toLower))) node]
      (groupFieldOf origin scope node) fun field => field.numbered = (tagIn (qualify scope
        (String.ofList ((node.childString .groupName).toList.map Char.toLower))) node).entry :=
  settles_of_tagOf (isLiteral_tagIn hnode (Or.inr (Or.inr hrule)) _) fun _ hnumber => hnumber

/-- An enumeration settles the numbers of its values. -/
theorem settles_enumOf (hnode : node.Everywhere Numbered) :
    Settles ((valueNodes node).map (valueIn scope)) (enumOf origin scope node)
      fun enumeration => enumeration.numbers =
        ((valueNodes node).map (valueIn scope)).map WrittenNumber.entry := by
  have hvalues := Settles.mapM fun inner hinner =>
    have hnumbered := numbered_of_mem_valueNodes hnode hinner
    @settles_enumValueOf inner origin scope (isLiteral_valueIn hnumbered.1 hnumbered.2 scope)
  refine hvalues.making fun values hvalues => ?_
  rw [Enumeration.numbers, List.map_map]
  exact map_eq_of_forall₂ hvalues

/-- A oneof with its members settles their tags. -/
theorem settles_declareOneof {message : Message} (hplain : message.mapEntry = false)
    (hnode : node.Everywhere Numbered) :
    Settles ((memberNodes node).map (fieldTagIn message.fullName))
      (declareOneof origin message node) (message.Gains
        (((memberNodes node).map (fieldTagIn message.fullName)).map WrittenNumber.entry)) := by
  have hfields := Settles.mapM fun inner hinner =>
    have hnumbered := numbered_of_mem_memberNodes hnode hinner
    @settles_fieldOf inner origin message.fullName hnumbered.1 hnumbered.2
  refine hfields.making fun fields hfields => ?_
  have hmembers : (fields.map (memberOf message.oneofs.length)).map Field.numbered =
      ((memberNodes node).map (fieldTagIn message.fullName)).map WrittenNumber.entry := by
    rw [List.map_map, List.map_map]
    exact map_eq_of_forall₂ hfields
  rw [← hmembers]
  exact .addFields hplain _ _

end Declarations

/-! ## Bodies -/

/-- Synthetic oneofs leave the numbers of a message as they are. -/
theorem numbers_withSyntheticOneofs (message : Message) :
    message.withSyntheticOneofs.numbers = message.numbers := by
  rw [Message.numbers_eq, Message.numbers_eq, Message.ownNumbers, Message.ownNumbers]
  simp only [Message.withSyntheticOneofs]
  rw [map_attachOneofs fun _ _ => rfl]
  rfl

variable {node : Node Rule} {origin : Origin}

/-- A message that is added has the numbers of its body, if its head has none. -/
theorem gains_addMessage {message head nested : Message} {numbers : List (String × Int)}
    (hhead : head.numbers = []) (h : head.Gains numbers nested) :
    message.Gains numbers (message.addMessage nested.withSyntheticOneofs) := by
  refine (Message.Gains.addMessage message _).perm ?_
  have hperm := h.numbers
  rw [hhead, List.nil_append] at hperm
  rw [numbers_withSyntheticOneofs]
  exact hperm

/-- The head of a message has no numbers. -/
theorem numbers_messageHead (scope : String) (node : Node Rule) :
    (messageHead origin scope node).numbers = [] := by
  rw [Message.numbers_eq]
  simp [messageHead, Message.ownNumbers]

/-- The head of the message of a group has no numbers. -/
theorem numbers_groupHead (scope : String) (node : Node Rule) :
    (groupHead scope node).numbers = [] := by
  rw [Message.numbers_eq]
  simp [groupHead, Message.ownNumbers]

/-- A node of a body settles its numbers if the nodes inside it do. -/
theorem settles_declare {message : Message} (hplain : message.mapEntry = false)
    (hnode : node.Everywhere Numbered)
    (hchildren : ∀ {message : Message}, message.mapEntry = false →
      Settles (bodyNumbers message.fullName node.children)
        (declareAll origin message node.children)
        (message.Gains ((bodyNumbers message.fullName node.children).map WrittenNumber.entry))) :
    Settles (nodeNumbers message.fullName node) (declare origin message node)
      (message.Gains ((nodeNumbers message.fullName node).map WrittenNumber.entry)) := by
  rcases node with ⟨rule, start, text, children⟩
  cases rule with
  | messageBody | messageElement =>
      rw [declare, nodeNumbers]
      exact hchildren hplain
  | field =>
      rw [declare, nodeNumbers]
      refine (settles_fieldOf hnode rfl).map fun field hfield => ?_
      rw [List.map_singleton, ← hfield]
      exact .addField hplain field
  | mapField =>
      rw [declare, nodeNumbers]
      refine (settles_mapFieldOf hnode rfl).making fun made hmade => ?_
      rw [List.map_singleton, ← hmade.1]
      have hentry := Message.Gains.addMessage message made.2
      rw [hmade.2] at hentry
      exact hentry.trans (.addField (hentry.mapEntry.trans hplain) made.1)
  | groupField =>
      rw [declare, nodeNumbers]
      refine (settles_groupFieldOf hnode rfl).bind fun field hfield => ?_
      refine Settles.making (@hchildren (groupHead message.fullName _) rfl) fun group hgroup => ?_
      have hadded : message.Gains _ (message.addMessage group.withSyntheticOneofs) :=
        gains_addMessage (numbers_groupHead _ _) hgroup
      refine (hadded.trans (.addField (hadded.mapEntry.trans hplain) field)).perm ?_
      rw [List.map_cons, hfield]
      exact List.perm_append_singleton _ _
  | oneof =>
      rw [declare, nodeNumbers]
      exact settles_declareOneof hplain hnode
  | enumBlock =>
      rw [declare, nodeNumbers]
      refine (settles_enumOf hnode).map fun enumeration hnumbers => ?_
      rw [← hnumbers]
      exact .addEnum message enumeration
  | messageBlock =>
      rw [declare, nodeNumbers]
      refine Settles.making (@hchildren (messageHead origin message.fullName _) rfl)
        fun nested hnested => ?_
      exact gains_addMessage (numbers_messageHead _ _) hnested
  | _ =>
      rw [declare, nodeNumbers]
      · exact .ok (.refl message)
      all_goals simp

/-- The body of a message settles its numbers. -/
theorem settles_declareAll {message : Message} (hplain : message.mapEntry = false)
    {nodes : List (Node Rule)} (hnodes : ∀ node ∈ nodes, node.Everywhere Numbered) :
    Settles (bodyNumbers message.fullName nodes) (declareAll origin message nodes)
      (message.Gains ((bodyNumbers message.fullName nodes).map WrittenNumber.entry)) := by
  induction nodes using nodes_induction generalizing message with
  | nil =>
      rw [bodyNumbers, declareAll]
      exact .ok (.refl message)
  | cons node rest hchildren hrest =>
      rcases List.forall_mem_cons.mp hnodes with ⟨hnode, hnodes⟩
      rw [bodyNumbers, declareAll]
      have hfirst : Settles _ (declare origin message node) _ :=
        settles_declare hplain hnode fun {_} hplain => hchildren hplain hnode.child
      refine hfirst.bind fun extended hextended => ?_
      have hothers := hrest (hextended.mapEntry.trans hplain) hnodes
      rw [hextended.fullName] at hothers
      rw [List.map_append]
      exact hothers.imp fun after hafter => hextended.trans hafter

/-! ## Schemas -/

/-- A schema has the numbers of a message that is added. -/
theorem numbers_addMessage (schema : Schema) (message : Message) :
    ({ schema with messages := schema.messages ++ [message] } : Schema).numbers.Perm
      (schema.numbers ++ message.numbers) := by
  simp only [Schema.numbers, Schema.allMessages, families_append, families_cons, families_nil,
    List.append_nil, List.flatMap_append]
  rw [List.append_assoc, List.append_assoc]
  exact List.perm_append_comm.append_left _

/-- A schema has the numbers of an enumeration that is added. -/
theorem numbers_addEnum (schema : Schema) (enumeration : Enumeration) :
    ({ schema with enums := schema.enums ++ [enumeration] } : Schema).numbers =
      schema.numbers ++ enumeration.numbers := by
  simp only [Schema.numbers, Schema.allMessages, List.flatMap_append, List.flatMap_singleton,
    List.append_assoc]

/-- A message settles the numbers in its body. -/
theorem settles_messageOf {scope : String} (hnode : node.Everywhere Numbered) :
    Settles (bodyNumbers (qualify scope (node.childString .messageName)) node.children)
      (messageOf origin scope node) fun message => message.numbers.Perm
        ((bodyNumbers (qualify scope (node.childString .messageName)) node.children).map
          WrittenNumber.entry) := by
  refine (@settles_declareAll origin (messageHead origin scope node) rfl _ hnode.child).map
    fun message hmessage => ?_
  have hperm := hmessage.numbers
  rw [numbers_messageHead, List.nil_append] at hperm
  rw [numbers_withSyntheticOneofs]
  exact hperm

/-- A definition settles its numbers. -/
theorem settles_define {schema : Schema} (hnode : node.Everywhere Numbered) :
    Settles (definitionNumbers origin.package node) (define origin schema node) fun after =>
      after.numbers.Perm
        (schema.numbers ++ (definitionNumbers origin.package node).map WrittenNumber.entry) := by
  rcases node with ⟨rule, start, text, children⟩
  cases rule with
  | messageBlock =>
      refine (settles_messageOf hnode).making fun message hmessage => ?_
      exact (numbers_addMessage schema message).trans (hmessage.append_left _)
  | enumBlock =>
      refine (settles_enumOf hnode).making fun enumeration hnumbers => ?_
      rw [numbers_addEnum, hnumbers]
      exact List.Perm.refl _
  | _ => exact .ok (List.Perm.of_eq (List.append_nil schema.numbers).symm)

/-- Definitions settle their numbers one after the other. -/
theorem settles_definitions {schema : Schema} {nodes : List (Node Rule)}
    (hnodes : ∀ node ∈ nodes, node.Everywhere Numbered) :
    Settles (nodes.flatMap (definitionNumbers origin.package)) (nodes.foldlM (define origin) schema)
      fun after => after.numbers.Perm (schema.numbers ++
        (nodes.flatMap (definitionNumbers origin.package)).map WrittenNumber.entry) := by
  induction nodes generalizing schema with
  | nil =>
      refine .ok ?_
      rw [List.flatMap_nil, List.map_nil, List.append_nil]
  | cons node nodes ih =>
      rcases List.forall_mem_cons.mp hnodes with ⟨hnode, hnodes⟩
      rw [List.flatMap_cons, List.foldlM_cons]
      refine (settles_define hnode).bind fun extended hextended => ?_
      refine (ih hnodes).imp fun after hafter => ?_
      rw [List.map_append, ← List.append_assoc]
      exact hafter.trans (hextended.append_right _)

/-- The schema of a tree settles the numbers in the tree. -/
theorem settles_schemaOf {root : Node Rule} (hroot : root.Everywhere Numbered)
    (fileName : Option String) (source : List Char) :
    Settles (writtenNumbers root) (schemaOf fileName source root) fun schema =>
      schema.numbers.Perm ((writtenNumbers root).map WrittenNumber.entry) :=
  @settles_definitions ⟨source, dialectOf root, packageIn root⟩
    { fileName
      dialect := dialectOf root
      package := ((root.childrenOf .protoBody).head?).bind packageOf }
    (definitionNodes root) (numbered_of_mem_definitionNodes hroot)

/-! ## Linking -/

/-- A linked message has its numbers. -/
theorem ownNumbers_of_linked {table : List Symbol} {message linked : Message}
    (h : message.Linked table linked) : linked.ownNumbers = message.ownNumbers := by
  have hfields : linked.fields.map Field.numbered = message.fields.map Field.numbered := by
    apply map_eq_of_forall₂
    apply h.fields.imp
    intro field other hlink
    rcases map_eq_ok_iff.mp hlink with ⟨kind, -, rfl⟩
    rfl
  rw [Message.ownNumbers, Message.ownNumbers, h.mapEntry, h.enums, hfields]

/-- A linked schema has its numbers. -/
theorem numbers_linkSchema {table : List Symbol} {schema linked : Schema}
    (h : linkSchema table schema = .ok linked) : linked.numbers = schema.numbers := by
  rcases linkSchema_eq_ok_iff.mp h with ⟨messages, services, hmessages, -, rfl⟩
  have hown : (families messages).map Message.ownNumbers =
      (families schema.messages).map Message.ownNumbers :=
    map_eq_of_forall₂ ((forall₂_linkMessages hmessages).imp fun _ _ => ownNumbers_of_linked)
  simp only [Schema.numbers, Schema.allMessages, List.flatMap_def, hown]

/-- A step that does not report a number. -/
def Numberless {α : Type} (result : Except SchemaError α) : Prop :=
  ∀ fullName value, result ≠ .error (.outOfRange fullName value)

namespace Numberless

variable {α β : Type} {result : Except SchemaError α}

/-- A step that ends well does not report a number. -/
theorem ok (a : α) : Numberless (.ok a) :=
  fun _ _ => nofun

/-- Two steps that do not report a number do not report one together. -/
theorem bind {next : α → Except SchemaError β} (h : Numberless result)
    (hnext : ∀ a, Numberless (next a)) : Numberless (result >>= next) := by
  cases result with
  | error error =>
      intro fullName value heq
      exact h fullName value (congrArg _ (Except.error.inj heq))
  | ok a => exact hnext a

/-- A result under a function is reported as the result is. -/
theorem map {change : α → β} (h : Numberless result) : Numberless (result.map change) := by
  have hbind := h.bind fun a => ok (change a)
  cases result <;> exact hbind

/-- Steps for the items of a list do not report a number if none of them does. -/
theorem mapM {step : β → Except SchemaError α} (h : ∀ item, Numberless (step item))
    (items : List β) : Numberless (items.mapM step) := by
  induction items with
  | nil => exact ok []
  | cons item items ih =>
      rw [List.mapM_cons]
      exact (h item).bind fun a => ih.bind fun others => ok (a :: others)

end Numberless

section Linking

variable (table : List Symbol)

/-- A reference that is linked does not report a number. -/
theorem numberless_linkReference (scope : String) (reference : Reference) :
    Numberless (linkReference table scope reference) := by
  unfold linkReference
  cases lookupType? table scope reference.fullName with
  | some symbol => exact .ok symbol
  | none =>
      exact fun _ _ => nofun

/-- A field that is linked does not report a number. -/
theorem numberless_linkField (scope : String) (field : Field) :
    Numberless (linkField table scope field) := by
  refine Numberless.map ?_
  cases field.kind with
  | scalar type => exact .ok _
  | enumeration target | message target | group target =>
      exact (numberless_linkReference table scope target).map

/-- Messages that are linked do not report a number. -/
theorem numberless_linkMessages (messages : List Message) :
    Numberless (linkMessages table messages) := by
  induction messages using forest_induction with
  | nil =>
      rw [linkMessages_nil]
      exact .ok []
  | cons message rest hinner hrest =>
      rcases message with ⟨name, fullName, fields, oneofs, messages, enums, mapEntry, comments⟩
      rw [linkMessages, linkMessage]
      have hfields := Numberless.mapM (numberless_linkField table fullName) fields
      exact (hfields.bind fun _ => hinner.bind fun _ => .ok _).bind fun _ =>
        hrest.bind fun _ => .ok _

/-- A schema that is linked does not report a number. -/
theorem numberless_linkSchema (schema : Schema) : Numberless (linkSchema table schema) := by
  have hmethod : ∀ method, Numberless (linkMethod table schema.packageName method) := fun method =>
    (numberless_linkReference table _ method.input).bind fun _ =>
      (numberless_linkReference table _ method.output).bind fun _ => .ok _
  have hservice : ∀ service, Numberless (linkService table schema.packageName service) :=
    fun service => (Numberless.mapM hmethod service.methods).map
  exact (numberless_linkMessages table schema.messages).bind fun _ =>
    (Numberless.mapM hservice schema.services).bind fun _ => .ok _

/-- A schema that is linked on its own does not report a number. -/
theorem numberless_linkAlone (schema : Schema) : Numberless (linkAlone schema) := by
  refine Numberless.bind ?_ fun table => numberless_linkSchema table schema
  dsimp only [symbolTable]
  split
  · exact fun _ _ => nofun
  · exact .ok _

end Linking

/-! ## Texts -/

/-- The schema of a text settles the numbers in the tree, and linking leaves them as they are. -/
theorem schemaOfText_of_parse {source : String} {root : Node Rule}
    (h : schemaGrammar.parse .proto source.toList = .ok root) :
    match (writtenNumbers root).find? fun number => !number.fits with
    | some number => schemaOfText source = .error number.error
    | none => Numberless (schemaOfText source) ∧
        ∀ schema, schemaOfText source = .ok schema →
          schema.numbers.Perm ((writtenNumbers root).map WrittenNumber.entry) := by
  have hsettles := settles_schemaOf (numbered_of_parse h) none source.toList
  have htext : schemaOfText source =
      (schemaOf none source.toList root >>= fun schema => linkAlone schema) := by
    rw [schemaOfText, schemaOfChars, unlinkedSchema, h]
  rw [htext]
  unfold Settles at hsettles
  cases hfind : (writtenNumbers root).find? fun number => !number.fits with
  | some number =>
      rw [hfind] at hsettles
      rw [hsettles]
      rfl
  | none =>
      rw [hfind] at hsettles
      rcases hsettles with ⟨unlinked, hunlinked, hnumbers⟩
      rw [hunlinked]
      refine ⟨numberless_linkAlone unlinked, fun schema hschema => ?_⟩
      change linkAlone unlinked = .ok schema at hschema
      rcases bind_eq_ok_iff.mp hschema with ⟨table, -, hlinked⟩
      rw [numbers_linkSchema hlinked]
      exact hnumbers

/-- A number whose literal is not readable counts as zero, which fits. -/
theorem fits_of_not_isReadable {number : WrittenNumber} (h : isReadable number.literal = false) :
    number.value = 0 ∧ number.fits = true := by
  have hvalue : number.value = 0 := by rw [WrittenNumber.value, literalValue, h]; rfl
  rw [WrittenNumber.fits, decide_eq_true_eq, hvalue]
  cases number.use <;> decide

/--
A literal is read as the number that it denotes, brought into the range of 64 bits, if and only if
it is readable, and as zero otherwise.  In a text that follows the grammar, the first number that
does not fit as it is read is reported, and if there is none, a schema has exactly the numbers that
are read.  So a number is accepted whatever it denotes if its literal is not readable.
-/
theorem numbers_of_text (number : WrittenNumber) (source : String) :
    (IsLiteral number.literal →
      integerValue number.literal = clampToInt64 (literalValue number.literal) ∧
        (integerValue number.literal = clampToInt64 (denoted number.literal) ↔
          isReadable number.literal = true)) ∧
    (isReadable number.literal = false → number.value = 0 ∧ number.fits = true) ∧
    ∀ root, schemaGrammar.parse .proto source.toList = .ok root →
      (∀ number ∈ writtenNumbers root, IsLiteral number.literal) ∧
      match (writtenNumbers root).find? fun number => !number.fits with
      | some number => schemaOfText source = .error number.error
      | none => Numberless (schemaOfText source) ∧
          ∀ schema, schemaOfText source = .ok schema →
            schema.numbers.Perm ((writtenNumbers root).map WrittenNumber.entry) :=
  ⟨fun h => ⟨integerValue_of_isLiteral h, integerValue_eq_denoted_iff h⟩,
    fits_of_not_isReadable,
    fun _ h => ⟨isLiteral_of_mem_writtenNumbers h, schemaOfText_of_parse h⟩⟩

/-- A tag that is written as a decimal number with a zero in front. -/
def zeroNine : WrittenNumber :=
  ⟨.tag, "A.b", "09".toList⟩

/-- A text with a tag beyond 127 bits, a decimal one with a zero in front, and a plain one. -/
def farText : String :=
  "syntax = \"proto3\"; message A \x7b int32 a = 170141183460469231731687303715884105728; " ++
    "int32 b = 09; int32 c = 0x1F; \x7d"

/-- The literals of the far text, what they denote and what is made of them. -/
theorem numbers_of_farText :
    (denoted zeroNine.literal = 9 ∧ zeroNine.value = 0 ∧ zeroNine.fits = true) ∧
    ∃ root, schemaGrammar.parse .proto farText.toList = .ok root ∧
      (writtenNumbers root).map (fun number => denoted number.literal) = [2 ^ 127, 9, 31] ∧
      (writtenNumbers root).map (fun number => isReadable number.literal) = [false, false, true] ∧
      (∀ number ∈ writtenNumbers root, IsLiteral number.literal ∧
        integerValue number.literal = clampToInt64 (literalValue number.literal)) ∧
      (writtenNumbers root).map WrittenNumber.entry = [("A.a", 0), ("A.b", 0), ("A.c", 31)] ∧
      Numberless (schemaOfText farText) ∧
      ∀ schema, schemaOfText farText = .ok schema →
        schema.numbers.Perm [("A.a", 0), ("A.b", 0), ("A.c", 31)] := by
  have hread : (schemaGrammar.parse .proto farText.toList).toOption.map (fun root =>
      ((writtenNumbers root).map (fun number => denoted number.literal),
        (writtenNumbers root).map (fun number => isReadable number.literal),
        (writtenNumbers root).map WrittenNumber.entry,
        (writtenNumbers root).all WrittenNumber.fits)) =
      some ([2 ^ 127, 9, 31], [false, false, true], [("A.a", 0), ("A.b", 0), ("A.c", 31)],
        true) := by
    decide +kernel
  refine ⟨⟨by decide +kernel, (numbers_of_text zeroNine farText).2.1 (by decide +kernel)⟩, ?_⟩
  cases hparse : schemaGrammar.parse .proto farText.toList with
  | error frontier =>
      rw [hparse] at hread
      contradiction
  | ok root =>
      rw [hparse] at hread
      simp only [Except.toOption, Option.map_some, Option.some.injEq, Prod.mk.injEq] at hread
      rcases hread with ⟨hdenoted, hreadable, hentries, hfit⟩
      have hnone : (writtenNumbers root).find? (fun number => !number.fits) = none := by
        rw [List.find?_eq_none]
        intro number hnumber
        simp [List.all_eq_true.mp hfit number hnumber]
      rcases (numbers_of_text zeroNine farText).2.2 root hparse with ⟨hliteral, hsettled⟩
      rw [hnone] at hsettled
      rw [hentries] at hsettled
      refine ⟨root, rfl, hdenoted, hreadable, fun number hnumber => ?_, hentries, hsettled⟩
      exact ⟨hliteral number hnumber,
        ((numbers_of_text number farText).1 (hliteral number hnumber)).1⟩

end Source
end ElmBinding
