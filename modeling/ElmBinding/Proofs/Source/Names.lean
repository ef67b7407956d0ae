import ElmBinding.Proofs.Schema.WellFormed
import ElmBinding.Proofs.Source.Oneofs

/-!
# Names in source texts

The names that a source text declares are words, since the grammar takes nothing else for
them, and the words that are put together from them are words as well.  Every declaration is
named in the scope of the body that it stands in, and the outermost scope is the package.

Main results:

- Theorem {lit}`Source.clean_of_parse`: which characters stand in the tree over a text.
- Definition {lit}`Message.Drafted`: the invariant of messages whose body is read.
- Theorem {lit}`Source.drafted_bodyInvariant`: declarations keep it.
- Theorem {lit}`Source.Parsed.proper`: schemas that are read are well formed, in a plain package.
-/

namespace ElmBinding

open Name Source

/-! ## Messages that are read -/

/-- A message whose body is read: no entry of a map, with well-formed messages inside. -/
structure Message.Drafted (package : String) (message : Message) : Prop where
  self : message.WellFormed package
  plain : message.mapEntry = false
  inner : ∀ nested ∈ families message.messages, nested.WellFormed package

namespace Message

variable {package : String} {message : Message}

/-- A message of which only the head is read is drafted if it is named. -/
theorem drafted_of_named {name fullName : String} (h : NamedIn package name fullName)
    (comments : Comments) : ({ name, fullName, comments } : Message).Drafted package where
  self := ⟨h, by simp, by simp, by simp, by simp⟩
  plain := rfl
  inner := by simp

/-- A named field keeps a message drafted. -/
theorem Drafted.addField (h : message.Drafted package) {field : Field}
    (hfield : NamedIn package field.name field.fullName) :
    (message.addField field).Drafted package where
  self := by
    refine { h.self with fields := ?_, entry := fun hentry => ?_ }
    · exact List.forall_mem_append.mpr ⟨h.self.fields, List.forall_mem_singleton.mpr hfield⟩
    · exact absurd hentry (Bool.eq_false_iff.mp h.plain)
  plain := h.plain
  inner := h.inner

/-- A well-formed message inside keeps a message drafted. -/
theorem Drafted.addMessage (h : message.Drafted package) {nested : Message}
    (hnested : ∀ inner ∈ nested.family, inner.WellFormed package) :
    (message.addMessage nested).Drafted package where
  self := { h.self with }
  plain := h.plain
  inner := by
    intro inner hinner
    rcases mem_families_addMessage.mp hinner with hold | hnew
    · exact h.inner inner hold
    · exact hnested inner hnew

/-- A well-formed enumeration inside keeps a message drafted. -/
theorem Drafted.addEnum (h : message.Drafted package) {enumeration : Enumeration}
    (henumeration : enumeration.WellFormed package) :
    (message.addEnum enumeration).Drafted package where
  self := by
    refine { h.self with enums := ?_ }
    exact List.forall_mem_append.mpr ⟨h.self.enums, List.forall_mem_singleton.mpr henumeration⟩
  plain := h.plain
  inner := h.inner

end Message

namespace Source

open Grammar

/-! ## Characters of nodes -/

/-- The characters that may stand in the text of a rule, as far as names are concerned. -/
def Rule.admits : Rule → Char → Bool
  | .messageName | .fieldName | .groupName | .oneofName | .enumName | .enumFieldName
  | .serviceName | .rpcName => isIdentChar
  | .fullIdent => isPlainChar
  | _ => fun _ => true

/-- A node in whose text stand only characters that its rule admits. -/
def Clean (node : Node Rule) : Prop :=
  ∀ c ∈ node.text, node.rule.admits c = true

/-- The first character of an identifier may stand anywhere in it. -/
theorem isIdentChar_of_isIdentStart {c : Char} (h : isIdentStart c = true) :
    isIdentChar c = true := by
  simp only [isIdentStart, isIdentChar, Bool.or_eq_true, Char.isAlphanum] at h ⊢
  rcases h with h | h
  · exact Or.inl (Or.inl h)
  · exact Or.inr h

/-- The characters of identifiers are plain. -/
theorem isPlainChar_of_isIdentChar {c : Char} (h : isIdentChar c = true) :
    isPlainChar c = true := by
  unfold isIdentChar at h
  unfold isPlainChar
  rw [h]
  rfl

/-- An identifier is made of the characters of identifiers. -/
theorem takesOnly_ident : ∀ leaf ∈ ident.leaves, leaf.TakesOnly isIdentChar := by
  simp only [ident, Pattern.chain, Pattern.leaves, List.cons_append, List.nil_append,
    List.forall_mem_cons, Pattern.TakesOnly]
  exact ⟨fun _ => isIdentChar_of_isIdentStart, fun _ h => h, by simp⟩

/-- A dotted identifier is plain. -/
theorem takesOnly_dottedIdent : ∀ leaf ∈ dottedIdent.leaves, leaf.TakesOnly isPlainChar := by
  simp only [dottedIdent, ident, Pattern.chain, Pattern.leaves, List.cons_append,
    List.nil_append, List.forall_mem_cons, Pattern.TakesOnly]
  have hstart : ∀ c, isIdentStart c = true → isPlainChar c = true :=
    fun c h => isPlainChar_of_isIdentChar (isIdentChar_of_isIdentStart h)
  have hchar : ∀ c, isIdentChar c = true → isPlainChar c = true :=
    fun c => isPlainChar_of_isIdentChar
  have hdot : isPlain "." = true := by decide
  exact ⟨hstart, hchar, List.all_eq_true.mp hdot, hstart, hchar, by simp⟩

/-- A node over a text that its rule takes is clean. -/
theorem clean_of_derives {node : Node Rule} (h : schemaGrammar.Derives node) : Clean node := by
  rcases node with ⟨rule, start, text, children⟩
  cases rule with
  | messageName | fieldName | groupName | oneofName | enumName | enumFieldName | serviceName
  | rpcName => exact h.admits rfl takesOnly_ident
  | fullIdent => exact h.admits rfl takesOnly_dottedIdent
  | _ => exact fun _ _ => rfl

/-- The nodes of the tree over a text are clean. -/
theorem clean_of_parse {text : List Char} {root : Node Rule}
    (h : schemaGrammar.parse .proto text = .ok root) : root.Everywhere Clean :=
  (derives_of_parse h).imp fun _ => clean_of_derives

variable {node : Node Rule}

/-- The text of a child has the characters that its rule admits. -/
theorem admits_childString (hnode : node.Everywhere Clean) (rule : Rule) :
    ∀ c ∈ (node.childString rule).toList, rule.admits c = true := by
  unfold Node.childString
  cases hchild : node.child? rule with
  | none => simp
  | some child =>
      have hrule : child.rule = rule := by simpa using List.find?_some hchild
      have hclean := (hnode.child child (List.mem_of_find?_eq_some hchild)).root
      intro c hc
      rw [Option.elim_some, Node.string, String.toList_ofList] at hc
      rw [← hrule]
      exact hclean c hc

/-- The names in a clean node are words. -/
theorem isWord_childString (hnode : node.Everywhere Clean) {rule : Rule}
    (hrule : rule.admits = isIdentChar) : isWord (node.childString rule) = true := by
  rw [isWord, List.all_eq_true, ← hrule]
  exact admits_childString hnode rule

/-! ## Declarations -/

variable {origin : Origin} {package scope : String}

/-- Words one after the other are a word. -/
theorem isWord_append (first second : String) :
    isWord (first ++ second) = (isWord first && isWord second) := by
  rw [isWord, String.toList_append, List.all_append]
  rfl

/-- The name of an entry message is a word. -/
theorem isWord_entryName {name : String} (h : isWord name = true) :
    isWord (entryName name) = true := by
  have hjoined : ∀ capital (chars : List Char), (∀ c ∈ chars, isIdentChar c = true) →
      ∀ c ∈ joinCapitalized capital chars, isIdentChar c = true := by
    intro capital chars
    induction chars generalizing capital with
    | nil => simp [joinCapitalized]
    | cons first rest ih =>
        intro hchars
        rcases List.forall_mem_cons.mp hchars with ⟨hfirst, hrest⟩
        unfold joinCapitalized
        split
        · exact ih true hrest
        · rename_i hunderscore
          have halphanum : first.isAlphanum = true := by
            simpa [isIdentChar, hunderscore] using hfirst
          intro c hc
          rcases List.mem_append.mp hc with hc | hc
          · rw [upperChar_of_isAlphanum halphanum] at hc
            split at hc
            · rw [List.mem_singleton.mp hc, isIdentChar, isAlphanum_toUpper halphanum]
              rfl
            · rw [List.mem_singleton.mp hc]
              exact hfirst
          · exact ih false hrest c hc
  have hsuffix : isWord "Entry" = true := by decide
  rw [entryName, isWord_append, hsuffix, Bool.and_true, isWord, String.toList_ofList,
    List.all_eq_true]
  exact hjoined true name.toList (List.all_eq_true.mp h)

/-- A word in small letters is a word. -/
theorem isWord_toLower {name : String} (h : isWord name = true) :
    isWord (String.ofList (name.toList.map Char.toLower)) = true := by
  unfold isWord at h ⊢
  rw [List.all_eq_true] at h
  rw [String.toList_ofList, List.all_map, List.all_eq_true]
  intro c hc
  have hchar := h c hc
  simp only [isIdentChar, Bool.or_eq_true, decide_eq_true_eq, Function.comp] at hchar ⊢
  rcases hchar with hchar | rfl
  · exact Or.inl (isAlphanum_toLower hchar)
  · exact Or.inr (by decide)

/-- A field of a text is named in its scope. -/
theorem namedIn_fieldOf {field : Field} (hnode : node.Everywhere Clean)
    (hscope : ScopeIn package scope) (h : fieldOf origin scope node = .ok field) :
    NamedIn package field.name field.fullName := by
  rcases bind_eq_ok_iff.mp h with ⟨number, -, hfield⟩
  rw [← Except.ok.inj hfield]
  exact .of_scope hscope (isWord_childString hnode rfl)

/-- The type of a field is no group. -/
theorem kindIn_ne_group (node : Node Rule) (target : Reference) : kindIn node ≠ .group target := by
  unfold kindIn
  cases node.child? .typeReference with
  | none => simp
  | some reference =>
      rw [Option.elim_some, kindOf]
      split <;> simp

/-- The entry message of a map field is well formed. -/
theorem wellFormed_entryMessage {name : String} {key : Scalar} {value : FieldKind}
    (hscope : ScopeIn package scope) (hname : isWord name = true)
    (hvalue : ∀ target, value ≠ .group target) :
    (entryMessage scope name key value).WellFormed package where
  named := .of_scope hscope hname
  fields := by
    have hinner := hscope.qualify hname
    simp only [entryMessage, List.forall_mem_cons]
    exact ⟨.of_scope hinner (by decide), .of_scope hinner (by decide), by simp⟩
  oneofs := by simp [entryMessage]
  enums := by simp [entryMessage]
  entry := fun _ => ⟨_, _, key, rfl, rfl, hvalue⟩

/-- A map field and its entry message are named in their scope. -/
theorem namedIn_mapFieldOf {field : Field} {entry : Message} (hnode : node.Everywhere Clean)
    (hscope : ScopeIn package scope) (h : mapFieldOf origin scope node = .ok (field, entry)) :
    NamedIn package field.name field.fullName ∧
      ∀ inner ∈ entry.family, inner.WellFormed package := by
  rcases bind_eq_ok_iff.mp h with ⟨number, -, hmade⟩
  rcases Prod.mk.inj (Except.ok.inj hmade) with ⟨rfl, rfl⟩
  have hname : isWord (node.childString .fieldName) = true := isWord_childString hnode rfl
  refine ⟨.of_scope hscope hname, ?_⟩
  intro inner hinner
  rw [Message.family_eq, entryMessage, families_nil, List.mem_singleton] at hinner
  rw [hinner]
  exact wellFormed_entryMessage hscope (isWord_entryName hname) (kindIn_ne_group node)

/-- The field of a group is named in its scope. -/
theorem namedIn_groupFieldOf {field : Field} (hnode : node.Everywhere Clean)
    (hscope : ScopeIn package scope) (h : groupFieldOf origin scope node = .ok field) :
    NamedIn package field.name field.fullName := by
  rcases bind_eq_ok_iff.mp h with ⟨number, -, hfield⟩
  rw [← Except.ok.inj hfield]
  exact .of_scope hscope (isWord_toLower (isWord_childString hnode rfl))

/-- The nodes of a rule inside the children of a clean node are clean. -/
theorem everywhere_grandchild (hnode : node.Everywhere Clean) {outer inner : Rule} :
    ∀ grandchild ∈ (node.childrenOf outer).flatMap (Node.childrenOf · inner),
      grandchild.Everywhere Clean := by
  intro grandchild hmem
  rcases List.mem_flatMap.mp hmem with ⟨child, hchild, hmem⟩
  exact (hnode.child child (List.mem_filter.mp hchild).1).child grandchild
    (List.mem_filter.mp hmem).1

/-- An enumeration of a text is named in its scope, and so are its values. -/
theorem wellFormed_enumOf {enumeration : Enumeration} (hnode : node.Everywhere Clean)
    (hscope : ScopeIn package scope) (h : enumOf origin scope node = .ok enumeration) :
    enumeration.WellFormed package := by
  rcases bind_eq_ok_iff.mp h with ⟨values, hvalues, henumeration⟩
  rw [← Except.ok.inj henumeration]
  refine ⟨.of_scope hscope (isWord_childString hnode rfl), ?_⟩
  intro value hvalue
  rcases exists_of_forall₂_of_mem (forall₂_of_mapM hvalues) hvalue with ⟨inner, hinner, hmade⟩
  simp only [enumValueOf] at hmade
  split at hmade
  · rw [← Except.ok.inj hmade]
    exact .of_scope hscope (isWord_childString (everywhere_grandchild hnode inner hinner) rfl)
  · contradiction

/-- A oneof with its members keeps a message drafted. -/
theorem declareOneof_drafted {message after : Message} (hdraft : message.Drafted package)
    (hnode : node.Everywhere Clean) (h : declareOneof origin message node = .ok after) :
    after.Drafted package := by
  have hscope := hdraft.self.named.fullScope
  rcases bind_eq_ok_iff.mp h with ⟨fields, hfields, hafter⟩
  rw [← Except.ok.inj hafter]
  refine ⟨{ hdraft.self with fields := ?_, oneofs := ?_, entry := fun hentry => ?_ },
    hdraft.plain, hdraft.inner⟩
  · intro field hfield
    rcases List.mem_append.mp hfield with hold | hnew
    · exact hdraft.self.fields field hold
    · rcases List.mem_map.mp hnew with ⟨member, hmember, rfl⟩
      rcases exists_of_forall₂_of_mem (forall₂_of_mapM hfields) hmember with
        ⟨inner, hinner, hmade⟩
      have hnamed := namedIn_fieldOf (everywhere_grandchild hnode inner hinner) hscope hmade
      exact hnamed
  · have hname : isWord (node.childString .oneofName) = true := isWord_childString hnode rfl
    exact List.forall_mem_append.mpr
      ⟨hdraft.self.oneofs, List.forall_mem_singleton.mpr (.of_scope hscope hname)⟩
  · exact absurd hentry (Bool.eq_false_iff.mp hdraft.plain)

/-- The synthetic oneofs of a drafted message are named with it. -/
theorem wellFormed_withSyntheticOneofs {message : Message} (hdraft : message.Drafted package) :
    message.withSyntheticOneofs.WellFormed package where
  named := hdraft.self.named
  fields := by
    intro field hfield
    rcases mem_attachOneofs hfield with ⟨hold, -⟩ | ⟨old, hold, -, index, -, -, rfl⟩
    · exact hdraft.self.fields field hold
    · exact hdraft.self.fields old hold
  oneofs := by
    intro oneof honeof
    rcases List.mem_append.mp honeof with hold | hnew
    · exact hdraft.self.oneofs oneof hold
    · rcases List.mem_map.mp hnew with ⟨field, hfield, rfl⟩
      have hword := (hdraft.self.fields field (List.mem_filter.mp hfield).1).word
      have hjoined : isWord ("_" ++ field.name) = true := by
        rw [isWord_append, hword]
        decide
      exact .of_scope hdraft.self.named.fullScope hjoined
  enums := hdraft.self.enums
  entry := fun hentry => absurd hentry (Bool.eq_false_iff.mp hdraft.plain)

/-- A drafted message with synthetic oneofs is well formed, and so are the messages inside. -/
theorem wellFormed_family {message : Message} (hdraft : message.Drafted package) :
    ∀ inner ∈ message.withSyntheticOneofs.family, inner.WellFormed package := by
  intro inner hinner
  rw [Message.family_eq] at hinner
  rcases List.mem_cons.mp hinner with rfl | hinner
  · exact wellFormed_withSyntheticOneofs hdraft
  · exact hdraft.inner inner hinner

/-- Every declaration in the body of a message keeps the message drafted. -/
theorem drafted_bodyInvariant (origin : Origin) (package : String) :
    BodyInvariant origin Clean (Message.Drafted package) where
  messageHead := fun hdraft hnode => Message.drafted_of_named
    (.of_scope hdraft.self.named.fullScope (isWord_childString hnode rfl)) _
  groupHead := fun hdraft hnode => Message.drafted_of_named
    (.of_scope hdraft.self.named.fullScope (isWord_childString hnode rfl)) {}
  field := fun hdraft hnode h =>
    hdraft.addField (namedIn_fieldOf hnode hdraft.self.named.fullScope h)
  mapField := by
    intro message node field entry hdraft hnode h
    rcases namedIn_mapFieldOf hnode hdraft.self.named.fullScope h with ⟨hfield, hentry⟩
    exact (hdraft.addMessage hentry).addField hfield
  group := fun hdraft hnode h hgroup => (hdraft.addMessage (wellFormed_family hgroup)).addField
    (namedIn_groupFieldOf hnode hdraft.self.named.fullScope h)
  oneof := fun hdraft hnode h => declareOneof_drafted hdraft hnode h
  enumeration := fun hdraft hnode h =>
    hdraft.addEnum (wellFormed_enumOf hnode hdraft.self.named.fullScope h)
  message := fun hdraft hnested => hdraft.addMessage (wellFormed_family hnested)

/-! ## Schemas -/

/-- The package that a file declares is plain. -/
theorem isPlain_packageOf {body : Node Rule} (hbody : body.Everywhere Clean)
    (h : packageOf body = some package) : isPlain package = true := by
  have hchild : ∀ {node child : Node Rule} {rule : Rule}, node.Everywhere Clean →
      node.child? rule = some child → child.Everywhere Clean := by
    intro node child rule hnode hfind
    exact hnode.child child (List.mem_of_find?_eq_some hfind)
  rcases Option.map_eq_some_iff.mp h with ⟨ident, hident, rfl⟩
  rcases Option.bind_eq_some_iff.mp hident with ⟨name, hname, hident⟩
  rcases Option.bind_eq_some_iff.mp hname with ⟨statement, hstatement, hname⟩
  have hclean := (hchild (hchild (hchild hbody hstatement) hname) hident).root
  have hrule : ident.rule = .fullIdent := by simpa using List.find?_some hident
  unfold Clean at hclean
  rw [hrule] at hclean
  rw [isPlain, List.all_eq_true, Node.string, String.toList_ofList]
  exact hclean

/-- A service of a text is named in its package, and so are its methods. -/
theorem wellFormed_serviceOf (hnode : node.Everywhere Clean)
    (hscope : ScopeIn origin.package origin.package) :
    (serviceOf origin node).WellFormed origin.package := by
  have hword : isWord (node.childString .serviceName) = true := isWord_childString hnode rfl
  refine ⟨.of_scope hscope hword, ?_⟩
  intro method hmethod
  rcases List.mem_map.mp hmethod with ⟨inner, hinner, rfl⟩
  have hclean := hnode.child inner (List.mem_filter.mp hinner).1
  exact .of_scope (hscope.qualify hword) (isWord_childString hclean rfl)

/-- A definition keeps a schema of its package well formed. -/
theorem define_wellFormed {schema extended : Schema} (hnode : node.Everywhere Clean)
    (hscope : ScopeIn origin.package origin.package)
    (hschema : schema.packageName = origin.package ∧ schema.WellFormed)
    (h : define origin schema node = .ok extended) :
    extended.packageName = origin.package ∧ extended.WellFormed := by
  rcases hschema with ⟨hpackage, hformed⟩
  unfold define at h
  split at h
  · rcases bind_eq_ok_iff.mp h with ⟨message, hmessage, hextended⟩
    rcases map_eq_ok_iff.mp hmessage with ⟨body, hbody, rfl⟩
    rw [← Except.ok.inj hextended]
    refine ⟨hpackage, { hformed with messages := ?_ }⟩
    have hhead : (messageHead origin origin.package node).Drafted origin.package :=
      Message.drafted_of_named (.of_scope hscope (isWord_childString hnode rfl)) _
    have hdraft := (drafted_bodyInvariant origin origin.package).declareAll hnode.child hhead hbody
    intro inner hinner
    rcases mem_families_concat.mp hinner with hold | hnew
    · exact hformed.messages inner hold
    · have hwell := wellFormed_family hdraft inner hnew
      rw [← hpackage] at hwell
      exact hwell
  · rcases bind_eq_ok_iff.mp h with ⟨enumeration, henumeration, hextended⟩
    rw [← Except.ok.inj hextended]
    refine ⟨hpackage, { hformed with enums := ?_ }⟩
    have hwell := wellFormed_enumOf hnode hscope henumeration
    rw [← hpackage] at hwell
    exact List.forall_mem_append.mpr ⟨hformed.enums, List.forall_mem_singleton.mpr hwell⟩
  · rw [← Except.ok.inj h]
    refine ⟨hpackage, { hformed with services := ?_ }⟩
    have hwell := wellFormed_serviceOf hnode hscope
    rw [← hpackage] at hwell
    exact List.forall_mem_append.mpr ⟨hformed.services, List.forall_mem_singleton.mpr hwell⟩
  · rw [← Except.ok.inj h]
    exact ⟨hpackage, hformed⟩

/-- The schema that a text declares is proper. -/
theorem proper_of_unlinkedSchema {fileName : Option String} {source : List Char}
    {schema : Schema} (h : unlinkedSchema fileName source = .ok schema) : schema.Proper := by
  unfold unlinkedSchema at h
  split at h
  · rename_i root hroot
    have hclean := clean_of_parse hroot
    have hbody : ∀ body ∈ root.childrenOf .protoBody, body.Everywhere Clean := by
      intro body hmem
      exact hclean.child body (List.mem_filter.mp hmem).1
    simp only [schemaOf] at h
    generalize horigin : (⟨source, dialectOf root,
      (((root.childrenOf .protoBody).head?).bind packageOf).getD ""⟩ : Origin) = origin at h
    have hplain : isPlain origin.package = true := by
      rw [← horigin]
      have hempty : isPlain "" = true := by decide
      cases hpackage : (root.childrenOf .protoBody).head?.bind packageOf with
      | none => exact hempty
      | some package =>
          rcases Option.bind_eq_some_iff.mp hpackage with ⟨body, hhead, hname⟩
          exact isPlain_packageOf (hbody body (List.mem_of_mem_head? hhead)) hname
    have hdefined := foldlM_preserves
      (fun schema => schema.packageName = origin.package ∧ schema.WellFormed) ?_ ?_ h
    · rcases hdefined with ⟨hpackage, hformed⟩
      rw [← hpackage] at hplain
      exact ⟨hplain, hformed⟩
    · intro schema node hnode extended hschema hstep
      rcases List.mem_flatMap.mp hnode with ⟨definition, hdefinition, hnode⟩
      have hdefined := everywhere_grandchild hclean definition hdefinition
      exact define_wellFormed (hdefined.child node hnode) (.self hplain) hschema hstep
    · rw [← horigin]
      exact ⟨rfl, by simp, by simp [Schema.allMessages], by simp⟩
  · contradiction

/-- The schemas that are read, from a text, from a file or from one of several files. -/
inductive Parsed : Schema → Prop
  | text {source : String} {schema : Schema} (h : schemaOfText source = .ok schema) :
      Parsed schema
  | file {tree : SourceTree} {path : String} {schema : Schema}
      (h : schemaOfFile tree path = .ok schema) : Parsed schema
  | files {tree : SourceTree} {paths : List String} {schemas : List Schema} {schema : Schema}
      (h : schemasOfFiles tree paths = .ok schemas) (hmem : schema ∈ schemas) : Parsed schema

/-- The schema at a path is proper. -/
theorem proper_of_unlinkedSchemaAt {tree : SourceTree} {path : String} {schema : Schema}
    (h : unlinkedSchemaAt tree path = .ok schema) : schema.Proper := by
  unfold unlinkedSchemaAt at h
  split at h
  · exact proper_of_unlinkedSchema h
  · contradiction

/-- Schemas that are read are proper. -/
theorem Parsed.proper {schema : Schema} (h : Parsed schema) : schema.Proper := by
  cases h with
  | text h =>
      rcases bind_eq_ok_iff.mp h with ⟨unlinked, hunlinked, hlink⟩
      exact (proper_of_unlinkedSchema hunlinked).linkAlone hlink
  | file h =>
      rcases bind_eq_ok_iff.mp h with ⟨unlinked, hunlinked, hlink⟩
      exact (proper_of_unlinkedSchemaAt hunlinked).linkAlone hlink
  | files h hmem =>
      rcases bind_eq_ok_iff.mp h with ⟨unlinked, hunlinked, hlink⟩
      rcases bind_eq_ok_iff.mp hlink with ⟨table, -, hlink⟩
      rcases exists_of_forall₂_of_mem (forall₂_of_mapM hlink) hmem with ⟨other, hother, hmade⟩
      rcases exists_of_forall₂_of_mem (forall₂_of_mapM hunlinked) hother with ⟨path, -, hread⟩
      exact (proper_of_unlinkedSchemaAt hread).link hmade

/-- Schemas that are read are well formed. -/
theorem Parsed.wellFormed {schema : Schema} (h : Parsed schema) : schema.WellFormed :=
  h.proper.formed

end Source

end ElmBinding
