import ElmBinding.Proofs.Outline.Building
import ElmBinding.Source.Schemas

/-!
# Reading undoes printing

The canonical text of an outline is read as the schema that the outline stands for.  The text is
parsed into the tree of the outline, the tree declares the schema with references as written, and
linking gives every reference the full name that it has behind its dot.

Main results:

- Theorem {lit}`Outline.symbols_schemaWith`: the symbols of an outline.
- Theorem {lit}`linkMessage_bodyMessages`: the messages of a body with references linked.
- Theorems {lit}`unlinkedSchema_text` and {lit}`linkAlone_schemaWith`: the two halves of reading.
- Theorem {lit}`schemaOfText_text`: the text of an outline is read as its schema.
-/

namespace ElmBinding
namespace Source

open Grammar

/-! ## Symbols -/

/-- The symbol of a message of a package. -/
def messageSymbol (package fullName : String) : Symbol :=
  ⟨fullName, .message, package⟩

section Symbols

variable (dialect : Dialect) (spelling : Spelling) (package : String)

/-- The symbols of the messages of a body are those of their names, at every depth. -/
theorem ownSymbols_bodyMessages (scope : String) (body : List ElementOutline) :
    (families (bodyMessages dialect spelling scope body)).flatMap (Message.ownSymbols package) =
      (bodyMessageNames scope body).map (messageSymbol package) := by
  induction body using elements_induction generalizing scope with
  | nil => simp [bodyMessages, bodyMessageNames]
  | field label field rest ih =>
      simpa [bodyMessages, bodyMessageNames, ElementOutline.messages,
        ElementOutline.messageNames] using ih scope
  | map key field rest ih =>
      simp [bodyMessages, bodyMessageNames, ElementOutline.messages, ElementOutline.messageNames,
        Message.family_eq, entryMessage, Message.ownSymbols, messageSymbol, ih scope]
  | oneof name members rest ih =>
      simpa [bodyMessages, bodyMessageNames, ElementOutline.messages,
        ElementOutline.messageNames] using ih scope
  | message name body rest hbody ih =>
      simp [bodyMessages, bodyMessageNames, ElementOutline.messages, ElementOutline.messageNames,
        Message.family_eq, Message.ownSymbols, messageSymbol, hbody, ih scope]

/-- The symbols of the messages of definitions are those of their names, at every depth. -/
theorem ownSymbols_messages (scope : String) (definitions : List DefinitionOutline) :
    (families (definitions.flatMap (DefinitionOutline.messages dialect spelling scope))).flatMap
        (Message.ownSymbols package) =
      (definitions.flatMap (DefinitionOutline.messageNames scope)).map (messageSymbol package) := by
  induction definitions with
  | nil => simp
  | cons definition rest ih =>
      rw [List.flatMap_cons, List.flatMap_cons, families_append, List.flatMap_append,
        List.map_append, ih]
      congr 1
      cases definition with
      | message name body =>
          have h := ownSymbols_bodyMessages dialect spelling package scope [.message name body]
          rw [bodyMessages, bodyMessages, bodyMessageNames, bodyMessageNames, List.append_nil,
            List.append_nil] at h
          exact h
      | service name methods => rfl

/-- The names of the services of definitions. -/
theorem map_services (scope : String) (definitions : List DefinitionOutline) :
    (definitions.flatMap (DefinitionOutline.services spelling scope)).map Service.fullName =
      definitions.flatMap (DefinitionOutline.serviceNames scope) := by
  rw [List.map_flatMap]
  congr 1
  funext definition
  cases definition <;> rfl

end Symbols

namespace Outline

variable (outline : Outline) (spelling : Spelling)

/-- The package of the schema that an outline stands for. -/
theorem packageName_schemaWith :
    (outline.schemaWith spelling).packageName = outline.packageName := by
  rw [Schema.packageName, schemaWith, packageName]
  cases outline.package <;> rfl

/-- The names of the symbols of an outline are those of its messages and its services. -/
theorem symbols_schemaWith :
    (outline.schemaWith spelling).symbols =
      outline.messageNames.map (messageSymbol outline.packageName) ++
        outline.serviceNames.map fun name => ⟨name, .service, outline.packageName⟩ := by
  rw [Schema.symbols, packageName_schemaWith, serviceNames, ← map_services spelling, List.map_map]
  have hmessages := ownSymbols_messages outline.dialect spelling outline.packageName
    outline.packageName outline.definitions
  rw [messageNames, ← hmessages]
  rfl

end Outline

/-! ## Linking -/

/-- A field is linked if its kind is. -/
theorem linkField_of_linkKind {table : List Symbol} {scope : String} {field : Field}
    {kind : FieldKind} (h : linkKind table scope field.kind = .ok kind) :
    linkField table scope field = .ok { field with kind } := by
  rw [linkField, h]
  rfl

section Linking

variable {table : List Symbol} {package : String} {names : List String}
  (hdistinct : (table.map Symbol.name).Nodup)
  (hnames : ∀ name ∈ names, messageSymbol package name ∈ table)

include hdistinct hnames

/-- The kind of a field is linked if the message that it mentions is there. -/
theorem linkKind_kind (home : String) {type : TypeOutline}
    (htype : ∀ path ∈ type.references, path.name ∈ names) :
    linkKind table home (type.kind (writtenSpelling package)) =
      .ok (type.kind (linkedSpelling package)) := by
  cases type with
  | scalar type => rfl
  | message path =>
      have hmem := hnames _ (htype path (List.mem_singleton_self path))
      exact congrArg (Except.map Symbol.fieldKind) (linkReference_home "" hdistinct hmem)

/-- The fields of a body are linked if the messages that they mention are there. -/
theorem linkField_bodyFields (home : String) (dialect : Dialect) (scope : String)
    (index next : Nat) {body : List ElementOutline}
    (hreferences : ∀ path ∈ bodyReferences body, path.name ∈ names)
    (hentries : ∀ name ∈ bodyMessageNames scope body, name ∈ names) :
    List.Forall₂ (fun field linked => linkField table home field = .ok linked)
      (bodyFields dialect (writtenSpelling package) scope index next body)
      (bodyFields dialect (linkedSpelling package) scope index next body) := by
  induction body using elements_induction generalizing index next with
  | nil => exact .nil
  | field label field rest ih =>
      rw [bodyReferences, List.forall_mem_append] at hreferences
      rcases hreferences with ⟨htype, hrest⟩
      have hkind := linkKind_kind hdistinct hnames home htype
      have hothers : ∀ name ∈ bodyMessageNames scope rest, name ∈ names := hentries
      rw [bodyFields, bodyFields]
      split
      · exact .cons (linkField_of_linkKind hkind) (ih index (next + 1) hrest hothers)
      · exact .cons (linkField_of_linkKind hkind) (ih index next hrest hothers)
  | map key field rest ih =>
      rw [bodyReferences, List.forall_mem_append] at hreferences
      rw [bodyMessageNames, List.forall_mem_append] at hentries
      rcases hreferences with ⟨htype, hrest⟩
      rcases hentries with ⟨hentry, hothers⟩
      have hmem := hnames _ (hentry _ (List.mem_singleton_self _))
      have hkind := congrArg (Except.map Symbol.fieldKind)
        (@linkReference_home table package home _ package hdistinct hmem)
      exact .cons (linkField_of_linkKind hkind) (ih index next hrest hothers)
  | oneof name members rest ih =>
      rw [bodyReferences, List.forall_mem_append] at hreferences
      rcases hreferences with ⟨hmembers, hrest⟩
      have hothers : ∀ name ∈ bodyMessageNames scope rest, name ∈ names := hentries
      refine List.rel_append ?_ (ih (index + 1) next hrest hothers)
      rw [List.forall₂_map_left_iff, List.forall₂_map_right_iff, List.forall₂_same]
      intro member hmem
      have htype : ∀ path ∈ member.type.references, path.name ∈ names :=
        fun path hpath => hmembers path (List.mem_flatMap.mpr ⟨member, hmem, hpath⟩)
      exact linkField_of_linkKind (linkKind_kind hdistinct hnames home htype)
  | message name body rest _ ih =>
      rw [bodyReferences, List.forall_mem_append] at hreferences
      rw [bodyMessageNames, List.forall_mem_append] at hentries
      exact ih index next hreferences.2 hentries.2

/-- The messages of a body are linked if the messages that they mention are there. -/
theorem linkMessage_bodyMessages (dialect : Dialect) (scope : String) {body : List ElementOutline}
    (hreferences : ∀ path ∈ bodyReferences body, path.name ∈ names)
    (hentries : ∀ name ∈ bodyMessageNames scope body, name ∈ names) :
    List.Forall₂ (fun message linked => linkMessage table message = .ok linked)
      (bodyMessages dialect (writtenSpelling package) scope body)
      (bodyMessages dialect (linkedSpelling package) scope body) := by
  induction body using elements_induction generalizing scope with
  | nil =>
      rw [bodyMessages, bodyMessages]
      exact .nil
  | field label field rest ih =>
      rw [bodyReferences, List.forall_mem_append] at hreferences
      exact ih scope hreferences.2 hentries
  | map key field rest ih =>
      rw [bodyReferences, List.forall_mem_append] at hreferences
      rw [bodyMessageNames, List.forall_mem_append] at hentries
      refine .cons ?_ (ih scope hreferences.2 hentries.2)
      have hvalue := linkKind_kind hdistinct hnames
        (qualify scope (entryName field.name.name)) hreferences.1
      refine linkMessage_eq_ok_iff.mpr ⟨_, [], mapM_of_forall₂ ?_, linkMessages_nil table, rfl⟩
      exact .cons (linkField_of_linkKind rfl) (.cons (linkField_of_linkKind hvalue) .nil)
  | oneof name members rest ih =>
      rw [bodyReferences, List.forall_mem_append] at hreferences
      exact ih scope hreferences.2 hentries
  | message name body rest hbody ih =>
      rw [bodyReferences, List.forall_mem_append] at hreferences
      rw [bodyMessageNames, List.forall_mem_append] at hentries
      rcases List.forall_mem_cons.mp hentries.1 with ⟨-, hinside⟩
      refine .cons ?_ (ih scope hreferences.2 hentries.2)
      have hfields := mapM_of_forall₂ (linkField_bodyFields hdistinct hnames
        (qualify scope name.name) dialect (qualify scope name.name) 0
        (declaredOneofs (qualify scope name.name) body).length hreferences.1 hinside)
      have hmessages := mapM_of_forall₂
        (hbody (qualify scope name.name) hreferences.1 hinside)
      rw [← linkMessages_eq_mapM] at hmessages
      exact linkMessage_eq_ok_iff.mpr ⟨_, _, hfields, hmessages, rfl⟩

/-- The messages of definitions are linked if the messages that they mention are there. -/
theorem linkMessage_messages (dialect : Dialect) (scope : String)
    {definitions : List DefinitionOutline}
    (hreferences : ∀ path ∈ definitions.flatMap DefinitionOutline.references, path.name ∈ names)
    (hentries : ∀ name ∈ definitions.flatMap (DefinitionOutline.messageNames scope),
      name ∈ names) :
    List.Forall₂ (fun message linked => linkMessage table message = .ok linked)
      (definitions.flatMap (DefinitionOutline.messages dialect (writtenSpelling package) scope))
      (definitions.flatMap
        (DefinitionOutline.messages dialect (linkedSpelling package) scope)) := by
  induction definitions with
  | nil => exact .nil
  | cons definition rest ih =>
      rw [List.flatMap_cons, List.forall_mem_append] at hreferences hentries
      refine List.rel_append ?_ (ih hreferences.2 hentries.2)
      cases definition with
      | message name body =>
          have h := @linkMessage_bodyMessages table package names hdistinct hnames dialect scope
            [.message name body]
          simp only [bodyMessages, bodyMessageNames, bodyReferences, List.append_nil] at h
          exact h hreferences.1 hentries.1
      | service name methods => exact .nil

/-- A method is linked if the messages that it mentions are there. -/
theorem linkMethod_method (home service : String) {method : MethodOutline}
    (hinput : method.input.name ∈ names) (houtput : method.output.name ∈ names) :
    linkMethod table home (method.method (writtenSpelling package) service) =
      .ok (method.method (linkedSpelling package) service) := by
  have hlinkInput := @linkReference_home table package home _ "" hdistinct (hnames _ hinput)
  have hlinkOutput := @linkReference_home table package home _ "" hdistinct (hnames _ houtput)
  unfold linkMethod
  refine bind_eq_ok_iff.mpr ⟨_, hlinkInput, ?_⟩
  exact bind_eq_ok_iff.mpr ⟨_, hlinkOutput, rfl⟩

/-- The services of definitions are linked if the messages that they mention are there. -/
theorem linkService_services (home scope : String) {definitions : List DefinitionOutline}
    (hreferences : ∀ path ∈ definitions.flatMap DefinitionOutline.references,
      path.name ∈ names) :
    List.Forall₂ (fun service linked => linkService table home service = .ok linked)
      (definitions.flatMap (DefinitionOutline.services (writtenSpelling package) scope))
      (definitions.flatMap (DefinitionOutline.services (linkedSpelling package) scope)) := by
  induction definitions with
  | nil => exact .nil
  | cons definition rest ih =>
      rw [List.flatMap_cons, List.forall_mem_append] at hreferences
      refine List.rel_append ?_ (ih hreferences.2)
      cases definition with
      | message name body => exact .nil
      | service name methods =>
          refine .cons (map_eq_ok_iff.mpr ⟨_, ?_, rfl⟩) .nil
          apply mapM_of_forall₂
          rw [List.forall₂_map_left_iff, List.forall₂_map_right_iff, List.forall₂_same]
          intro method hmem
          have hmentioned : ∀ path ∈ [method.input, method.output], path.name ∈ names :=
            fun path hpath => hreferences.1 path (List.mem_flatMap.mpr ⟨method, hmem, hpath⟩)
          exact linkMethod_method hdistinct hnames home _
            (hmentioned _ List.mem_cons_self)
            (hmentioned _ (List.mem_cons_of_mem _ (List.mem_singleton_self _)))

end Linking

/-! ## The round trip -/

/-- The text of an outline declares its schema, with references as they are written. -/
theorem unlinkedSchema_text (outline : Outline) :
    unlinkedSchema none outline.text.toList =
      .ok (outline.schemaWith (writtenSpelling outline.packageName)) := by
  have hplain : ∀ c ∈ joined outline.tokens, isPlainText c = true :=
    fun _ => isPlainText_of_mem_joined
  rcases outline.parse_eq with ⟨root, hroot, hbare⟩
  rw [Outline.text, String.toList_ofList]
  unfold unlinkedSchema
  rw [hroot]
  change schemaOf none (joined outline.tokens) root = _
  rw [← schemaOf_bare hplain, hbare]
  exact outline.schemaOf_tree hplain

/-- Linking makes the schema of an outline of the one with references as they are written. -/
theorem linkAlone_schemaWith (outline : Outline)
    (hdistinct : (outline.messageNames ++ outline.serviceNames).Nodup)
    (hreferences : ∀ path ∈ outline.references, path.name ∈ outline.messageNames) :
    linkAlone (outline.schemaWith (writtenSpelling outline.packageName)) = .ok outline.schema := by
  let written := outline.schemaWith (writtenSpelling outline.packageName)
  have hsymbols := outline.symbols_schemaWith (writtenSpelling outline.packageName)
  have hnodup : (written.symbols.map Symbol.name).Nodup := by
    have hmessages : Symbol.name ∘ messageSymbol outline.packageName = id := rfl
    have hservices : (Symbol.name ∘ fun name => ⟨name, .service, outline.packageName⟩) = id := rfl
    rw [hsymbols, List.map_append, List.map_map, List.map_map, hmessages, hservices, List.map_id,
      List.map_id]
    exact hdistinct
  have hnames : ∀ name ∈ outline.messageNames,
      messageSymbol outline.packageName name ∈ written.symbols := by
    intro name hname
    rw [hsymbols]
    exact List.mem_append_left _ (List.mem_map_of_mem hname)
  have htable : symbolTable [written] = .ok written.symbols :=
    symbolTable_eq_ok_iff.mpr ⟨(List.flatMap_singleton _ _).symm, hnodup⟩
  have hmessages := mapM_of_forall₂ (linkMessage_messages hnodup hnames outline.dialect
    outline.packageName hreferences fun _ => id)
  have hservices := mapM_of_forall₂ (linkService_services hnodup hnames written.packageName
    outline.packageName hreferences)
  rw [← linkMessages_eq_mapM] at hmessages
  refine bind_eq_ok_iff.mpr ⟨_, htable, ?_⟩
  exact linkSchema_eq_ok_iff.mpr ⟨_, _, hmessages, hservices, rfl⟩

/--
The text of an outline is read as the schema that the outline stands for, if the names of its
messages, of the entries of its maps and of its services are distinct and all messages that it
mentions are its own.
-/
theorem schemaOfText_text (outline : Outline)
    (hdistinct : (outline.messageNames ++ outline.serviceNames).Nodup)
    (hreferences : ∀ path ∈ outline.references, path.name ∈ outline.messageNames) :
    schemaOfText outline.text = .ok outline.schema :=
  bind_eq_ok_iff.mpr
    ⟨_, unlinkedSchema_text outline, linkAlone_schemaWith outline hdistinct hreferences⟩

/-- A file whose names are keywords, with every sort of element and a streamed method. -/
def keywordOutline : Outline where
  dialect := .proto3
  package := some ⟨.mk "message", [.mk "option"]⟩
  definitions := [
    .message (.mk "optional") [
      .field .optional ⟨.scalar .string, .mk "oneof", 1⟩,
      .map .int32 ⟨.message ⟨.mk "message", [.mk "option", .mk "optional"]⟩, .mk "map_field", 2⟩,
      .message (.mk "enum") [.field .repeated ⟨.scalar .bytes, .mk "reserved", 4294967295⟩],
      .oneof (.mk "extend") [⟨.scalar .bool, .mk "group", 0⟩],
      .field .plain
        ⟨.message ⟨.mk "message", [.mk "option", .mk "optional", .mk "enum"]⟩, .mk "_", 7⟩],
    .service (.mk "rpc") [
      ⟨.mk "returns", true, ⟨.mk "message", [.mk "option", .mk "optional"]⟩, false,
        ⟨.mk "message", [.mk "option", .mk "optional", .mk "enum"]⟩⟩]]

theorem schemaOfText_keywordOutline :
    (keywordOutline.messageNames ++ keywordOutline.serviceNames).Nodup ∧
      (∀ path ∈ keywordOutline.references, path.name ∈ keywordOutline.messageNames) ∧
      schemaOfText keywordOutline.text = .ok keywordOutline.schema :=
  have hdistinct : (keywordOutline.messageNames ++ keywordOutline.serviceNames).Nodup := by
    decide +kernel
  have hreferences : ∀ path ∈ keywordOutline.references,
      path.name ∈ keywordOutline.messageNames := by decide +kernel
  ⟨hdistinct, hreferences, schemaOfText_text keywordOutline hdistinct hreferences⟩

example : ({
      dialect := .proto3
      package := some ⟨.mk "p", [.mk "q"]⟩
      definitions := [.message (.mk "M") [
        .field .optional ⟨.scalar .string, .mk "oneof", 1⟩,
        .map .int32 ⟨.message ⟨.mk "p", [.mk "q", .mk "M"]⟩, .mk "map", 20⟩]] } : Outline).text =
    "syntax = \"proto3\" ; package p.q ; message M \x7b optional string oneof = 1 ; " ++
      "map < int32 , .p.q.M > map = 20 ; \x7d" := by decide +kernel

end Source
end ElmBinding
