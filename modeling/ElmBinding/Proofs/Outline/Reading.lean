import ElmBinding.Proofs.Outline.Basic

/-!
# Reading outlines

The grammar of schemas puts over the canonical text of an outline the tree that the outline has.
The proof follows the productions: each of them reads its tokens, and every alternative that is
tried before the right one is rejected by the first characters of the tokens in front of it.

Main results:

- Definition {lit}`Outline.tree`: the tree over the text of an outline, without places.
- Theorem {lit}`FieldOutline.reads`: fields with a label or without one.
- Theorem {lit}`reads_element`: elements of bodies, at every depth.
- Theorem {lit}`Outline.parse_eq`: the text of an outline is read as the tree of the outline.
-/

namespace ElmBinding
namespace Source

open Grammar Grammar.Pattern

/-! ## Trees -/

/-- A node over a token. -/
def leaf (rule : Rule) (token : Token) : Node Rule :=
  ⟨rule, 0, token.chars, []⟩

/-- A node over tokens, with nodes inside it. -/
def branch (rule : Rule) (tokens : List Token) (children : List (Node Rule)) : Node Rule :=
  ⟨rule, 0, joined tokens, children⟩

/-- The node over the token of a scalar type. -/
def scalarLeaf (type : Scalar) : Node Rule :=
  leaf .scalarType (scalarToken type)

/-- The tree over a number. -/
def tagTree (number : UInt32) : Node Rule :=
  branch .tag [numberToken number] [leaf .integerValue (numberToken number)]

/-- The tree over a type. -/
def TypeOutline.tree (type : TypeOutline) : Node Rule :=
  branch .typeReference [type.token]
    [match type with
      | scalar type => scalarLeaf type
      | message path => leaf .messageType path.absoluteToken]

/-- The tree over a field with a label. -/
def FieldOutline.tree (label : Label) (field : FieldOutline) : Node Rule :=
  branch .field (label.tokens ++ field.tokens)
    (label.tokens.map (leaf .fieldModifier) ++
      [field.type.tree, leaf .fieldName field.name.token, tagTree field.number])

/-- The tree over a map field. -/
def mapTree (key : Scalar) (field : FieldOutline) : Node Rule :=
  branch .mapField (ElementOutline.map key field).tokens
    [branch .keyType [scalarToken key] [scalarLeaf key], field.type.tree,
      leaf .fieldName field.name.token, tagTree field.number]

/-- The tree over a member of a oneof. -/
def memberTree (member : FieldOutline) : Node Rule :=
  branch .oneofField member.tokens [member.tree .plain]

/-- The tree over a oneof. -/
def oneofTree (name : Ident) (members : List FieldOutline) : Node Rule :=
  branch .oneof (ElementOutline.oneof name members).tokens
    (leaf .oneofName name.token :: members.map memberTree)

mutual

/-- The tree over an element. -/
def ElementOutline.tree : ElementOutline → Node Rule
  | .field label field => field.tree label
  | .map key field => mapTree key field
  | .oneof name members => oneofTree name members
  | .message name body =>
      branch .messageBlock (ElementOutline.message name body).tokens
        [leaf .messageName name.token,
          branch .messageBody (braced (bodyTokens body)) (bodyTrees body)]

/-- The trees over the elements of a body. -/
def bodyTrees : List ElementOutline → List (Node Rule)
  | [] => []
  | element :: rest => branch .messageElement element.tokens [element.tree] :: bodyTrees rest

end

/-- The tree over a method. -/
def MethodOutline.tree (method : MethodOutline) : Node Rule :=
  branch .rpc method.tokens
    (leaf .rpcName method.name.token ::
      ((streamTokens method.clientStreaming).map (leaf .clientStream) ++
        leaf .messageType method.input.absoluteToken ::
          ((streamTokens method.serverStreaming).map (leaf .serverStream) ++
            [leaf .messageType method.output.absoluteToken])))

/-- The tree over a definition. -/
def DefinitionOutline.tree (definition : DefinitionOutline) : Node Rule :=
  branch .topLevelDefinition definition.tokens
    [match definition with
      | message name body => (ElementOutline.message name body).tree
      | service name methods =>
          branch .serviceBlock (DefinitionOutline.service name methods).tokens
            (leaf .serviceName name.token :: methods.map MethodOutline.tree)]

/-- The tree over the statement that tells the package. -/
def packageTree (path : DottedName) : Node Rule :=
  branch .packageStatement (packageTokens (some path))
    [branch .packageName [path.token] [leaf .fullIdent path.token]]

/-- The tree over the statement that tells the dialect. -/
def syntaxTree (dialect : Dialect) : Node Rule :=
  branch .syntaxStatement (syntaxTokens dialect) [leaf .stringLiteral (dialectToken dialect)]

namespace Outline

variable (outline : Outline)

/-- The trees over the statements behind the first one. -/
def statementTrees : List (Node Rule) :=
  outline.package.toList.map packageTree ++ outline.definitions.map DefinitionOutline.tree

/-- The tree over the text of an outline. -/
def tree : Node Rule :=
  branch .proto outline.tokens
    [syntaxTree outline.dialect,
      branch .protoBody outline.statementTokens outline.statementTrees,
      ⟨.endOfInput, 0, [], []⟩]

end Outline

/-! ## Alternatives -/

variable {depth : Nat} {front back : List Token} {trees : List (Node Rule)}

/-- One of several rules reads tokens that the rules before it reject. -/
theorem Reads.choice (rules : List Rule) {rule : Rule} (place : Nat)
    (hrule : rules[place]? = some rule)
    (hbefore : ∀ other ∈ rules.take place, Rejects depth (.sub other) (front ++ back))
    (hfront : front ≠ []) (h : Reads depth (.sub rule) front back trees) :
    Reads depth (.choice (rules.map .sub)) front back trees := by
  induction rules generalizing place with
  | nil => simp at hrule
  | cons first others ih =>
      cases place with
      | zero =>
          obtain rfl : first = rule := by simpa using hrule
          cases others with
          | nil => exact h
          | cons second others => exact Takes.alt_left h
      | succ place =>
          rw [List.take_succ_cons, List.forall_mem_cons] at hbefore
          cases others with
          | nil => simp at hrule
          | cons second others =>
              exact Reads.alt_right hbefore.1 hfront (ih place hrule hbefore.2)

/-- One of several rules reads tokens, of which the first one tells that others are refused. -/
theorem Reads.choice_of_refusedAt (rules : List Rule) {rule : Rule} {token : Token} (place : Nat)
    (hrule : rules[place]? = some rule)
    (hbefore : ∀ other ∈ rules.take place, refusedAt token.chars (.sub other))
    (h : Reads depth (.sub rule) (token :: front) back trees) :
    Reads depth (.choice (rules.map .sub)) (token :: front) back trees :=
  Reads.choice rules place hrule (fun other hother => rejects_token (hbefore other hother) _)
    (List.cons_ne_nil _ _) h

/-- What the tokens of types begin with: a dot, or the keyword of a scalar type. -/
def typeFronts : List (List Char) :=
  ['.'] :: Scalar.all.map fun type => type.keyword.toList

/-- What every beginning of a type tells to be refused is rejected at a type. -/
theorem TypeOutline.rejects {part : Pattern Rule} (h : ∀ front ∈ typeFronts, refusedAt front part)
    (type : TypeOutline) (back : List Token) : Rejects depth part (type.token :: back) := by
  rcases List.forall_mem_cons.mp h with ⟨hmessage, hscalar⟩
  cases type with
  | scalar type => exact rejects_token (hscalar _ (List.mem_map_of_mem (mem_scalarAll type))) back
  | message path => exact @rejects_of_front _ _ _ ['.'] path.chars rfl hmessage back

/-- A part between braces as often as it is there reads items between braces. -/
theorem reads_braced {ι : Type} {part : Pattern Rule} {tokensOf : ι → List Token}
    {treeOf : ι → Node Rule} (items : List ι)
    (hitems : ∀ item ∈ items, ∀ back, Reads depth part (tokensOf item) back [treeOf item])
    (htokens : ∀ item ∈ items, tokensOf item ≠ []) (hstop : refusedAt ['\x7d'] part)
    (back : List Token) :
    Reads depth (.chain [bodyStart, part.many, bodyEnd]) (braced (items.flatMap tokensOf)) back
      (items.map treeOf) := by
  have hclose : Rejects depth part (Token.ofWord "\x7d" :: back) := rejects_token hstop back
  have hmany := Reads.many hitems htokens hclose (List.cons_ne_nil _ _)
    (Reads.word "\x7d" (by decide) (by decide) back)
  rw [← List.map_eq_flatMap, List.append_nil] at hmany
  exact (Reads.word "\x7b" _ _ _).seq hmany (List.cons_ne_nil _ _) (by simp)

/-! ## Fields -/

/-- A message type reads an absolute name. -/
theorem reads_messageType (path : DottedName) (back : List Token) :
    Reads 1 (.sub .messageType) [path.absoluteToken] back
      [leaf .messageType path.absoluteToken] :=
  Reads.leaf rfl (takes_typeName path (endsToken_behind back))

/-- A scalar type reads its keyword. -/
theorem reads_scalarType (type : Scalar) (back : List Token) :
    Reads 1 (.sub .scalarType) [scalarToken type] back [scalarLeaf type] :=
  Reads.leaf rfl (takes_scalarKeyword type (endsToken_behind back))

/-- A type reference reads a type. -/
theorem TypeOutline.reads (type : TypeOutline) (back : List Token) :
    Reads 2 (.sub .typeReference) [type.token] back [type.tree] := by
  refine Reads.sub rfl ?_
  cases type with
  | scalar type => exact Takes.alt_left (reads_scalarType type back)
  | message path =>
      have hscalar : Rejects 1 (.sub .scalarType) (path.absoluteToken :: back) :=
        @rejects_of_front _ _ _ ['.'] path.chars rfl (by decide) back
      exact Reads.alt_right hscalar (List.cons_ne_nil _ _) (reads_messageType path back)

/-- A rule of names reads an identifier. -/
theorem reads_name (rule : Rule) (hrule : rule.production = .token ident) (name : Ident)
    (back : List Token) : Reads (depth + 1) (.sub rule) [name.token] back [leaf rule name.token] :=
  Reads.leaf hrule (takes_ident name ((endsToken_behind back).head (by decide)))

/-- A tag reads a number. -/
theorem reads_tag (number : UInt32) (back : List Token) :
    Reads 2 (.sub .tag) [numberToken number] back [tagTree number] :=
  Reads.sub rfl (Reads.leaf rfl (takes_integer number (endsToken_behind back)))

/-- The end of a field, from its name on. -/
theorem FieldOutline.reads_end (field : FieldOutline) (back : List Token) :
    Reads 2 (.chain [sub .fieldName, word "=", sub .tag, (sub .fieldOptions).opt, word ";"])
      [field.name.token, .ofWord "=", numberToken field.number, .ofWord ";"] back
      [leaf .fieldName field.name.token, tagTree field.number] := by
  have hoptions : Rejects 2 (.sub .fieldOptions) (.ofWord ";" :: back) :=
    rejects_token (by decide) back
  have hclose := Reads.opt_none hoptions (List.cons_ne_nil _ _)
    (Reads.word ";" (by decide) (by decide) back)
  exact (reads_name .fieldName rfl field.name _).cons
    ((Reads.word "=" _ _ _).cons ((reads_tag field.number _).cons hclose))

/-- The modifier of a field reads the token of a label. -/
theorem Label.reads {label : Label} {token : Token} (h : label.tokens = [token])
    (back : List Token) :
    Reads 1 (.sub .fieldModifier) [token] back [leaf .fieldModifier token] := by
  have hend := endsToken_behind back
  cases label with
  | plain => contradiction
  | optional =>
      cases h
      exact Reads.leaf rfl (takes_keyword (by decide) (by decide +kernel) hend)
  | required =>
      cases h
      exact Reads.leaf rfl (takes_keyword (by decide) (by decide +kernel) hend)
  | repeated =>
      cases h
      exact Reads.leaf rfl (takes_keyword (by decide) (by decide +kernel) hend)

/-- There is a token of a label, or there is none. -/
theorem Label.tokens_cases (label : Label) :
    label.tokens = [] ∨ ∃ token, label.tokens = [token] := by
  cases label with
  | plain => exact Or.inl rfl
  | optional | required | repeated => exact Or.inr ⟨_, rfl⟩

/-- A field reads a label and what is behind it. -/
theorem FieldOutline.reads (label : Label) (field : FieldOutline) (back : List Token) :
    Reads 3 (.sub .field) (label.tokens ++ field.tokens) back [field.tree label] := by
  refine Reads.sub rfl ?_
  have htype : Reads 2 (.chain [sub .typeReference, sub .fieldName, word "=", sub .tag,
      (sub .fieldOptions).opt, word ";"]) field.tokens back
      [field.type.tree, leaf .fieldName field.name.token, tagTree field.number] :=
    (field.type.reads _).cons (field.reads_end back)
  rcases label.tokens_cases with hlabel | ⟨token, hlabel⟩
  · rw [hlabel]
    exact Reads.opt_none (field.type.rejects (by decide +kernel) _) (List.cons_ne_nil _ _) htype
  · rw [hlabel]
    have hmodifier : Reads 2 ((sub Rule.fieldModifier).opt) [token] (field.tokens ++ back) _ :=
      Takes.opt ((Label.reads hlabel _).mono (by decide))
    exact hmodifier.cons htype

/-! ## Elements -/

/-- The rules of elements, in the order in which they are tried. -/
def elementRules : List Rule := [
  .mapField, .oneof, .enumBlock, .messageBlock, .extendBlock, .optionStatement, .reserved,
  .extensions, .groupField, .field, .emptyStatement]

/-- The name of an option takes an identifier in front of a blank. -/
theorem takes_optionName (name : Ident) (rest : List Char) :
    Takes schemaGrammar gapLength (depth + 1) (.sub .optionName) name.name.toList (' ' :: rest)
      [leaf .optionName name.token] := by
  have hblank : (' ' :: rest).head?.any isIdentChar = false := rfl
  have hparenthesis : Refuses schemaGrammar (fun _ => 0) depth (word "(")
      (name.name.toList ++ ' ' :: rest) := by
    rcases name.exists_chars with ⟨c, chars, hchars, hstart, -⟩
    have hne : '(' ≠ c := by
      rintro rfl
      contradiction
    rw [hchars]
    exact refuses_word (by simp [List.isPrefixOf, hne])
  refine takes_leaf rfl (Takes.before (Takes.alt_right ?_ ?_) rfl (Takes.many_none ?_))
  · exact Refuses.seq_left hparenthesis
  · exact takes_ident name hblank
  · exact Refuses.seq_left (refuses_word rfl)

/-- No option begins with the word of optional fields and a type. -/
theorem rejects_optionStatement (type : TypeOutline) (back : List Token) :
    Rejects (depth + 2) (.sub .optionStatement) (.ofWord "optional" :: type.token :: back) := by
  have hequals : Rejects (depth + 1) (.chain [word "=", sub .constant, word ";"])
      (type.token :: back) := type.rejects (by decide +kernel) back
  have hbehind : joined (.ofWord "optional" :: type.token :: back) =
      "option".toList ++ ([] ++ (['a', 'l'] ++ ([' '] ++ joined (type.token :: back)))) := by
    rw [joined, behind_cons]
    rfl
  have hgap : gapLength ([' '] ++ joined (type.token :: back)) = 1 := by
    have h := gapLength_behind type.token back
    rw [behind_cons] at h
    exact h
  refine Rejects.sub rfl ?_
  rw [Rejects, hbehind]
  -- The keyword has no end of its own, so the rest of the word is read as a name.
  refine Refuses.seq_right (Takes.word "option" _) (gapLength_solid (by decide) _) ?_
  exact Refuses.seq_right (takes_optionName ⟨"al", by decide⟩ _) hgap hequals

/-- No group begins with a label and a type. -/
theorem rejects_groupField {label : Label} {token : Token} (hlabel : label.tokens = [token])
    (type : TypeOutline) (back : List Token) :
    Rejects 2 (.sub .groupField) (token :: type.token :: back) := by
  refine Rejects.sub rfl (Rejects.behind (Label.reads hlabel _) ?_)
  exact type.rejects (by decide +kernel) back

/-- The rules before the one of fields are told to be refused at a label, but for two of them. -/
theorem Label.refusedAt {label : Label} {token : Token} (h : label.tokens = [token]) :
    ∀ other ∈ elementRules.take 9, other = .groupField ∨
      (other = .optionStatement ∧ label = .optional) ∨ refusedAt token.chars (.sub other) := by
  cases label with
  | plain => contradiction
  | optional | required | repeated =>
      cases h
      decide +kernel

/-- The rules before the one of fields reject a field. -/
theorem FieldOutline.rejects (label : Label) (field : FieldOutline) (back : List Token) :
    ∀ other ∈ elementRules.take 9,
      Rejects 3 (.sub other) (label.tokens ++ field.tokens ++ back) := by
  intro other hother
  rcases label.tokens_cases with hlabel | ⟨token, hlabel⟩
  · have hrefused : ∀ other ∈ elementRules.take 9, ∀ front ∈ typeFronts,
        Source.refusedAt front (.sub other) := by decide +kernel
    rw [hlabel]
    exact field.type.rejects (hrefused other hother) _
  · rw [hlabel]
    rcases Label.refusedAt hlabel other hother with rfl | ⟨rfl, rfl⟩ | hrefused
    · exact (rejects_groupField hlabel field.type _).mono (by decide)
    · cases hlabel
      exact rejects_optionStatement field.type _
    · exact rejects_token hrefused _

/-- A map field reads a map field. -/
theorem reads_mapField (key : Scalar) (field : FieldOutline) (back : List Token) :
    Reads 3 (.sub .mapField) (ElementOutline.map key field).tokens back [mapTree key field] := by
  have hkey : ∀ back, Reads 2 (.sub .keyType) [scalarToken key] back
      [branch .keyType [scalarToken key] [scalarLeaf key]] :=
    fun back => Reads.sub rfl (reads_scalarType key back)
  have hvalue := (field.type.reads _).cons ((Reads.word ">" (by decide) (by decide) _).cons
    (field.reads_end back))
  exact Reads.sub rfl ((Reads.word "map" _ _ _).cons ((Reads.word "<" _ _ _).cons
    ((hkey _).cons ((Reads.word "," _ _ _).cons hvalue))))

/-- A member of a oneof reads a field without a label. -/
theorem FieldOutline.reads_member (member : FieldOutline) (back : List Token) :
    Reads 4 (.choice [sub .optionStatement, sub .oneofField, sub .emptyStatement]) member.tokens
      back [memberTree member] := by
  have hoption : Rejects 4 (.sub .optionStatement) (member.tokens ++ back) :=
    member.type.rejects (by decide +kernel) _
  have hmember : Reads 4 (.sub .oneofField) member.tokens back [memberTree member] :=
    Reads.sub rfl (member.reads .plain back)
  exact Reads.alt_right hoption (List.cons_ne_nil _ _) (Takes.alt_left hmember)

/-- A oneof reads a oneof. -/
theorem reads_oneof (name : Ident) (members : List FieldOutline) (back : List Token) :
    Reads 5 (.sub .oneof) (ElementOutline.oneof name members).tokens back
      [oneofTree name members] := by
  have hbody := reads_braced members (fun member _ => member.reads_member)
    (fun _ _ => List.cons_ne_nil _ _) (by decide) back
  exact Reads.sub rfl ((Reads.word "oneof" _ _ _).cons
    ((reads_name .oneofName rfl name _).cons hbody))

/-- The tokens of a body are those of its elements. -/
theorem bodyTokens_eq_flatMap (body : List ElementOutline) :
    bodyTokens body = body.flatMap ElementOutline.tokens := by
  induction body with
  | nil => rw [bodyTokens, List.flatMap_nil]
  | cons element rest ih => rw [bodyTokens, ih, List.flatMap_cons]

/-- The trees of a body are those of its elements. -/
theorem bodyTrees_eq_map (body : List ElementOutline) :
    bodyTrees body =
      body.map fun element => branch .messageElement element.tokens [element.tree] := by
  induction body with
  | nil => rw [bodyTrees, List.map_nil]
  | cons element rest ih => rw [bodyTrees, ih, List.map_cons]

/-- There are tokens in every element. -/
theorem ElementOutline.tokens_ne_nil (element : ElementOutline) : element.tokens ≠ [] := by
  cases element <;> simp [ElementOutline.tokens, FieldOutline.tokens]

/-- The tokens of one of several items are no more than those of all of them. -/
theorem length_le_flatMap_of_mem {ι : Type} (tokensOf : ι → List Token) {item : ι} {items : List ι}
    (h : item ∈ items) : (tokensOf item).length ≤ (items.flatMap tokensOf).length :=
  (List.sublist_flatten_of_mem (List.mem_map_of_mem h)).length_le

/-- A message reads a message if the elements of its body are read. -/
theorem reads_messageBlock {body : List ElementOutline}
    (hbody : ∀ element ∈ body, ∀ back, Reads (element.tokens.length + 2) (.sub .messageElement)
      element.tokens back [branch .messageElement element.tokens [element.tree]])
    (name : Ident) (back : List Token) :
    Reads ((bodyTokens body).length + 4) (.sub .messageBlock)
      (ElementOutline.message name body).tokens back
      [(ElementOutline.message name body).tree] := by
  have hdeep : ∀ element ∈ body, ∀ back, Reads ((bodyTokens body).length + 2)
      (.sub .messageElement) element.tokens back
      [branch .messageElement element.tokens [element.tree]] := by
    intro element hmem back
    have hle := length_le_flatMap_of_mem ElementOutline.tokens hmem
    rw [bodyTokens_eq_flatMap]
    exact (hbody element hmem back).mono (Nat.add_le_add_right hle 2)
  have hinner := reads_braced body hdeep (fun element _ => element.tokens_ne_nil) (by decide) back
  rw [← bodyTokens_eq_flatMap, ← bodyTrees_eq_map] at hinner
  have hblock : Reads ((bodyTokens body).length + 3) (.sub .messageBody) _ back
      [branch .messageBody _ _] :=
    Reads.sub rfl hinner
  exact Reads.sub rfl ((Reads.word "message" _ _ _).cons
    ((reads_name .messageName rfl name _).cons hblock))

/-- The elements of a body are read, however deep they nest. -/
theorem reads_element (elements : List ElementOutline) :
    ∀ element ∈ elements, ∀ back,
      Reads (element.tokens.length + 2) (.sub .messageElement) element.tokens back
        [branch .messageElement element.tokens [element.tree]] := by
  -- A message has four tokens around its body and calls three rules, so tokens bound the depth.
  induction elements using elements_induction with
  | nil => simp
  | field label field rest ih =>
      refine List.forall_mem_cons.mpr ⟨fun back => ?_, ih⟩
      have hne := (ElementOutline.field label field).tokens_ne_nil
      have hchoice := Reads.choice elementRules 9 rfl (field.rejects label back) hne
        (field.reads label back)
      exact (Reads.sub rfl hchoice).mono (by simp [ElementOutline.tokens, FieldOutline.tokens])
  | map key field rest ih =>
      refine List.forall_mem_cons.mpr ⟨fun back => ?_, ih⟩
      have hchoice := Reads.choice_of_refusedAt elementRules 0 rfl (by decide)
        (reads_mapField key field back)
      exact (Reads.sub rfl hchoice).mono (by simp [ElementOutline.tokens])
  | oneof name members rest ih =>
      refine List.forall_mem_cons.mpr ⟨fun back => ?_, ih⟩
      have hchoice := Reads.choice_of_refusedAt elementRules 1 rfl (by decide +kernel)
        (reads_oneof name members back)
      exact (Reads.sub rfl hchoice).mono (by simp [ElementOutline.tokens, length_braced])
  | message name body rest hbody ih =>
      refine List.forall_mem_cons.mpr ⟨fun back => ?_, ih⟩
      have hchoice := Reads.choice_of_refusedAt elementRules 3 rfl (by decide +kernel)
        (reads_messageBlock hbody name back)
      exact (Reads.sub rfl hchoice).mono (by simp [ElementOutline.tokens, length_braced])

/-! ## Methods -/

/-- A message type that may be streamed, and what is behind it. -/
theorem reads_streamed (rule : Rule) (hrule : rule.production = .token streamKeyword)
    (hrefused : refusedAt ['.'] (.sub rule)) (streaming : Bool) (path : DottedName)
    {second : Pattern Rule} {next : Token}
    (hsecond : Reads 1 second (next :: front) back trees) :
    Reads 1 (.seq (.opt (.sub rule)) (.seq (.sub .messageType) second))
      (streamTokens streaming ++ path.absoluteToken :: next :: front) back
      ((streamTokens streaming).map (leaf rule) ++
        leaf .messageType path.absoluteToken :: trees) := by
  have htype := (reads_messageType path (next :: front ++ back)).cons hsecond
  cases streaming with
  | false =>
      have hnone : Rejects 1 (.sub rule) (path.absoluteToken :: next :: front ++ back) :=
        @rejects_of_front _ _ _ ['.'] path.chars rfl hrefused _
      exact Reads.opt_none hnone (List.cons_ne_nil _ _) htype
  | true =>
      have hstream : Reads 1 (.opt (.sub rule)) [.ofWord "stream"]
          (path.absoluteToken :: next :: front ++ back) [leaf rule (.ofWord "stream")] := by
        refine Takes.opt (Reads.leaf hrule ?_)
        rw [List.cons_append, behind_cons]
        exact takes_streamKeyword _
      exact hstream.cons htype

/-- A method reads a method. -/
theorem MethodOutline.reads (method : MethodOutline) (back : List Token) :
    Reads 2 (.sub .rpc) method.tokens back [method.tree] := by
  have hend : Reads 1 (.choice [sub .rpcBody, word ";"]) [.ofWord ";"] back [] :=
    Reads.alt_right (rejects_token (by decide) back) (List.cons_ne_nil _ _)
      (Reads.word ";" _ _ back)
  have houtput := reads_streamed .serverStream rfl (by decide) method.serverStreaming method.output
    ((Reads.word ")" (by decide) (by decide) _).cons hend)
  have hreturns := (Reads.word ")" (by decide) (by decide) _).cons
    ((Reads.word "returns" (by decide) (by decide) _).cons
      ((Reads.word "(" (by decide) (by decide) _).seq houtput (List.cons_ne_nil _ _) (by simp)))
  have hinput := reads_streamed .clientStream rfl (by decide) method.clientStreaming method.input
    hreturns
  have hopen := (Reads.word "(" (by decide) (by decide) _).seq hinput (List.cons_ne_nil _ _)
    (by simp)
  exact Reads.sub rfl ((Reads.word "rpc" _ _ _).cons
    ((reads_name .rpcName rfl method.name _).cons hopen))

/-! ## Definitions -/

/-- A service reads a service. -/
theorem reads_serviceBlock (name : Ident) (methods : List MethodOutline) (back : List Token) :
    Reads 3 (.sub .serviceBlock) (DefinitionOutline.service name methods).tokens back
      [branch .serviceBlock (DefinitionOutline.service name methods).tokens
        (leaf .serviceName name.token :: methods.map MethodOutline.tree)] := by
  have hmethod : ∀ method ∈ methods, ∀ back,
      Reads 2 (.choice [sub .optionStatement, sub .rpc, sub .emptyStatement]) method.tokens back
        [method.tree] := by
    intro method _ back
    have hoption : Rejects 2 (.sub .optionStatement) (method.tokens ++ back) :=
      rejects_token (by decide) _
    exact Reads.alt_right hoption (List.cons_ne_nil _ _) (Takes.alt_left (method.reads back))
  have hbody := reads_braced methods hmethod (fun _ _ => List.cons_ne_nil _ _) (by decide) back
  exact Reads.sub rfl ((Reads.word "service" _ _ _).cons
    ((reads_name .serviceName rfl name _).cons hbody))

/-- The rules of definitions, in the order in which they are tried. -/
def definitionRules : List Rule :=
  [.messageBlock, .enumBlock, .serviceBlock, .extendBlock]

/-- A definition reads a message or a service. -/
theorem DefinitionOutline.reads (definition : DefinitionOutline) (back : List Token) :
    Reads (definition.tokens.length + 4) (.sub .topLevelDefinition) definition.tokens back
      [definition.tree] := by
  cases definition with
  | message name body =>
      have hchoice := Reads.choice_of_refusedAt definitionRules 0 rfl (by decide)
        (reads_messageBlock (reads_element body) name back)
      exact (Reads.sub rfl hchoice).mono
        (by simp [DefinitionOutline.tokens, ElementOutline.tokens, length_braced])
  | service name methods =>
      have hchoice := Reads.choice_of_refusedAt definitionRules 2 rfl (by decide)
        (reads_serviceBlock name methods back)
      exact (Reads.sub rfl hchoice).mono (by omega)

/-- There are tokens in every definition. -/
theorem DefinitionOutline.tokens_ne_nil (definition : DefinitionOutline) :
    definition.tokens ≠ [] := by
  cases definition <;> simp [DefinitionOutline.tokens, ElementOutline.tokens]

/-! ## Files -/

/-- The statement that tells the package is read. -/
theorem reads_packageStatement (path : DottedName) (back : List Token) :
    Reads 3 (.sub .packageStatement) (packageTokens (some path)) back [packageTree path] := by
  have hname : Reads 2 (.sub .packageName) [path.token] (.ofWord ";" :: back)
      [branch .packageName [path.token] [leaf .fullIdent path.token]] := by
    have hend := endsToken_behind (.ofWord ";" :: back)
    have hdot : (behind (.ofWord ";" :: back)).head? ≠ some '.' := by
      rw [behind_cons]
      simp
    exact Reads.sub rfl (Reads.leaf rfl (takes_dottedIdent path (hend.head (by decide)) hdot))
  exact Reads.sub rfl ((Reads.word "package" _ _ _).cons (hname.cons (Reads.word ";" _ _ back)))

/-- The statement that tells the dialect is read. -/
theorem reads_syntaxStatement (dialect : Dialect) (back : List Token) :
    Reads 2 (.sub .syntaxStatement) (syntaxTokens dialect) back [syntaxTree dialect] := by
  have hliteral : ∀ back, Reads 1 (.sub .stringLiteral) [dialectToken dialect] back
      [leaf .stringLiteral (dialectToken dialect)] := by
    intro back
    cases dialect with
    | proto2 => exact Reads.leaf rfl (Takes.alt_left (takes_quoted "proto2" (by decide) _))
    | proto3 => exact Reads.leaf rfl (Takes.alt_left (takes_quoted "proto3" (by decide) _))
  have hkeyword : ∀ back, Reads 1 (oneOf ["syntax", "edition"]) [.ofWord "syntax"] back [] :=
    fun back => Takes.alt_left (Reads.word "syntax" _ _ back)
  exact Reads.sub rfl ((hkeyword _).cons ((Reads.word "=" _ _ _).cons
    ((hliteral _).cons (Reads.word ";" _ _ back))))

/-- The rules of statements, in the order in which they are tried. -/
def statementRules : List Rule :=
  [.importStatement, .packageStatement, .optionStatement, .topLevelDefinition, .emptyStatement]

/-- The statement that tells the package is read among the statements. -/
theorem reads_packageChoice (path : DottedName) (back : List Token) :
    Reads ((packageTokens (some path)).length + 4) (.choice (statementRules.map .sub))
      (packageTokens (some path)) back [packageTree path] := by
  have hpackage := Reads.choice_of_refusedAt statementRules 1 rfl (by decide)
    (reads_packageStatement path back)
  exact hpackage.mono (by simp [packageTokens])

/-- The tokens of the statement that tells the dialect, if there is one. -/
def headerTokens (header : Option Dialect) : List Token :=
  header.elim [] syntaxTokens

/-- The tree over a file that may tell its dialect, from its statements with the trees over them. -/
def fileTree (header : Option Dialect) (statements : List (List Token × Node Rule)) : Node Rule :=
  branch .proto (headerTokens header ++ statements.flatMap Prod.fst)
    (header.toList.map syntaxTree ++
      [branch .protoBody (statements.flatMap Prod.fst) (statements.map Prod.snd),
        ⟨.endOfInput, 0, [], []⟩])

section Statements

variable {statements : List (List Token × Node Rule)}
  (hreads : ∀ statement ∈ statements, ∀ back, Reads (statement.1.length + 4)
    (.choice (statementRules.map .sub)) statement.1 back [statement.2])
  (htokens : ∀ statement ∈ statements, statement.1 ≠ [])

include hreads htokens

/-- The body of a file reads the statements up to the end of the input. -/
theorem reads_protoBody :
    Reads ((statements.flatMap Prod.fst).length + 5) (.sub .protoBody)
      (statements.flatMap Prod.fst) []
      [branch .protoBody (statements.flatMap Prod.fst) (statements.map Prod.snd)] := by
  have hstop : Rejects ((statements.flatMap Prod.fst).length + 4)
      (.choice (statementRules.map .sub)) [] :=
    rejects_end (by decide)
  have hitems : ∀ statement ∈ statements, ∀ back,
      Reads ((statements.flatMap Prod.fst).length + 4) (.choice (statementRules.map .sub))
        statement.1 back [statement.2] := by
    intro statement hmem back
    have hle := length_le_flatMap_of_mem Prod.fst hmem
    exact (hreads statement hmem back).mono (Nat.add_le_add_right hle 4)
  have hmany : Reads ((statements.flatMap Prod.fst).length + 4)
      (.many (.choice (statementRules.map .sub))) (statements.flatMap Prod.fst) []
      (statements.map Prod.snd) := by
    cases statements with
    | nil => exact Takes.many_none hstop
    | cons first rest =>
        have hread := Reads.many_items hitems htokens hstop
        rw [← List.map_eq_flatMap] at hread
        exact hread
  exact Reads.sub rfl hmany

/-- Behind the start of a file, the header and the statements take the whole text. -/
theorem takes_file {header : Option Dialect}
    (hheader : header = none →
      Rejects 2 (.sub .syntaxStatement) (statements.flatMap Prod.fst)) :
    Takes schemaGrammar gapLength ((statements.flatMap Prod.fst).length + 5)
      (.chain [(sub .syntaxStatement).opt, sub .protoBody, sub .endOfInput])
      (joined (headerTokens header ++ statements.flatMap Prod.fst)) []
      (fileTree header statements).children := by
  have hend : Takes schemaGrammar gapLength ((statements.flatMap Prod.fst).length + 5)
      (.sub .endOfInput) [] [] [⟨.endOfInput, 0, [], []⟩] :=
    Takes.sub Takes.finish
  have hbody := @Takes.seq _ _ _ _ _ _ _ [] [] [] _ _ (reads_protoBody hreads htokens) rfl hend
  cases header with
  | none =>
      have hnone : Takes schemaGrammar gapLength ((statements.flatMap Prod.fst).length + 5)
          ((sub .syntaxStatement).opt) [] (joined (statements.flatMap Prod.fst)) [] :=
        Takes.opt_none ((hheader rfl).mono (by omega))
      have hgap := gapLength_joined (statements.flatMap Prod.fst)
      rw [List.append_nil, List.append_nil] at hbody
      rw [← List.append_nil (joined _)] at hnone hgap
      exact Takes.skip hnone hgap hbody
  | some dialect =>
      have hsyntax : Reads ((statements.flatMap Prod.fst).length + 5) ((sub .syntaxStatement).opt)
          (syntaxTokens dialect) (statements.flatMap Prod.fst) [syntaxTree dialect] :=
        Takes.opt ((reads_syntaxStatement dialect _).mono (by omega))
      rcases exists_gap (statements.flatMap Prod.fst) with ⟨gap, hgap, hlength⟩
      have htext : joined (syntaxTokens dialect ++ statements.flatMap Prod.fst) =
          joined (syntaxTokens dialect) ++
            (gap ++ (joined (statements.flatMap Prod.fst) ++ ([] ++ []))) := by
        rw [List.append_nil, List.append_nil, ← hgap]
        exact joined_append (List.cons_ne_nil _ _) _
      have hrest : behind (statements.flatMap Prod.fst) =
          gap ++ (joined (statements.flatMap Prod.fst) ++ ([] ++ []) ++ []) := by
        rw [hgap, List.append_nil, List.append_nil, List.append_nil]
      rw [Reads, hrest] at hsyntax
      rw [hrest] at hlength
      rw [headerTokens, Option.elim_some, htext]
      exact Takes.seq hsyntax hlength hbody

/-- The text of a file of statements is read as the tree over the file. -/
theorem parse_of_statements {header : Option Dialect}
    (hheader : header = none →
      Rejects 2 (.sub .syntaxStatement) (statements.flatMap Prod.fst)) :
    ∃ root, schemaGrammar.parse .proto
        (joined (headerTokens header ++ statements.flatMap Prod.fst)) = .ok root ∧
      root.bare = fileTree header statements := by
  have hlength := length_le_joined (headerTokens header ++ statements.flatMap Prod.fst)
  have htokensLength : (statements.flatMap Prod.fst).length ≤
      (headerTokens header ++ statements.flatMap Prod.fst).length :=
    (List.suffix_append (headerTokens header) _).length_le
  have hrules : schemaGrammar.rules.length = 57 := rfl
  -- The depth is little more than the number of tokens, and every token has a character.
  refine parse_of_takes rfl (takes_file hreads htokens hheader) (gapLength_joined _) ?_
  rw [callBudget, hrules]
  omega

end Statements

namespace Outline

/-- The statements behind the first one, with the trees over them. -/
def statements (outline : Outline) : List (List Token × Node Rule) :=
  outline.package.toList.map (fun path => (packageTokens (some path), packageTree path)) ++
    outline.definitions.map fun definition => (definition.tokens, definition.tree)

variable (outline : Outline)

/-- The tokens of the statements. -/
theorem flatMap_statements : outline.statements.flatMap Prod.fst = outline.statementTokens := by
  rw [statements, statementTokens, List.flatMap_append, List.flatMap_map, List.flatMap_map]
  cases outline.package with
  | none => rfl
  | some path => simp [packageTokens]

/-- The trees over the statements. -/
theorem map_statements : outline.statements.map Prod.snd = outline.statementTrees := by
  rw [statements, statementTrees, List.map_append, List.map_map, List.map_map]
  rfl

/-- Every statement is read. -/
theorem reads_of_mem_statements {statement : List Token × Node Rule}
    (h : statement ∈ outline.statements) (back : List Token) :
    Reads (statement.1.length + 4) (.choice (statementRules.map .sub)) statement.1 back
      [statement.2] := by
  rcases List.mem_append.mp h with h | h
  · rcases List.mem_map.mp h with ⟨path, -, rfl⟩
    exact reads_packageChoice path back
  · rcases List.mem_map.mp h with ⟨definition, -, rfl⟩
    have hread := definition.reads back
    cases definition with
    | message name body => exact hread.choice_of_refusedAt statementRules 3 rfl (by decide)
    | service name methods => exact hread.choice_of_refusedAt statementRules 3 rfl (by decide)

/-- There are tokens in every statement. -/
theorem ne_nil_of_mem_statements {statement : List Token × Node Rule}
    (h : statement ∈ outline.statements) : statement.1 ≠ [] := by
  rcases List.mem_append.mp h with h | h
  · rcases List.mem_map.mp h with ⟨path, -, rfl⟩
    exact List.cons_ne_nil _ _
  · rcases List.mem_map.mp h with ⟨definition, -, rfl⟩
    exact definition.tokens_ne_nil

/-- The text of an outline is read as the tree of the outline. -/
theorem parse_eq : ∃ root, schemaGrammar.parse .proto (joined outline.tokens) = .ok root ∧
    root.bare = outline.tree := by
  have h := @parse_of_statements outline.statements
    (fun _ hmem => outline.reads_of_mem_statements hmem)
    (fun _ hmem => outline.ne_nil_of_mem_statements hmem) (some outline.dialect) (by simp)
  rw [fileTree, flatMap_statements, map_statements] at h
  exact h

end Outline

end Source
end ElmBinding
