import ElmBinding.Proofs.Outline.Building
import ElmBinding.Source.Schemas

/-!
# Reading enumerations

A file that declares an enumeration has a canonical text, with one blank between tokens.  Its
values are read in their order, each with the number that is written.  The keyword of options has
no end of its own, though: where the name of a value goes on as an identifier behind that keyword,
the value is read as an option with the rest of the name, and it is not declared.

Main results:

- Definition {lit}`EnumOutline`: a file that declares one enumeration.
- Definition {lit}`Ident.optionName?`: the option that is read in the place of a name.
- Theorem {lit}`ValueOutline.reads`: a value is read as a value or as an option.
- Theorem {lit}`EnumOutline.parse_eq`: the tree over the text of an enumeration.
- Theorem {lit}`schemaOfText_enumText`: the values that the text of an enumeration declares.
-/

namespace ElmBinding
namespace Source

open Grammar Grammar.Pattern

/-! ## Outlines of enumerations -/

/-- A value of an enumeration. -/
structure ValueOutline where
  name : Ident
  number : Int32

/-- A file that declares one enumeration, without comments. -/
structure EnumOutline where
  /-- The dialect, if the first statement tells it. -/
  header : Option Dialect := none
  package : Option DottedName := none
  name : Ident
  values : List ValueOutline

/-- What stands behind the name of a value. -/
def ValueOutline.endTokens (value : ValueOutline) : List Token :=
  assignmentTokens (signedToken value.number)

/-- The tokens of a value. -/
def ValueOutline.tokens (value : ValueOutline) : List Token :=
  value.name.token :: value.endTokens

namespace EnumOutline

variable (outline : EnumOutline)

/-- The tokens of the enumeration. -/
def blockTokens : List Token :=
  .ofWord "enum" :: outline.name.token :: braced (outline.values.flatMap ValueOutline.tokens)

/-- The tokens of the file. -/
def tokens : List Token :=
  headerTokens outline.header ++ (packageTokens outline.package ++ outline.blockTokens)

/-- The canonical text of the file, with one blank between tokens. -/
def text : String :=
  String.ofList (joined outline.tokens)

end EnumOutline

/-! ### What is declared -/

/-- The identifier behind the keyword of options at the front of a name, if there is one. -/
def Ident.optionName? (ident : Ident) : Option Ident :=
  (List.isPrefixOf? "option".toList ident.name.toList).bind fun rest =>
    if h : isIdentText rest = true then
      some ⟨String.ofList rest, by rw [String.toList_ofList]; exact h⟩
    else
      none

/-- Whether a value is read as one, and no option in its place. -/
def ValueOutline.isDeclared (value : ValueOutline) : Bool :=
  value.name.optionName?.isNone

/-- The value that an outline stands for in a package. -/
def ValueOutline.enumValue (package : String) (value : ValueOutline) : EnumValue where
  name := value.name.name
  fullName := qualify package value.name.name
  number := value.number.toInt

/-- The enumeration with some of its values, declared in a scope. -/
def EnumOutline.enumeration (outline : EnumOutline) (scope : String) (values : List ValueOutline) :
    Enumeration where
  name := outline.name.name
  fullName := qualify scope outline.name.name
  values := values.map (ValueOutline.enumValue scope)

/-- The schema of the file with some of its values. -/
def EnumOutline.schemaWith (outline : EnumOutline) (values : List ValueOutline) : Schema where
  dialect := outline.header.getD .proto2
  package := outline.package.map DottedName.name
  enums := [outline.enumeration (packageText outline.package) values]

/-- An option is read for a name that is the keyword of options in front of an identifier. -/
theorem Ident.optionName?_eq_some_iff {ident rest : Ident} :
    ident.optionName? = some rest ↔ ident.name = "option" ++ rest.name := by
  rw [optionName?, Option.bind_eq_some_iff]
  constructor
  · rintro ⟨chars, hchars, hrest⟩
    split at hrest
    · cases hrest
      have happend := List.isPrefixOf?_eq_some_iff_append_eq.mp hchars
      rw [← String.toList_inj, String.toList_append]
      simpa using happend.symm
    · contradiction
  · intro hname
    refine ⟨rest.name.toList, ?_, ?_⟩
    · rw [List.isPrefixOf?_eq_some_iff_append_eq, hname, String.toList_append]
    · rw [dif_pos rest.isIdent]
      simp

/-- A value is read as one if its name does not go on as an identifier behind the keyword. -/
theorem ValueOutline.isDeclared_iff (value : ValueOutline) :
    value.isDeclared = true ↔ ∀ rest : Ident, value.name.name ≠ "option" ++ rest.name := by
  rw [isDeclared, Option.isNone_iff_eq_none, Option.eq_none_iff_forall_ne_some]
  exact forall_congr' fun rest => not_congr Ident.optionName?_eq_some_iff

/-- A name at whose front no option is read begins with another word, or no identifier follows. -/
theorem Ident.optionName?_eq_none {ident : Ident} (h : ident.optionName? = none) :
    ¬ "option".toList <+: ident.name.toList ∨ ident.name = "option" ∨
      ∃ c rest, ident.name.toList = "option".toList ++ c :: rest ∧ isSolid c = true ∧
        isIdentStart c = false ∧ c ≠ '(' := by
  rw [or_iff_not_imp_left, not_not]
  rintro ⟨chars, hchars⟩
  cases chars with
  | nil =>
      rw [← String.toList_inj]
      exact Or.inl ((List.append_nil _).symm.trans hchars).symm
  | cons c rest =>
      have hall : ∀ d ∈ c :: rest, isIdentChar d = true := by
        intro d hd
        apply ident.isIdentChar_of_mem
        rw [← hchars]
        exact List.mem_append_right _ hd
      rcases List.forall_mem_cons.mp hall with ⟨hc, hrest⟩
      have hstart : isIdentStart c = false := by
        by_contra hstart
        rw [Bool.not_eq_false] at hstart
        have htext : isIdentText (c :: rest) = true := by
          rw [isIdentText, hstart, Bool.true_and, List.all_eq_true]
          exact hrest
        have hsome : ident.optionName? = some ⟨String.ofList (c :: rest), by
            rw [String.toList_ofList]; exact htext⟩ := by
          rw [optionName?_eq_some_iff, ← String.toList_inj, ← hchars]
          simp
        rw [h] at hsome
        contradiction
      refine Or.inr ⟨c, rest, hchars.symm, isSolid_of_isIdentChar hc, hstart, ?_⟩
      rintro rfl
      contradiction

/-! ## Trees -/

/-- The tree over the number of a value. -/
def numberTree (number : Int32) : Node Rule :=
  branch .enumFieldValue [signedToken number] [leaf .integerValue (signedToken number)]

/-- The tree over a value that is read as one. -/
def ValueOutline.valueTree (value : ValueOutline) : Node Rule :=
  branch .enumField value.tokens [leaf .enumFieldName value.name.token, numberTree value.number]

/-- The tree over a value that is read as an option with a name. -/
def ValueOutline.optionTree (value : ValueOutline) (name : Ident) : Node Rule :=
  branch .optionStatement value.tokens
    [leaf .optionName name.token,
      branch .constant [signedToken value.number]
        [leaf .scalarConstant (signedToken value.number)]]

/-- The tree over a value. -/
def ValueOutline.tree (value : ValueOutline) : Node Rule :=
  branch .enumBody value.tokens [value.name.optionName?.elim value.valueTree value.optionTree]

namespace EnumOutline

variable (outline : EnumOutline)

/-- The tree over the enumeration. -/
def blockTree : Node Rule :=
  branch .enumBlock outline.blockTokens
    (leaf .enumName outline.name.token :: outline.values.map ValueOutline.tree)

/-- The statements of the file, with the trees over them. -/
def statements : List (List Token × Node Rule) :=
  outline.package.toList.map (fun path => (packageTokens (some path), packageTree path)) ++
    [(outline.blockTokens, branch .topLevelDefinition outline.blockTokens [outline.blockTree])]

/-- The tokens of the statements. -/
theorem flatMap_statements :
    outline.statements.flatMap Prod.fst = packageTokens outline.package ++ outline.blockTokens := by
  rw [statements, List.flatMap_append, List.flatMap_map, List.flatMap_singleton]
  cases outline.package with
  | none => rfl
  | some path => simp [packageTokens]

end EnumOutline

/-! ## Reading -/

variable {depth : Nat}

/-- The number of a value is read. -/
theorem reads_number (number : Int32) (back : List Token) :
    Reads 2 (.sub .enumFieldValue) [signedToken number] back [numberTree number] :=
  Reads.sub rfl (Reads.leaf rfl (takes_signedDigits number (endsToken_behind back)))

/-- A number with sign is taken as the value of an option. -/
theorem takes_scalarValue (number : Int32) {rest : List Char} (hrest : EndsToken rest) :
    Takes schemaGrammar (fun _ => 0) depth scalarValue (signedDigits number) rest [] := by
  have hdigits : ∀ magnitude : UInt32, Takes schemaGrammar (fun _ => 0) depth
      (char fun c => isIdentChar c || c = '.').many1 (digitsOf magnitude) rest [] := by
    intro magnitude
    rcases exists_digits magnitude with ⟨c, digits, hchars, hall, -⟩
    have hclass : ∀ d ∈ c :: digits, (isIdentChar d || decide (d = '.')) = true := by
      intro d hd
      simp [isIdentChar, Char.isAlphanum, hall d hd]
    rcases List.forall_mem_cons.mp hclass with ⟨hc, hothers⟩
    rw [hchars]
    exact @Takes.seq _ _ _ _ _ _ [c] digits rest [] [] [] (Takes.char hc _) rfl
      (takes_chars hothers (hrest.head (by decide)))
  unfold signedDigits
  split
  · exact @Takes.seq _ _ _ _ _ _ ['-'] _ rest [] [] []
      (Takes.opt (Takes.alt_left (Takes.word "-" _))) rfl (hdigits _)
  · refine Takes.skip (Takes.opt_none ?_) rfl (hdigits _)
    rcases exists_digits (.ofNat number.toInt.natAbs) with ⟨c, digits, hchars, hall, -⟩
    have hne : ∀ sign : Char, sign.isDigit = false → sign ≠ c := by
      rintro sign hsign rfl
      rw [hall sign List.mem_cons_self] at hsign
      contradiction
    rw [hchars]
    exact Refuses.alt (refuses_word (by simp [List.isPrefixOf, hne '-' (by decide)]))
      (refuses_word (by simp [List.isPrefixOf, hne '+' (by decide)]))

/-- The number of a value is read as the value of an option. -/
theorem reads_constant (number : Int32) (back : List Token) :
    Reads 2 (.sub .constant) [signedToken number] back
      [branch .constant [signedToken number] [leaf .scalarConstant (signedToken number)]] := by
  have hword : ∀ (text : String) (mark : Char), text.toList = [mark] → isIdentChar mark = false →
      mark ≠ '-' → ∀ gaps, Refuses schemaGrammar gaps 0 (word text)
        (joined ([signedToken number] ++ back)) := by
    intro text mark htext hmark hminus gaps
    rcases List.exists_cons_of_ne_nil (signedToken number).nonempty with ⟨c, chars, hchars⟩
    have hne : mark ≠ c := by
      rintro rfl
      have hmem : mark ∈ signedDigits number := by
        have h : signedDigits number = mark :: chars := hchars
        rw [h]
        exact List.mem_cons_self
      rcases isDigit_or_minus_of_mem hmem with rfl | hdigit
      · contradiction
      · simp [isIdentChar, Char.isAlphanum, hdigit] at hmark
    apply refuses_word
    rw [List.singleton_append, joined, hchars, htext]
    simp [List.isPrefixOf, hne]
  have haggregate : Rejects 1 (.sub .aggregate) ([signedToken number] ++ back) :=
    Rejects.sub rfl (Refuses.seq_left (hword "\x7b" '\x7b' rfl (by decide) (by decide) _))
  have hliteral : Rejects 1 (.sub .stringLiteral) ([signedToken number] ++ back) := by
    refine Refuses.sub ?_
    exact Refuses.alt (Refuses.seq_left (hword "\"" '"' rfl (by decide) (by decide) _))
      (Refuses.seq_left (hword "'" '\'' rfl (by decide) (by decide) _))
  have hscalar : Reads 1 (.sub .scalarConstant) [signedToken number] back
      [leaf .scalarConstant (signedToken number)] :=
    Reads.leaf rfl (takes_scalarValue number (endsToken_behind back))
  exact Reads.sub rfl (Reads.alt_right haggregate (List.cons_ne_nil _ _)
    (Reads.alt_right hliteral (List.cons_ne_nil _ _) hscalar))

/-- A value is read as a value where no option and no reserved range is. -/
theorem ValueOutline.reads_enumField (value : ValueOutline) (back : List Token) :
    Reads 3 (.sub .enumField) value.tokens back [value.valueTree] := by
  have hoptions : Rejects 2 (.sub .fieldOptions) (.ofWord ";" :: back) :=
    rejects_token (by decide) back
  have hclose := Reads.opt_none hoptions (List.cons_ne_nil _ _)
    (Reads.word ";" (by decide) (by decide) back)
  exact Reads.sub rfl ((reads_name .enumFieldName rfl value.name _).cons
    ((Reads.word "=" _ _ _).cons ((reads_number value.number _).cons hclose)))

/-- A value is read as an option with the identifier behind the keyword as its name. -/
theorem ValueOutline.reads_optionStatement {value : ValueOutline} {name : Ident}
    (hname : value.name.name = "option" ++ name.name) (back : List Token) :
    Reads 3 (.sub .optionStatement) value.tokens back [value.optionTree name] := by
  have hend : Reads 2 (.chain [word "=", sub .constant, word ";"]) value.endTokens back
      [branch .constant [signedToken value.number]
        [leaf .scalarConstant (signedToken value.number)]] :=
    (Reads.word "=" _ _ _).cons ((reads_constant value.number _).cons
      (Reads.word ";" (by decide) (by decide) back))
  have hgap : gapLength ([' '] ++ (joined value.endTokens ++ behind back)) = 1 := by
    have hne : value.endTokens ≠ [] := List.cons_ne_nil _ _
    rw [← joined_append hne, List.singleton_append, gapLength_blank,
      gapLength_joined]
  have hrest : Takes schemaGrammar gapLength 2
      (.chain [sub .optionName, word "=", sub .constant, word ";"])
      (name.name.toList ++ ([' '] ++ joined value.endTokens)) (behind back) _ :=
    Takes.seq (takes_optionName name _) hgap hend
  have hsolid : gapLength (name.name.toList ++ ([' '] ++ joined value.endTokens) ++ behind back) =
      0 := by
    rcases name.exists_chars with ⟨c, rest, hchars, -, -⟩
    have hc : isSolid c = true := name.isSolid_of_mem (by rw [hchars]; exact List.mem_cons_self)
    rw [hchars]
    exact gapLength_solid hc _
  have hchars : joined value.tokens =
      "option".toList ++ ([] ++ (name.name.toList ++ ([' '] ++ joined value.endTokens))) := by
    have hsplit : joined value.tokens = value.name.name.toList ++ behind value.endTokens := rfl
    rw [hsplit, hname, String.toList_append, List.append_assoc, List.nil_append]
    rfl
  refine Reads.sub rfl ?_
  rw [Reads, hchars]
  -- The keyword has no end of its own, so the rest of the word is read as a name.
  exact Takes.seq (Takes.word "option" _) hsolid hrest

/-- No option is read at a value whose name does not go on as an identifier behind the keyword. -/
theorem ValueOutline.rejects_optionStatement {value : ValueOutline}
    (hname : value.name.optionName? = none) (back : List Token) :
    Rejects 3 (.sub .optionStatement) (value.tokens ++ back) := by
  refine Rejects.sub rfl ?_
  have htoken : joined (value.tokens ++ back) =
      value.name.name.toList ++ behind (value.endTokens ++ back) := rfl
  rcases Ident.optionName?_eq_none hname with
    hfront | hword | ⟨c, rest, hchars, hsolid, hstart, hne⟩
  · rw [Rejects, htoken]
    exact Refuses.seq_left (refuses_word_token (by decide) hfront (endsToken_behind _))
  · have hequals : Rejects 2 (.chain [sub .optionName, word "=", sub .constant, word ";"])
        (value.endTokens ++ back) := rejects_token (by decide) _
    have hbehind : behind (value.endTokens ++ back) = [' '] ++ joined (value.endTokens ++ back) :=
      behind_cons _ _
    rw [Rejects, htoken, hword, hbehind]
    exact Refuses.seq_right (Takes.word "option" _) (gapLength_behind _ _) hequals
  · rw [Rejects, htoken, hchars, List.append_assoc]
    refine @Refuses.seq_right _ _ _ _ _ _ "option".toList _ [] [] (Takes.word "option" _)
      (gapLength_solid hsolid _) (Refuses.seq_left (Refuses.sub (Refuses.seq_left ?_)))
    exact Refuses.alt (Refuses.seq_left (refuses_word (by simp [List.isPrefixOf, Ne.symm hne])))
      (Refuses.seq_left (refuses_char (by simpa using hstart)))

/-- A value is read as a value or as an option, unless its name opens a reserved range. -/
theorem ValueOutline.reads {value : ValueOutline} (hname : value.name.name ≠ "reserved")
    (back : List Token) : Reads 4 (.sub .enumBody) value.tokens back [value.tree] := by
  refine Reads.sub rfl ?_
  cases hoption : value.name.optionName? with
  | some name =>
      exact Takes.alt_left (value.reads_optionStatement (Ident.optionName?_eq_some_iff.mp hoption)
        back)
  | none =>
      have hreserved : Rejects 3 (.sub .reserved) (value.tokens ++ back) := by
        refine Rejects.sub rfl (Refuses.seq_left (Refuses.sub ?_))
        exact refuses_keyword (by decide) hname (endsToken_behind _)
      exact Reads.alt_right (value.rejects_optionStatement hoption back) (List.cons_ne_nil _ _)
        (Reads.alt_right hreserved (List.cons_ne_nil _ _)
          (Takes.alt_left (value.reads_enumField back)))

namespace EnumOutline

variable (outline : EnumOutline)

/-- The enumeration is read as a definition if none of its values opens a reserved range. -/
theorem reads_block (hnames : ∀ value ∈ outline.values, value.name.name ≠ "reserved")
    (back : List Token) :
    Reads 6 (.sub .topLevelDefinition) outline.blockTokens back
      [branch .topLevelDefinition outline.blockTokens [outline.blockTree]] := by
  have hbody := reads_braced outline.values
    (fun value hmem => ValueOutline.reads (hnames value hmem))
    (fun _ _ => List.cons_ne_nil _ _) (by decide) back
  have hblock : Reads 5 (.sub .enumBlock) outline.blockTokens back [outline.blockTree] :=
    Reads.sub rfl ((Reads.word "enum" _ _ _).cons
      ((reads_name .enumName rfl outline.name _).cons hbody))
  exact Reads.sub rfl (Reads.choice_of_refusedAt definitionRules 1 rfl (by decide) hblock)

/-- The first statement tells no dialect: it begins with other words. -/
theorem rejects_syntaxStatement :
    Rejects 2 (.sub .syntaxStatement) (packageTokens outline.package ++ outline.blockTokens) := by
  cases outline.package with
  | none => exact rejects_token (by decide) _
  | some path => exact rejects_token (by decide) _

/-- The text of an enumeration is read as a file with the trees over its values. -/
theorem parse_eq (hnames : ∀ value ∈ outline.values, value.name.name ≠ "reserved") :
    ∃ root, schemaGrammar.parse .proto (joined outline.tokens) = .ok root ∧
      root.bare = fileTree outline.header outline.statements := by
  have hreads : ∀ statement ∈ outline.statements, ∀ back, Reads (statement.1.length + 4)
      (.choice (statementRules.map .sub)) statement.1 back [statement.2] := by
    intro statement hmem back
    rcases List.mem_append.mp hmem with hmem | hmem
    · rcases List.mem_map.mp hmem with ⟨path, -, rfl⟩
      exact reads_packageChoice path back
    · rw [List.mem_singleton.mp hmem]
      have hblock := Reads.choice_of_refusedAt statementRules 3 rfl (by decide)
        (outline.reads_block hnames back)
      exact hblock.mono (by simp [blockTokens, length_braced])
  have htokens : ∀ statement ∈ outline.statements, statement.1 ≠ [] := by
    intro statement hmem
    rcases List.mem_append.mp hmem with hmem | hmem
    · rcases List.mem_map.mp hmem with ⟨path, -, rfl⟩
      exact List.cons_ne_nil _ _
    · rw [List.mem_singleton.mp hmem]
      exact List.cons_ne_nil _ _
  have h := @parse_of_statements _ hreads htokens outline.header
  rw [flatMap_statements] at h
  exact h fun _ => outline.rejects_syntaxStatement

end EnumOutline

/-! ## Declaring -/

/-- The trees over values have in them those that are read as values. -/
theorem flatMap_childrenOf_enumField (values : List ValueOutline) :
    (values.map ValueOutline.tree).flatMap (fun body => body.childrenOf .enumField) =
      (values.filter ValueOutline.isDeclared).map ValueOutline.valueTree := by
  induction values with
  | nil => rfl
  | cons value rest ih =>
      rw [List.map_cons, List.flatMap_cons, ih, ValueOutline.tree, List.filter_cons,
        ValueOutline.isDeclared]
      cases value.name.optionName? <;> rfl

section Plain

variable {origin : Origin} (hplain : origin.Plain)

include hplain

/-- The tree over a value that is read as one declares the value. -/
theorem enumValueOf_tree (scope : String) (value : ValueOutline) :
    enumValueOf origin scope value.valueTree = .ok (value.enumValue scope) := by
  have hname : value.valueTree.childString .enumFieldName = value.name.name :=
    string_ident .enumFieldName value.name
  have hnumber : (value.valueTree.child? .enumFieldValue).elim [] Node.text =
      signedDigits value.number := joined_singleton (signedToken value.number)
  have hlow := value.number.le_toInt
  have hhigh := value.number.toInt_lt
  have hrange : -0x80000000 ≤ value.number.toInt ∧ value.number.toInt ≤ 0x7FFFFFFF := by omega
  simp only [enumValueOf, hname, hnumber, integerValue_signedDigits, if_pos hrange, hplain _]
  rfl

/-- The tree over an enumeration declares the values that are read as values. -/
theorem enumOf_tree (outline : EnumOutline) (scope : String) :
    enumOf origin scope outline.blockTree =
      .ok (outline.enumeration scope (outline.values.filter ValueOutline.isDeclared)) := by
  have hname : outline.blockTree.childString .enumName = outline.name.name :=
    string_ident .enumName outline.name
  have hbodies : outline.blockTree.childrenOf .enumBody =
      outline.values.map ValueOutline.tree :=
    filter_map_tree ValueOutline.tree .enumBody (fun _ => rfl) outline.values
  have hvalues := @mapM_eq_ok_map _ _ _ _ (ValueOutline.enumValue scope)
    (outline.values.filter ValueOutline.isDeclared)
    fun value _ => enumValueOf_tree hplain scope value
  rw [enumOf, hname, hbodies, flatMap_childrenOf_enumField, hplain, List.mapM_map]
  exact bind_eq_ok_iff.mpr ⟨_, hvalues, rfl⟩

end Plain

/-- The text of an enumeration declares the values that are read as values. -/
theorem unlinkedSchema_enumText (outline : EnumOutline)
    (hnames : ∀ value ∈ outline.values, value.name.name ≠ "reserved") :
    unlinkedSchema none outline.text.toList =
      .ok (outline.schemaWith (outline.values.filter ValueOutline.isDeclared)) := by
  have hplain : ∀ c ∈ joined outline.tokens, isPlainText c = true :=
    fun _ => isPlainText_of_mem_joined
  have hrules : ∀ tree ∈ [branch .topLevelDefinition outline.blockTokens [outline.blockTree]],
      tree.rule = .topLevelDefinition := by
    intro tree htree
    rw [List.mem_singleton.mp htree]
    rfl
  have hstatements : outline.statements.map Prod.snd = outline.package.toList.map packageTree ++
      [branch .topLevelDefinition outline.blockTokens [outline.blockTree]] := by
    rw [EnumOutline.statements, List.map_append, List.map_map]
    rfl
  rcases outline.parse_eq hnames with ⟨root, hroot, hbare⟩
  rw [EnumOutline.text, String.toList_ofList]
  unfold unlinkedSchema
  rw [hroot]
  change schemaOf none (joined outline.tokens) root = _
  rw [← schemaOf_bare hplain, hbare, schemaOf_fileTree outline.package hrules _ hstatements]
  let origin : Origin :=
    ⟨joined outline.tokens, outline.header.getD .proto2, packageText outline.package⟩
  have horigin : origin.Plain := fun node => commentsBeside_of_plain hplain node.start node.stop
  have henum := enumOf_tree horigin outline (packageText outline.package)
  refine bind_eq_ok_iff.mpr ⟨_, ?_, rfl⟩
  exact bind_eq_ok_iff.mpr ⟨_, henum, rfl⟩

/-! ## Linking -/

/-- Different names have different full names in a scope. -/
theorem qualify_injective (scope : String) : Function.Injective (qualify scope) := by
  intro first second h
  unfold qualify at h
  split at h
  · exact h
  · simpa using h

/-- A file that declares one enumeration is linked as it is if its names are distinct. -/
theorem linkAlone_enumeration (outline : EnumOutline) {values : List ValueOutline}
    (hdistinct : (outline.name.name :: values.map fun value => value.name.name).Nodup) :
    linkAlone (outline.schemaWith values) = .ok (outline.schemaWith values) := by
  have hsymbols : (outline.schemaWith values).symbols.map Symbol.name =
      (outline.name.name :: values.map fun value => value.name.name).map
        (qualify (packageText outline.package)) := by
    simp [Schema.symbols, EnumOutline.schemaWith, EnumOutline.enumeration, Enumeration.symbols,
      Schema.allMessages, ValueOutline.enumValue, Function.comp_def]
  have htable : symbolTable [outline.schemaWith values] =
      .ok (outline.schemaWith values).symbols := by
    refine symbolTable_eq_ok_iff.mpr ⟨(List.flatMap_singleton _ _).symm, ?_⟩
    rw [hsymbols]
    exact hdistinct.map (qualify_injective _)
  refine bind_eq_ok_iff.mpr ⟨_, htable, ?_⟩
  exact linkSchema_eq_ok_iff.mpr ⟨[], [], linkMessages_nil _, rfl, rfl⟩

/--
The text of an enumeration whose names are distinct declares its values in their order with their
numbers, but for those whose name goes on as an identifier behind the keyword of options.  So all
of them are declared if and only if there is no such name.
-/
theorem schemaOfText_enumText (outline : EnumOutline)
    (hdistinct : (outline.name.name :: outline.values.map fun value => value.name.name).Nodup)
    (hnames : ∀ value ∈ outline.values, value.name.name ≠ "reserved") :
    schemaOfText outline.text =
        .ok (outline.schemaWith (outline.values.filter ValueOutline.isDeclared)) ∧
      (schemaOfText outline.text = .ok (outline.schemaWith outline.values) ↔
        ∀ value ∈ outline.values, ∀ rest : Ident, value.name.name ≠ "option" ++ rest.name) := by
  have hsublist : (outline.values.filter ValueOutline.isDeclared).Sublist outline.values :=
    List.filter_sublist
  have hdeclared : (outline.name.name ::
      (outline.values.filter ValueOutline.isDeclared).map fun value => value.name.name).Nodup :=
    hdistinct.sublist ((hsublist.map _).cons_cons _)
  have htext : schemaOfText outline.text =
      .ok (outline.schemaWith (outline.values.filter ValueOutline.isDeclared)) :=
    bind_eq_ok_iff.mpr
      ⟨_, unlinkedSchema_enumText outline hnames, linkAlone_enumeration outline hdeclared⟩
  refine ⟨htext, ?_⟩
  simp only [← ValueOutline.isDeclared_iff]
  rw [htext, Except.ok.injEq, ← List.filter_eq_self]
  constructor
  · intro heq
    have hvalues := congrArg (fun schema => schema.enums.map fun e => e.values.length) heq
    have hlength : (outline.values.filter ValueOutline.isDeclared).length =
        outline.values.length := by
      simpa [EnumOutline.schemaWith, EnumOutline.enumeration] using hvalues
    exact hsublist.eq_of_length hlength
  · intro heq
    rw [heq]

/-- An enumeration whose values are named like keywords; two of them are read as options. -/
def keywordEnum : EnumOutline where
  header := some .proto3
  package := some ⟨.mk "extensions", [.mk "service"]⟩
  name := .mk "syntax"
  values := [
    ⟨.mk "import", 0⟩, ⟨.mk "options", 1⟩, ⟨.mk "option1", -2147483648⟩,
    ⟨.mk "reserved_", 2147483647⟩, ⟨.mk "option_", -5⟩, ⟨.mk "package", 7⟩]

theorem schemaOfText_keywordEnum :
    (keywordEnum.name.name :: keywordEnum.values.map fun value => value.name.name).Nodup ∧
      (∀ value ∈ keywordEnum.values, value.name.name ≠ "reserved") ∧
      (keywordEnum.values.filter ValueOutline.isDeclared).map
          (fun value => (value.name.name, value.number.toInt)) =
        [("import", 0), ("option1", -2147483648), ("reserved_", 2147483647), ("package", 7)] ∧
      schemaOfText keywordEnum.text =
        .ok (keywordEnum.schemaWith (keywordEnum.values.filter ValueOutline.isDeclared)) :=
  have hdistinct : (keywordEnum.name.name ::
      keywordEnum.values.map fun value => value.name.name).Nodup := by decide +kernel
  have hnames : ∀ value ∈ keywordEnum.values, value.name.name ≠ "reserved" := by decide +kernel
  ⟨hdistinct, hnames, by decide +kernel, (schemaOfText_enumText keywordEnum hdistinct hnames).1⟩

example : ({ name := .mk "E", values := [⟨.mk "option", 0⟩, ⟨.mk "optional", -12⟩] } :
    EnumOutline).text = "enum E \x7b option = 0 ; optional = -12 ; \x7d" := by decide +kernel

end Source
end ElmBinding
