import ElmBinding.Proofs.Schema.Linking
import ElmBinding.Proofs.Sequence.Pairing
import ElmBinding.Proofs.Sequence.Sorting
import ElmBinding.Schema.Merge

/-!
# Schemas in another order

Schemas that are linked together share their symbols.  As no two symbols share a name, what a
name means does not depend on the order of the schemas, and neither does what linking makes of
each of them.  Merging gathers the schemas of each package.  What it makes of one package does
not depend on the schemas of others.

Main results:

- Theorem {lit}`link_of_perm`: schemas in another order have the same linked contents.
- Definition {lit}`Schema.subject`: what a schema is merged by.
- Theorem {lit}`mergePackages_filter`: schemas with other subjects may be left out.
- Theorems {lit}`mergePackages_eq_self_of_pairwise` and {lit}`mergePackages_eq_singleton`: what
  files of different packages and the files of one package become.
-/

namespace ElmBinding

/-! ## Linking -/

section

variable {table table' : List Symbol} (hperm : table.Perm table')
  (hdistinct : (table.map Symbol.name).Nodup)
include hperm hdistinct

/-- A name means the same in a table of the same symbols. -/
theorem lookupType?_eq_of_perm : lookupType? table' = lookupType? table := by
  have hfind : findSymbol? table' = findSymbol? table := by
    funext fullName
    exact (Sequence.find?_eq_of_perm hperm hdistinct fullName).symm
  funext scope name
  unfold lookupType? lookup? searchOutward?
  rw [hfind]

/-- A reference is linked to the same type in a table of the same symbols. -/
theorem linkReference_eq_of_perm : linkReference table' = linkReference table := by
  funext scope reference
  unfold linkReference
  rw [lookupType?_eq_of_perm hperm hdistinct]

/-- A field is linked to the same type in a table of the same symbols. -/
theorem linkField_eq_of_perm : linkField table' = linkField table := by
  funext scope field
  unfold linkField
  cases field.kind <;> simp only [linkKind, linkReference_eq_of_perm hperm hdistinct]

/-- Messages are linked alike in a table of the same symbols. -/
theorem linkMessages_eq_of_perm (messages : List Message) :
    linkMessages table' messages = linkMessages table messages := by
  induction messages using forest_induction with
  | nil => rw [linkMessages_nil, linkMessages_nil]
  | cons message rest hinner hrest =>
      rcases message with ⟨name, fullName, fields, oneofs, messages, enums, mapEntry, comments⟩
      simp only [linkMessages, linkMessage, linkField_eq_of_perm hperm hdistinct, hrest]
      rw [hinner]

/-- A schema is linked alike in a table of the same symbols. -/
theorem linkSchema_eq_of_perm : linkSchema table' = linkSchema table := by
  have hmethod : linkMethod table' = linkMethod table := by
    funext package method
    unfold linkMethod
    rw [linkReference_eq_of_perm hperm hdistinct]
  have hservice : linkService table' = linkService table := by
    funext package service
    unfold linkService
    rw [hmethod]
  funext schema
  unfold linkSchema
  rw [linkMessages_eq_of_perm hperm hdistinct, hservice]

end

/--
If schemas can be linked, so can they in any other order, and what becomes of each of them does
not depend on the order.
-/
theorem link_of_perm {schemas others linked : List Schema} (hperm : schemas.Perm others)
    (h : link schemas = .ok linked) :
    ∃ content : Schema → Schema, linked = schemas.map content ∧
      link others = .ok (others.map content) := by
  rcases bind_eq_ok_iff.mp h with ⟨table, htable, hlinked⟩
  rcases symbolTable_eq_ok_iff.mp htable with ⟨rfl, hdistinct⟩
  have hsymbols := hperm.flatMap_right Schema.symbols
  have htable' : symbolTable others = .ok (others.flatMap Schema.symbols) :=
    symbolTable_eq_ok_iff.mpr ⟨rfl, (hsymbols.map Symbol.name).nodup_iff.mp hdistinct⟩
  let content : Schema → Schema := fun schema =>
    ((linkSchema (schemas.flatMap Schema.symbols) schema).toOption).getD schema
  have hcontent : ∀ schema ∈ schemas,
      linkSchema (schemas.flatMap Schema.symbols) schema = .ok (content schema) := by
    intro schema hschema
    rcases exists_of_forall₂_of_mem (forall₂_of_mapM hlinked).flip hschema with ⟨made, -, hmade⟩
    have hlink : linkSchema (schemas.flatMap Schema.symbols) schema = .ok made := hmade
    simp only [content, hlink, Except.toOption, Option.getD_some]
  refine ⟨content, ?_, ?_⟩
  · rw [mapM_eq_ok_map hcontent] at hlinked
    exact (Except.ok.inj hlinked).symm
  · unfold link
    rw [htable']
    refine mapM_eq_ok_map ?_
    intro schema hschema
    rw [linkSchema_eq_of_perm hsymbols hdistinct]
    exact hcontent schema (hperm.mem_iff.mpr hschema)

/-! ## Merging -/

/-- What schemas are merged by: their package, or nothing for files without one. -/
inductive Subject where
  /-- All files of a package. -/
  | package (name : String)
  /-- A file without a package. -/
  | file (schema : Schema)

/-- What a schema is merged by. -/
def Schema.subject (schema : Schema) : Subject :=
  if schema.packageName = "" then .file schema else .package schema.packageName

namespace Schema

variable {schema other : Schema} {name : String}

/-- Schemas that are merged have one subject. -/
theorem subject_eq_of_samePackage (h : schema.samePackage other = true) :
    schema.subject = other.subject := by
  simp only [samePackage, Bool.and_eq_true, decide_eq_true_eq, ne_eq] at h
  unfold subject
  rw [← h.2, if_neg h.1, if_neg h.1]

/-- The subject of merged schemas is that of each of them. -/
theorem subject_extend (h : schema.samePackage other = true) :
    (schema.extend other).subject = schema.subject := by
  simp only [samePackage, Bool.and_eq_true, decide_eq_true_eq, ne_eq] at h
  have hpackage : (schema.extend other).packageName = schema.packageName := rfl
  unfold subject
  rw [hpackage, if_neg h.1, if_neg h.1]

/-- A schema has a package as its subject exactly if it belongs to the package. -/
theorem subject_eq_package_iff :
    schema.subject = .package name ↔ schema.packageName = name ∧ name ≠ "" := by
  unfold subject
  split
  · rename_i hnone
    simp only [hnone, reduceCtorEq, false_iff, not_and, not_not]
    exact Eq.symm
  · rename_i hsome
    simp only [Subject.package.injEq]
    constructor
    · rintro rfl
      exact ⟨rfl, hsome⟩
    · exact And.left

/-- A schema has a file as its subject exactly if it is that file and belongs to no package. -/
theorem subject_eq_file_iff : schema.subject = .file other ↔
    schema = other ∧ schema.packageName = "" := by
  unfold subject
  split
  · rename_i hnone
    simp [hnone]
  · rename_i hsome
    simp [hsome]

/-- A schema with the declarations of several others behind its own. -/
def extendAll (schema : Schema) (others : List Schema) : Schema :=
  others.foldl extend schema

/-- The declarations of several schemas, one after the other. -/
theorem extendAll_eq (schema : Schema) (others : List Schema) :
    schema.extendAll others = { schema with
      messages := (schema :: others).flatMap messages
      enums := (schema :: others).flatMap enums
      services := (schema :: others).flatMap services } := by
  induction others generalizing schema with
  | nil => simp [extendAll]
  | cons other rest ih =>
      have hcons : schema.extendAll (other :: rest) = (schema.extend other).extendAll rest := rfl
      rw [hcons, ih]
      simp [extend, List.append_assoc]

@[simp] theorem packageName_extendAll (schema : Schema) (others : List Schema) :
    (schema.extendAll others).packageName = schema.packageName := by
  rw [extendAll_eq]
  rfl

theorem messages_extendAll (schema : Schema) (others : List Schema) :
    (schema.extendAll others).messages = (schema :: others).flatMap messages := by
  rw [extendAll_eq]

theorem enums_extendAll (schema : Schema) (others : List Schema) :
    (schema.extendAll others).enums = (schema :: others).flatMap enums := by
  rw [extendAll_eq]

theorem services_extendAll (schema : Schema) (others : List Schema) :
    (schema.extendAll others).services = (schema :: others).flatMap services := by
  rw [extendAll_eq]

end Schema

variable {schemas : List Schema} {schema : Schema}

/-- A schema can be left out from merging before or after it. -/
theorem filter_mergeInto (keep : Subject → Bool) (schemas : List Schema) (other : Schema) :
    (mergeInto schemas other).filter (fun schema => keep schema.subject) =
      if keep other.subject then
        mergeInto (schemas.filter fun schema => keep schema.subject) other
      else
        schemas.filter fun schema => keep schema.subject := by
  induction schemas with
  | nil => simp [mergeInto, List.filter_cons]
  | cons schema rest ih =>
      rw [mergeInto]
      split
      · rename_i hsame
        simp only [List.filter_cons, Schema.subject_extend hsame,
          Schema.subject_eq_of_samePackage hsame]
        split
        · rw [mergeInto, if_pos hsame]
        · rfl
      · rename_i hother
        simp only [List.filter_cons, ih]
        cases keep schema.subject with
        | true => cases keep other.subject <;> simp [mergeInto, hother]
        | false => rfl

/-- Merging schemas with some subjects only is merging all and leaving out the others. -/
theorem mergePackages_filter (keep : Subject → Bool) (schemas : List Schema) :
    mergePackages (schemas.filter fun schema => keep schema.subject) =
      (mergePackages schemas).filter fun schema => keep schema.subject := by
  have hfold : ∀ begun : List Schema,
      (schemas.filter fun schema => keep schema.subject).foldl mergeInto
          (begun.filter fun schema => keep schema.subject) =
        (schemas.foldl mergeInto begun).filter fun schema => keep schema.subject := by
    induction schemas with
    | nil => exact fun begun => rfl
    | cons schema rest ih =>
        intro begun
        rw [List.foldl_cons, ← ih, filter_mergeInto, List.filter_cons]
        split
        · rw [List.foldl_cons]
        · rfl
  exact hfold []

/-- A schema that is merged with no other one gets a place behind them. -/
theorem mergeInto_of_apart {other : Schema}
    (h : ∀ schema ∈ schemas, schema.samePackage other = false) :
    mergeInto schemas other = schemas ++ [other] := by
  induction schemas with
  | nil => rfl
  | cons schema rest ih =>
      rcases List.forall_mem_cons.mp h with ⟨hschema, hrest⟩
      rw [mergeInto, hschema, if_neg Bool.false_ne_true, ih hrest, List.cons_append]

/-- Schemas stay as they are if no two of them belong to one package. -/
theorem mergePackages_eq_self_of_pairwise
    (h : schemas.Pairwise fun first second => first.samePackage second = false) :
    mergePackages schemas = schemas := by
  have hfold : ∀ begun : List Schema,
      (begun ++ schemas).Pairwise (fun first second => first.samePackage second = false) →
        schemas.foldl mergeInto begun = begun ++ schemas := by
    clear h
    induction schemas with
    | nil => simp
    | cons schema rest ih =>
        intro begun hall
        have hapart := (List.pairwise_append.mp hall).2.2
        have hnext : begun ++ schema :: rest = (begun ++ [schema]) ++ rest := by simp
        have hfirst : mergeInto begun schema = begun ++ [schema] :=
          mergeInto_of_apart fun earlier hearlier =>
            hapart earlier hearlier schema List.mem_cons_self
        rw [List.foldl_cons, hfirst, hnext]
        rw [hnext] at hall
        exact ih (begun ++ [schema]) hall
  exact hfold [] h

/-- Files without a package stay as they are. -/
theorem mergePackages_eq_self (h : ∀ schema ∈ schemas, schema.packageName = "") :
    mergePackages schemas = schemas := by
  apply mergePackages_eq_self_of_pairwise
  apply List.pairwise_of_forall_mem_list
  intro first hfirst second _
  simp [Schema.samePackage, h first hfirst]

/-- The files of one package become one schema. -/
theorem mergePackages_eq_singleton {name : String} (hname : name ≠ "")
    (h : ∀ other ∈ schema :: schemas, other.packageName = name) :
    mergePackages (schema :: schemas) = [schema.extendAll schemas] := by
  have hfold : schemas.foldl mergeInto [schema] = [schema.extendAll schemas] := by
    induction schemas generalizing schema with
    | nil => rfl
    | cons other rest ih =>
        simp only [List.forall_mem_cons] at h
        rcases h with ⟨hschema, hother, hrest⟩
        have hsame : schema.samePackage other = true := by
          simp [Schema.samePackage, hschema, hother, hname]
        have hpackage : (schema.extend other).packageName = name := hschema
        rw [List.foldl_cons, mergeInto, if_pos hsame]
        exact ih (List.forall_mem_cons.mpr ⟨hpackage, hrest⟩)
  exact hfold

end ElmBinding
