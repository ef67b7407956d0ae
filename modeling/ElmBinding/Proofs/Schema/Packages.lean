import ElmBinding.Proofs.Schema.Clashes
import ElmBinding.Proofs.Schema.Targets
import ElmBinding.Schema.Merge
import Mathlib.Data.List.Pairwise
import Mathlib.Data.List.Perm.Basic

/-!
# Schemas of one package

The schemas of a package are merged into one, and the merged schemas together declare what the
schemas declare.  A property of schemas that holds of two schemas of a package together if it
holds of each of them holds of merged schemas.  Linking several schemas gives every reference the
package of the schema that declares its type, and merging keeps packages apart.

Main results:

- Theorem {lit}`forall_mergePackages`: what holds of schemas holds of merged schemas.
- Theorem {lit}`flatMap_mergePackages_perm`: merged schemas have what the schemas have.
- Theorem {lit}`symbols_mergePackages_perm`: merged schemas have the symbols of the schemas.
- Definition {lit}`Schema.LinkedIn`: schemas whose references are to symbols of a table.
- Theorem {lit}`LinkedTogether.package_eq`: references know the package of their type.
-/

namespace ElmBinding

variable {table : List Symbol} {schemas : List Schema} {schema other merged home : Schema}

/-! ## Schemas side by side -/

/-- The messages of a schema with another one behind it. -/
theorem Schema.allMessages_extend (schema other : Schema) :
    (schema.extend other).allMessages = schema.allMessages ++ other.allMessages :=
  families_append schema.messages other.messages

/-- Schemas of one package have their symbols together. -/
theorem Schema.symbols_extend_perm (h : schema.packageName = other.packageName) :
    (schema.extend other).symbols.Perm (schema.symbols ++ other.symbols) := by
  have hpackage : (schema.extend other).packageName = schema.packageName := rfl
  have henums : (schema.extend other).enums = schema.enums ++ other.enums := rfl
  have hservices : (schema.extend other).services = schema.services ++ other.services := rfl
  unfold symbols
  rw [hpackage, henums, hservices, allMessages_extend, ← h]
  simp only [List.flatMap_append, List.map_append]
  apply List.perm_iff_count.mpr
  intro symbol
  simp only [List.count_append]
  omega

/-! ## Merged schemas -/

/-- Schemas that are merged have the same package name. -/
theorem Schema.packageName_eq_of_samePackage (h : schema.samePackage other = true) :
    schema.packageName = other.packageName := by
  unfold samePackage at h
  rw [Bool.and_eq_true] at h
  exact of_decide_eq_true h.2

section

variable {holds : Schema → Prop}
  (hextend : ∀ {schema other : Schema}, schema.packageName = other.packageName → holds schema →
    holds other → holds (schema.extend other))
include hextend

/-- What holds of merged schemas and of one more schema holds when that is merged into them. -/
theorem forall_mergeInto (hall : ∀ schema ∈ schemas, holds schema) (hother : holds other) :
    ∀ merged ∈ mergeInto schemas other, holds merged := by
  induction schemas with
  | nil => simpa [mergeInto] using hother
  | cons schema rest ih =>
      rcases List.forall_mem_cons.mp hall with ⟨hschema, hrest⟩
      rw [mergeInto]
      split
      · rename_i hsame
        rw [List.forall_mem_cons]
        have hpackage := Schema.packageName_eq_of_samePackage hsame
        exact ⟨hextend hpackage hschema hother, hrest⟩
      · rw [List.forall_mem_cons]
        exact ⟨hschema, ih hrest⟩

/-- What holds of schemas, and of two of one package together, holds of merged schemas. -/
theorem forall_mergePackages (hall : ∀ schema ∈ schemas, holds schema) :
    ∀ merged ∈ mergePackages schemas, holds merged := by
  unfold mergePackages
  have hstart : ∀ merged ∈ ([] : List Schema), holds merged := by simp
  revert hstart
  generalize ([] : List Schema) = begun
  intro hbegun
  induction schemas generalizing begun with
  | nil => exact hbegun
  | cons schema rest ih =>
      rcases List.forall_mem_cons.mp hall with ⟨hschema, hrest⟩
      exact ih hrest _ (forall_mergeInto hextend hbegun hschema)

end

section

variable {α : Type} {part : Schema → List α}
  (hpart : ∀ {schema other : Schema}, schema.samePackage other = true →
    (part (schema.extend other)).Perm (part schema ++ part other))
include hpart

/-- A part of schemas, and that of one more schema that is merged into them. -/
theorem flatMap_mergeInto_perm (schemas : List Schema) (other : Schema) :
    ((mergeInto schemas other).flatMap part).Perm (schemas.flatMap part ++ part other) := by
  induction schemas with
  | nil => simp [mergeInto]
  | cons schema rest ih =>
      rw [mergeInto]
      split
      · rename_i hsame
        rw [List.flatMap_cons, List.flatMap_cons, List.append_assoc]
        apply ((hpart hsame).append_right _).trans
        rw [List.append_assoc]
        exact List.perm_append_comm.append_left _
      · rw [List.flatMap_cons, List.flatMap_cons, List.append_assoc]
        exact ih.append_left (part schema)

/-- Merged schemas have together what the schemas have, if two that are merged do. -/
theorem flatMap_mergePackages_perm (schemas : List Schema) :
    ((mergePackages schemas).flatMap part).Perm (schemas.flatMap part) := by
  have hfold : ∀ begun : List Schema, ((schemas.foldl mergeInto begun).flatMap part).Perm
      (begun.flatMap part ++ schemas.flatMap part) := by
    induction schemas with
    | nil => simp
    | cons schema rest ih =>
        intro begun
        rw [List.foldl_cons, List.flatMap_cons, ← List.append_assoc]
        exact (ih _).trans ((flatMap_mergeInto_perm hpart begun schema).append_right _)
  exact hfold []

end

/-- Merged schemas have the symbols of the schemas. -/
theorem symbols_mergePackages_perm (schemas : List Schema) :
    ((mergePackages schemas).flatMap Schema.symbols).Perm (schemas.flatMap Schema.symbols) := by
  apply flatMap_mergePackages_perm
  intro schema other hsame
  exact Schema.symbols_extend_perm (Schema.packageName_eq_of_samePackage hsame)

/-! ## Schemas linked together -/

/-- A schema stays linked in a table with more symbols. -/
theorem Schema.LinkedIn.mono {larger : List Symbol} (h : schema.LinkedIn table)
    (hsubset : table ⊆ larger) : schema.LinkedIn larger := by
  have hin : ∀ {reference : Reference}, reference.IsIn table → reference.IsIn larger := by
    rintro reference ⟨symbol, hmem, hsymbol⟩
    exact ⟨symbol, hsubset hmem, hsymbol⟩
  constructor
  · intro message hmessage field hfield target htarget
    exact hin (h.fields message hmessage field hfield target htarget)
  · intro service hservice method hmethod
    rcases h.methods service hservice method hmethod with ⟨hinput, houtput⟩
    exact ⟨hin hinput, hin houtput⟩

/-- Two schemas that are linked in a table are linked there together. -/
theorem Schema.LinkedIn.extend (h : schema.LinkedIn table) (hother : other.LinkedIn table) :
    (schema.extend other).LinkedIn table where
  fields := by
    rw [allMessages_extend, List.forall_mem_append]
    exact ⟨h.fields, hother.fields⟩
  methods := by
    have hservices : (schema.extend other).services = schema.services ++ other.services := rfl
    rw [hservices, List.forall_mem_append]
    exact ⟨h.methods, hother.methods⟩

/-- Schemas with distinct symbols that refer to types of one another only. -/
structure LinkedTogether (schemas : List Schema) : Prop where
  distinct : ((schemas.flatMap Schema.symbols).map Symbol.name).Nodup
  linked : ∀ schema ∈ schemas, schema.LinkedIn (schemas.flatMap Schema.symbols)

/-- Schemas that are linked are linked together. -/
theorem linkedTogether_of_link {unlinked : List Schema} (h : link unlinked = .ok schemas) :
    LinkedTogether schemas := by
  rcases bind_eq_ok_iff.mp h with ⟨table, htable, hlinked⟩
  have hmade := forall₂_of_mapM hlinked
  rcases symbolTable_eq_ok_iff.mp htable with ⟨hsymbols, hdistinct⟩
  have hsame : schemas.flatMap Schema.symbols = unlinked.flatMap Schema.symbols := by
    clear h htable hlinked hsymbols
    induction hmade with
    | nil => rfl
    | cons hfirst _ ih => rw [List.flatMap_cons, List.flatMap_cons, symbols_linkSchema hfirst, ih]
  rw [← hsame] at hsymbols
  subst hsymbols
  refine ⟨hdistinct, ?_⟩
  intro schema hschema
  rcases exists_of_forall₂_of_mem hmade hschema with ⟨_, -, hlink⟩
  exact linkedIn_of_linkSchema hlink

namespace LinkedTogether

/-- Schemas that are linked together stay so when those of a package are merged. -/
theorem merge (h : LinkedTogether schemas) : LinkedTogether (mergePackages schemas) := by
  have hsymbols := symbols_mergePackages_perm schemas
  refine ⟨(hsymbols.map Symbol.name).nodup_iff.mpr h.distinct, ?_⟩
  intro merged hmerged
  have hlinked := forall_mergePackages (fun _ => Schema.LinkedIn.extend) h.linked merged hmerged
  exact hlinked.mono hsymbols.symm.subset

/-- What two of the schemas declare under one name makes them the same schema. -/
theorem eq_of_symbolNames (h : LinkedTogether schemas) (hschema : schema ∈ schemas)
    (hother : other ∈ schemas) {name : String} (hname : name ∈ schema.symbolNames)
    (hotherName : name ∈ other.symbolNames) : schema = other := by
  have hdistinct := h.distinct
  rw [List.map_flatMap, List.nodup_flatMap] at hdistinct
  by_contra hne
  have hsymm : Std.Symm
      (Function.onFun List.Disjoint fun schema : Schema => schema.symbols.map Symbol.name) :=
    ⟨fun _ _ hdisjoint name hname hother => hdisjoint hother hname⟩
  exact hdistinct.2.forall hschema hother hne hname hotherName

end LinkedTogether

/-- A declared type has a symbol in the package of the schema. -/
theorem Schema.exists_symbol_of_declaresType {fullName : String}
    (h : schema.DeclaresType fullName) :
    ∃ symbol ∈ schema.symbols, symbol.name = fullName ∧ symbol.package = schema.packageName := by
  unfold symbols
  rcases h with ⟨enumeration, hmem, rfl⟩ | ⟨message, hmem, rfl⟩
  · refine ⟨⟨enumeration.fullName, .enumeration, schema.packageName⟩, ?_, rfl, rfl⟩
    apply List.mem_append_left
    rcases List.mem_append.mp hmem with htop | hinner
    · apply List.mem_append_left
      exact List.mem_flatMap.mpr ⟨enumeration, htop, List.mem_cons_self⟩
    · rcases List.mem_flatMap.mp hinner with ⟨message, hmessage, hinner⟩
      apply List.mem_append_right
      refine List.mem_flatMap.mpr ⟨message, hmessage, List.mem_cons_of_mem _ ?_⟩
      exact List.mem_flatMap.mpr ⟨enumeration, hinner, List.mem_cons_self⟩
  · refine ⟨⟨message.fullName, .message, schema.packageName⟩, ?_, rfl, rfl⟩
    apply List.mem_append_left
    apply List.mem_append_right
    exact List.mem_flatMap.mpr ⟨message, hmem, List.mem_cons_self⟩

/-- A reference knows the package of the schema that declares its type. -/
theorem LinkedTogether.package_eq (h : LinkedTogether schemas) (hhome : home ∈ schemas)
    {target : Reference} (htarget : target.IsIn (schemas.flatMap Schema.symbols))
    (hdeclared : home.DeclaresType target.fullName) : target.package = home.packageName := by
  rcases htarget with ⟨symbol, hmem, -, rfl⟩
  rcases Schema.exists_symbol_of_declaresType hdeclared with ⟨declared, hdeclared, hname, hpackage⟩
  have hdeclaredMem : declared ∈ schemas.flatMap Schema.symbols :=
    List.mem_flatMap.mpr ⟨home, hhome, hdeclared⟩
  have hsame : declared = symbol :=
    List.inj_on_of_nodup_map h.distinct hdeclaredMem hmem hname
  rw [← hpackage, hsame]
  rfl

end ElmBinding
