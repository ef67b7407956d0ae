import ElmBinding.Proofs.Schema.Order
import ElmBinding.Proofs.Schema.Packages
import Mathlib.Data.List.Induction

/-!
# What merging makes of schemas

Merging walks through schemas and keeps a list of entries.  A schema without a package, or with
a package that has not occurred before, opens an entry; any other schema goes into the entry of
its package.  In the end every package has one entry, at the place of its first schema, with the
declarations of all its schemas in their order.

Main results:

- Definition {lit}`openers`: the schemas that open an entry.
- Definition {lit}`Schema.gathered`: what an entry holds in the end.
- Theorem {lit}`mergePackages_eq`: the entries, in closed form.
- Theorem {lit}`flatMap_held_mergePackages_perm`: merging keeps what the schemas declare.
- Theorem {lit}`mergePackages_mergePackages`: merging merged schemas changes nothing.
- Theorem {lit}`merges_mergePackages`: packages, places and contents of the entries.
-/

namespace ElmBinding

variable {α : Type} {schemas : List Schema} {schema other : Schema}

/-! ## Entries -/

namespace Schema

/-- Whether a schema has no package, or one that none of the schemas before it has. -/
def opens (schema : Schema) (earlier : List Schema) : Bool :=
  schema.packageName = "" || earlier.all fun other => other.packageName ≠ schema.packageName

/-- A schema with the declarations of all schemas of its package; one without a package alone. -/
def gathered (schemas : List Schema) (schema : Schema) : Schema :=
  if schema.packageName = "" then
    schema
  else
    let files := schemas.filter fun other => other.packageName = schema.packageName
    { schema with
      messages := files.flatMap messages
      enums := files.flatMap enums
      services := files.flatMap services }

/-- Some of the declarations of a schema, each with what the schema is merged by. -/
def held (part : Schema → List α) (schema : Schema) : List (Subject × α) :=
  (part schema).map fun item => (schema.subject, item)

/-- A schema of a package opens an entry behind schemas of other packages only. -/
theorem opens_iff (schema : Schema) (earlier : List Schema) : schema.opens earlier = true ↔
    schema.packageName = "" ∨ schema.packageName ∉ earlier.map packageName := by
  simp [opens]

/-- Schemas are merged if they have one package. -/
theorem samePackage_iff : schema.samePackage other = true ↔
    schema.packageName ≠ "" ∧ schema.packageName = other.packageName := by
  simp [samePackage]

/-- A schema that opens an entry behind others is merged into none of them. -/
theorem samePackage_of_opens (hopens : other.opens schemas = true) (hschema : schema ∈ schemas) :
    schema.samePackage other = false := by
  rw [Bool.eq_false_iff, ne_eq, samePackage_iff]
  rintro ⟨hsome, hsame⟩
  rw [hsame] at hsome
  have hnew := ((opens_iff other schemas).mp hopens).resolve_left hsome
  exact hnew (List.mem_map.mpr ⟨schema, hschema, hsame⟩)

/-- An entry belongs to the package of the schema that opens it. -/
@[simp] theorem packageName_gathered (schemas : List Schema) (schema : Schema) :
    (schema.gathered schemas).packageName = schema.packageName := by
  unfold gathered
  split <;> rfl

/-- An entry takes in the schemas that the schema that opens it is merged with. -/
@[simp] theorem samePackage_gathered (schemas : List Schema) (schema other : Schema) :
    (schema.gathered schemas).samePackage other = schema.samePackage other := by
  simp [samePackage]

/-- One more schema goes into the entry of its package and leaves the others alone. -/
theorem gathered_concat (schemas : List Schema) (schema other : Schema) :
    schema.gathered (schemas ++ [other]) =
      if schema.samePackage other then
        (schema.gathered schemas).extend other
      else
        schema.gathered schemas := by
  unfold gathered
  by_cases hnone : schema.packageName = ""
  · simp [samePackage, hnone]
  · by_cases hpackage : schema.packageName = other.packageName
    · have hsome : other.packageName ≠ "" := hpackage ▸ hnone
      simp [samePackage, extend, hsome, hpackage]
    · simp [samePackage, hnone, hpackage, Ne.symm hpackage]

/-- A schema that opens an entry behind others is that entry, for now. -/
theorem gathered_of_opens (hopens : other.opens schemas = true) :
    other.gathered (schemas ++ [other]) = other := by
  unfold gathered
  by_cases hnone : other.packageName = ""
  · rw [if_pos hnone]
  · have hnew := ((opens_iff other schemas).mp hopens).resolve_left hnone
    have halone : (schemas.filter fun schema => schema.packageName = other.packageName) = [] := by
      rw [List.filter_eq_nil_iff]
      intro schema hschema
      rw [decide_eq_true_eq]
      exact fun hsame => hnew (List.mem_map.mpr ⟨schema, hschema, hsame⟩)
    simp [hnone, halone]

end Schema

/-! ## Openers -/

/-- The schemas without a package, and the first schema of every package, in their order. -/
def openers (schemas : List Schema) : List Schema :=
  (schemas.zipIdx.filter fun entry => entry.1.opens (schemas.take entry.2)).map Prod.fst

/-- One more schema is an opener if it opens an entry behind the others. -/
theorem openers_concat (schemas : List Schema) (other : Schema) :
    openers (schemas ++ [other]) =
      openers schemas ++ if other.opens schemas then [other] else [] := by
  have hfront : (schemas.zipIdx.filter fun entry =>
      entry.1.opens ((schemas ++ [other]).take entry.2)) =
      schemas.zipIdx.filter fun entry => entry.1.opens (schemas.take entry.2) := by
    apply List.filter_congr
    intro entry hentry
    have hplace := (List.mem_zipIdx' hentry).1
    rw [List.take_append_of_le_length (Nat.le_of_lt hplace)]
  unfold openers
  rw [List.zipIdx_append, List.filter_append, hfront, List.map_append]
  cases hopens : other.opens schemas <;> simp [hopens]

/-- An opener is one of the schemas. -/
theorem mem_of_mem_openers (h : schema ∈ openers schemas) : schema ∈ schemas := by
  rcases List.mem_map.mp h with ⟨entry, hentry, rfl⟩
  exact List.fst_mem_of_mem_zipIdx (List.mem_filter.mp hentry).1

/-- A package has one opener if it has schemas, and none otherwise. -/
theorem count_openers (schemas : List Schema) {package : String} (hpackage : package ≠ "") :
    ((openers schemas).map Schema.packageName).count package =
      if package ∈ schemas.map Schema.packageName then 1 else 0 := by
  induction schemas using List.reverseRecOn with
  | nil => rfl
  | append_singleton schemas other ih =>
      rw [openers_concat, List.map_append, List.count_append, ih]
      by_cases hsame : other.packageName = package
      · subst hsame
        by_cases hknown : other.packageName ∈ schemas.map Schema.packageName
        · have hopens : other.opens schemas = false := by
            rw [Bool.eq_false_iff, ne_eq, Schema.opens_iff, not_or, not_not]
            exact ⟨hpackage, hknown⟩
          simp [hopens, hknown]
        · have hopens : other.opens schemas = true :=
            (Schema.opens_iff other schemas).mpr (Or.inr hknown)
          simp [hopens, hknown]
      · have hcount : ((if other.opens schemas then [other] else []).map
            Schema.packageName).count package = 0 := by
          split <;> simp [hsame]
        simp [hcount, Ne.symm hsame]

/-- A schema with a package belongs to the package of an opener. -/
theorem exists_opener (hschema : schema ∈ schemas) (hsome : schema.packageName ≠ "") :
    ∃ opener ∈ openers schemas, opener.packageName = schema.packageName := by
  have hcount := count_openers schemas hsome
  rw [if_pos (List.mem_map_of_mem hschema)] at hcount
  exact List.mem_map.mp (List.count_pos_iff.mp (by omega))

/-- A schema that opens no entry belongs to the package of an opener before it. -/
theorem exists_samePackage_of_not_opens (hclosed : other.opens schemas = false) :
    ∃ opener ∈ openers schemas, opener.samePackage other = true := by
  rw [Bool.eq_false_iff, ne_eq, Schema.opens_iff, not_or, not_not] at hclosed
  rcases hclosed with ⟨hsome, hknown⟩
  rcases List.mem_map.mp hknown with ⟨schema, hschema, hsame⟩
  rcases exists_opener hschema (hsame ▸ hsome) with ⟨opener, hopener, hpackage⟩
  have hother : opener.packageName = other.packageName := hpackage.trans hsame
  exact ⟨opener, hopener, Schema.samePackage_iff.mpr ⟨hother ▸ hsome, hother⟩⟩

/-- No two openers belong to one package. -/
theorem pairwise_openers (schemas : List Schema) :
    (openers schemas).Pairwise fun first second => first.samePackage second = false := by
  induction schemas using List.reverseRecOn with
  | nil => exact List.Pairwise.nil
  | append_singleton schemas other ih =>
      rw [openers_concat]
      split
      · rename_i hopens
        refine List.pairwise_append.mpr ⟨ih, List.pairwise_singleton _ other, ?_⟩
        intro opener hopener last hlast
        obtain rfl := List.mem_singleton.mp hlast
        exact Schema.samePackage_of_opens hopens (mem_of_mem_openers hopener)
      · simpa using ih

/-! ## Entries in closed form -/

/-- If no two entries belong to one package, the entry of its package takes in a schema. -/
theorem mergeInto_of_pairwise
    (hapart : schemas.Pairwise fun first second => first.samePackage second = false)
    (hsome : ∃ schema ∈ schemas, schema.samePackage other = true) :
    mergeInto schemas other =
      schemas.map fun schema =>
        if schema.samePackage other then schema.extend other else schema := by
  induction schemas with
  | nil =>
      rcases hsome with ⟨schema, hschema, -⟩
      contradiction
  | cons schema rest ih =>
      rcases List.pairwise_cons.mp hapart with ⟨hfirst, hrest⟩
      rw [mergeInto, List.map_cons]
      by_cases hsame : schema.samePackage other = true
      · have hothers : ∀ entry ∈ rest, (if entry.samePackage other then entry.extend other
            else entry) = entry := by
          intro entry hentry
          have hother : entry.samePackage other = false := by
            rw [Bool.eq_false_iff, ne_eq, Schema.samePackage_iff]
            rintro ⟨-, hentryPackage⟩
            rcases Schema.samePackage_iff.mp hsame with ⟨hsome, hpackage⟩
            have htogether : schema.samePackage entry = true :=
              Schema.samePackage_iff.mpr ⟨hsome, hpackage.trans hentryPackage.symm⟩
            rw [hfirst entry hentry] at htogether
            contradiction
          rw [hother, if_neg Bool.false_ne_true]
        rw [if_pos hsame, if_pos hsame, List.map_congr_left hothers, List.map_id']
      · rw [if_neg hsame, if_neg hsame]
        rcases hsome with ⟨entry, hentry, htaken⟩
        rcases List.mem_cons.mp hentry with rfl | hentry
        · contradiction
        · rw [ih hrest ⟨entry, hentry, htaken⟩]

/-- No two entries belong to one package. -/
theorem pairwise_gathered (schemas : List Schema) :
    ((openers schemas).map (Schema.gathered schemas)).Pairwise
      fun first second => first.samePackage second = false := by
  rw [List.pairwise_map]
  apply (pairwise_openers schemas).imp
  intro first second hapart
  rw [Schema.samePackage_gathered]
  unfold Schema.samePackage at hapart ⊢
  rwa [Schema.packageName_gathered]

/-- One more schema is merged into those that are merged already. -/
theorem mergePackages_concat (schemas : List Schema) (other : Schema) :
    mergePackages (schemas ++ [other]) = mergeInto (mergePackages schemas) other := by
  unfold mergePackages
  rw [List.foldl_append]
  rfl

/-- Merged schemas are the openers, each with the declarations of its package. -/
theorem mergePackages_eq (schemas : List Schema) :
    mergePackages schemas = (openers schemas).map (Schema.gathered schemas) := by
  induction schemas using List.reverseRecOn with
  | nil => rfl
  | append_singleton schemas other ih =>
      rw [mergePackages_concat, ih, openers_concat, List.map_append]
      cases hopens : other.opens schemas with
      | true =>
          have hapart : ∀ entry ∈ (openers schemas).map (Schema.gathered schemas),
              entry.samePackage other = false := by
            rw [List.forall_mem_map]
            intro opener hopener
            rw [Schema.samePackage_gathered]
            exact Schema.samePackage_of_opens hopens (mem_of_mem_openers hopener)
          have hentries : ∀ opener ∈ openers schemas,
              opener.gathered schemas = opener.gathered (schemas ++ [other]) := by
            intro opener hopener
            have hother := Schema.samePackage_of_opens hopens (mem_of_mem_openers hopener)
            rw [Schema.gathered_concat, hother, if_neg Bool.false_ne_true]
          rw [mergeInto_of_apart hapart, if_pos rfl, List.map_singleton,
            Schema.gathered_of_opens hopens, List.map_congr_left hentries]
      | false =>
          have htaken : ∃ entry ∈ (openers schemas).map (Schema.gathered schemas),
              entry.samePackage other = true := by
            rcases exists_samePackage_of_not_opens hopens with ⟨opener, hopener, hsame⟩
            refine ⟨opener.gathered schemas, List.mem_map_of_mem hopener, ?_⟩
            rw [Schema.samePackage_gathered, hsame]
          rw [mergeInto_of_pairwise (pairwise_gathered schemas) htaken, List.map_map,
            if_neg Bool.false_ne_true, List.map_nil, List.append_nil]
          apply List.map_congr_left
          intro opener _
          rw [Schema.gathered_concat, Function.comp_apply, Schema.samePackage_gathered]

/-- Merging merged schemas changes nothing. -/
theorem mergePackages_mergePackages (schemas : List Schema) :
    mergePackages (mergePackages schemas) = mergePackages schemas := by
  rw [mergePackages_eq schemas]
  exact mergePackages_eq_self_of_pairwise (pairwise_gathered schemas)

/-- Merged schemas belong to the packages of the openers. -/
theorem packageNames_mergePackages (schemas : List Schema) :
    (mergePackages schemas).map Schema.packageName =
      (openers schemas).map Schema.packageName := by
  rw [mergePackages_eq, List.map_map]
  apply List.map_congr_left
  intro opener _
  exact opener.packageName_gathered schemas

/-- Whether schemas are merged by nothing, since they have no package. -/
def Subject.isFile : Subject → Bool
  | package _ => false
  | file _ => true

/-- A schema is by itself when merged exactly if it has no package. -/
theorem Schema.isFile_subject (schema : Schema) :
    schema.subject.isFile = decide (schema.packageName = "") := by
  unfold subject
  split
  · rename_i hnone
    simp [Subject.isFile, hnone]
  · rename_i hsome
    simp [Subject.isFile, hsome]

/-- Schemas without a package are among merged schemas, unchanged and in their order. -/
theorem filter_mergePackages_alone (schemas : List Schema) :
    ((mergePackages schemas).filter fun schema => schema.packageName = "") =
      schemas.filter fun schema => schema.packageName = "" := by
  have hfilter := mergePackages_filter Subject.isFile schemas
  simp only [Schema.isFile_subject] at hfilter
  rw [← hfilter]
  apply mergePackages_eq_self
  intro schema hschema
  simpa using (List.mem_filter.mp hschema).2

/-! ## Declarations -/

/-- Two schemas that are merged hold together what both of them hold. -/
theorem Schema.held_extend {part : Schema → List α} (hsame : schema.samePackage other = true)
    (hpart : part (schema.extend other) = part schema ++ part other) :
    (schema.extend other).held part = schema.held part ++ other.held part := by
  unfold held
  rw [hpart, List.map_append, subject_extend hsame, subject_eq_of_samePackage hsame]

/-- Merged schemas hold what the schemas hold, for the same packages and files. -/
theorem flatMap_held_mergePackages_perm {part : Schema → List α}
    (hpart : ∀ schema other : Schema, part (schema.extend other) = part schema ++ part other)
    (schemas : List Schema) :
    ((mergePackages schemas).flatMap (Schema.held part)).Perm
      (schemas.flatMap (Schema.held part)) := by
  apply flatMap_mergePackages_perm
  intro schema other hsame
  exact List.Perm.of_eq (Schema.held_extend hsame (hpart schema other))

/--
What schemas become when those of each package are merged: in the order of their first schemas,
one entry a package and one for every schema without a package, which stays as it is.  The
schemas and the entries declare the same for every package and for every schema without one, and
entries cannot be merged further.
-/
structure Merges (schemas merged : List Schema) : Prop where
  entries : merged = (openers schemas).map (Schema.gathered schemas)
  once : ∀ package, package ≠ "" → (merged.map Schema.packageName).count package =
    if package ∈ schemas.map Schema.packageName then 1 else 0
  alone : (merged.filter fun schema => schema.packageName = "") =
    schemas.filter fun schema => schema.packageName = ""
  messages : (merged.flatMap (Schema.held Schema.messages)).Perm
    (schemas.flatMap (Schema.held Schema.messages))
  enums : (merged.flatMap (Schema.held Schema.enums)).Perm
    (schemas.flatMap (Schema.held Schema.enums))
  services : (merged.flatMap (Schema.held Schema.services)).Perm
    (schemas.flatMap (Schema.held Schema.services))
  settled : mergePackages merged = merged

/-- Merging gathers the schemas of every package, and loses and doubles nothing. -/
theorem merges_mergePackages (schemas : List Schema) : Merges schemas (mergePackages schemas) where
  entries := mergePackages_eq schemas
  once := by
    intro package hpackage
    rw [packageNames_mergePackages]
    exact count_openers schemas hpackage
  alone := filter_mergePackages_alone schemas
  messages := flatMap_held_mergePackages_perm (fun _ _ => rfl) schemas
  enums := flatMap_held_mergePackages_perm (fun _ _ => rfl) schemas
  services := flatMap_held_mergePackages_perm (fun _ _ => rfl) schemas
  settled := mergePackages_mergePackages schemas

end ElmBinding
