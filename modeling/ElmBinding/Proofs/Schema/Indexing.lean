import ElmBinding.Proofs.Schema.Order

/-!
# Merging by an index

Schemas can be merged without a search through the entries that there are: an index tells at which
place the entry of a package stands.  An entry keeps its place and its package when a schema goes
into it, and a new one is put behind the others, so the index stays right.

Main results:

- Definition {lit}`Indexed`: entries and the places of packages among them.
- Definition {lit}`Indexed.Finds`: the index tells what a search would find.
- Theorem {lit}`Indexed.entries_add`: one more schema goes where a search would put it.
- Theorem {lit}`Indexed.Finds.add`: the index stays right.
- Theorem {lit}`mergeByIndex_eq`: merging by an index is merging.
-/

namespace ElmBinding

/-- Entries of schemas that are merged, with an index. -/
structure Indexed where
  entries : List Schema := []
  /-- The place of the entry of each package. -/
  places : List (String × Nat) := []

/-- Put a schema into the entry of its package if the index has one, and else behind the others. -/
def Indexed.add (indexed : Indexed) (schema : Schema) : Indexed :=
  if schema.packageName = "" then
    { indexed with entries := indexed.entries ++ [schema] }
  else
    match indexed.places.lookup schema.packageName with
    | some place =>
        { indexed with
          entries := indexed.entries.modify place fun entry => entry.extend schema }
    | none =>
        { entries := indexed.entries ++ [schema]
          places := (schema.packageName, indexed.entries.length) :: indexed.places }

/-- One schema a package, with the entry of a package looked up in an index. -/
def mergeByIndex (schemas : List Schema) : List Schema :=
  (schemas.foldl Indexed.add {}).entries

/-! ## Places of packages -/

/-- The first place of a package among entries. -/
def placeOf? (entries : List Schema) (package : String) : Option Nat :=
  (entries.map Schema.packageName).findIdx? (· = package)

/-- An entry that takes in a schema keeps its package, so places stay as they are. -/
theorem placeOf?_modify (entries : List Schema) (place : Nat) (schema : Schema) (package : String) :
    placeOf? (entries.modify place fun entry => entry.extend schema) package =
      placeOf? entries package := by
  have hnames : (entries.modify place fun entry => entry.extend schema).map Schema.packageName =
      entries.map Schema.packageName := by
    induction entries generalizing place with
    | nil => simp
    | cons entry rest ih =>
        cases place with
        | zero => rfl
        | succ place => rw [List.modify_succ_cons, List.map_cons, List.map_cons, ih]
  rw [placeOf?, placeOf?, hnames]

/-- An entry behind the others is the first of its package if the package is new. -/
theorem placeOf?_concat (entries : List Schema) (schema : Schema) (package : String) :
    placeOf? (entries ++ [schema]) package =
      (placeOf? entries package).or
        (if schema.packageName = package then some entries.length else none) := by
  simp [placeOf?, List.findIdx?_append, List.findIdx?_cons]

/-- A schema of a package with a place goes into the entry at that place. -/
theorem mergeInto_of_place {entries : List Schema} {schema : Schema} {place : Nat}
    (hsome : schema.packageName ≠ "") (hplace : placeOf? entries schema.packageName = some place) :
    mergeInto entries schema = entries.modify place fun entry => entry.extend schema := by
  induction entries generalizing place with
  | nil => contradiction
  | cons entry rest ih =>
      rw [placeOf?, List.map_cons, List.findIdx?_cons] at hplace
      rw [mergeInto]
      by_cases hsame : entry.packageName = schema.packageName
      · obtain rfl : 0 = place := by simpa [hsame] using hplace
        rw [if_pos (by simp [Schema.samePackage, hsame, hsome])]
        rfl
      · rw [if_neg (by simpa using hsame)] at hplace
        rcases Option.map_eq_some_iff.mp hplace with ⟨later, hlater, rfl⟩
        rw [if_neg (by simp [Schema.samePackage, hsame]), ih hlater, List.modify_succ_cons]

/-- A schema of a package without a place goes behind the entries. -/
theorem mergeInto_of_no_place {entries : List Schema} {schema : Schema}
    (hnone : placeOf? entries schema.packageName = none) :
    mergeInto entries schema = entries ++ [schema] := by
  apply mergeInto_of_apart
  intro entry hentry
  have hother : entry.packageName ≠ schema.packageName := by
    simpa using List.findIdx?_eq_none_iff.mp hnone _ (List.mem_map_of_mem hentry)
  simp [Schema.samePackage, hother]

/-! ## Indexes -/

namespace Indexed

variable {indexed : Indexed}

/-- The index tells of every package at which place its entry stands, if it has one. -/
def Finds (indexed : Indexed) : Prop :=
  ∀ package, package ≠ "" → indexed.places.lookup package = placeOf? indexed.entries package

/-- With an index that is right, a schema goes where a search would put it. -/
theorem entries_add (h : indexed.Finds) (schema : Schema) :
    (indexed.add schema).entries = mergeInto indexed.entries schema := by
  unfold add
  by_cases hnone : schema.packageName = ""
  · have hapart : ∀ entry ∈ indexed.entries, entry.samePackage schema = false := by
      intro entry _
      by_cases hentry : entry.packageName = "" <;> simp [Schema.samePackage, hentry, hnone]
    rw [if_pos hnone, mergeInto_of_apart hapart]
  · rw [if_neg hnone, h _ hnone]
    cases hplace : placeOf? indexed.entries schema.packageName with
    | some place => rw [mergeInto_of_place hnone hplace]
    | none => rw [mergeInto_of_no_place hplace]

/-- With one more schema, an index that was right still is. -/
theorem Finds.add (h : indexed.Finds) (schema : Schema) : (indexed.add schema).Finds := by
  intro package hpackage
  unfold Indexed.add
  by_cases hnone : schema.packageName = ""
  · have hother : schema.packageName ≠ package := hnone ▸ Ne.symm hpackage
    rw [if_pos hnone, h package hpackage, placeOf?_concat, if_neg hother, Option.or_none]
  · rw [if_neg hnone, h _ hnone]
    cases hplace : placeOf? indexed.entries schema.packageName with
    | some place => rw [h package hpackage, placeOf?_modify]
    | none =>
        rw [placeOf?_concat, List.lookup_cons]
        by_cases hsame : package = schema.packageName
        · subst hsame
          simp [hplace]
        · have hmiss : (package == schema.packageName) = false := by simpa using hsame
          simp only [hmiss, if_neg (Ne.symm hsame)]
          rw [h package hpackage, Option.or_none]

/-- After any schemas, the index is right and the entries are the merged schemas. -/
theorem foldl_add (h : indexed.Finds) (schemas : List Schema) :
    (schemas.foldl add indexed).Finds ∧
      (schemas.foldl add indexed).entries = schemas.foldl mergeInto indexed.entries := by
  induction schemas generalizing indexed with
  | nil => exact ⟨h, rfl⟩
  | cons schema rest ih =>
      rw [List.foldl_cons, List.foldl_cons, ← entries_add h schema]
      exact ih (h.add schema)

end Indexed

/-- To merge with an index is to merge with a search for the entry of each schema. -/
theorem mergeByIndex_eq (schemas : List Schema) : mergeByIndex schemas = mergePackages schemas :=
  (Indexed.foldl_add (fun _ _ => rfl) schemas).2

end ElmBinding
