import ElmBinding.Proofs.Module.Rearrangement
import ElmBinding.Proofs.Schema.Order

/-!
# The order of files

The files of a package make up one module, and a file without a package makes up one of its
own.  In another order the files are linked to the same contents, and each package and each
file without one has the same module or error.  A package does not notice if the files of other
packages are left out.

Main results:

- Definition {lit}`Yields`: the results of building modules, each with what it is for.
- Theorem {lit}`Yields.filter_perm`: results depend on the files of their own subject only.
- Theorem {lit}`yields_of_perm`: the order of files does not matter.
-/

namespace ElmBinding

variable {settings : Settings} {schemas others : List Schema} {schema other : Schema}

/-! ## Merged files in another order -/

/-- Schemas with declarations in another order, where files or dialects may differ. -/
theorem buildModule_eq_of_perm
    (hpackage : other.packageName = schema.packageName)
    (hname : other.moduleName settings = schema.moduleName settings)
    (hmessages : schema.messages.Perm other.messages) (henums : schema.enums.Perm other.enums)
    (hservices : schema.services.Perm other.services)
    (hunbroken : breachOf? (buildModule settings schema) = none) :
    buildModule settings other = buildModule settings schema := by
  let renamed : Schema := { schema with
    messages := other.messages, enums := other.enums, services := other.services }
  have hrearranged : schema.Rearranged renamed :=
    ⟨rfl, rfl, rfl, rearranged_of_perm hmessages, henums, hservices⟩
  cases hcheck : settings.check with
  | error broken => rw [buildModule_of_illegal hcheck, buildModule_of_illegal hcheck]
  | ok checked =>
      cases hregistry : Registry.ofSchema settings schema.packageName schema with
      | error broken =>
          have hbroken : buildModule settings schema = .error (.breach broken) := by
            unfold buildModule siteOf
            rw [hcheck, hregistry]
            rfl
          rw [hbroken] at hunbroken
          contradiction
      | ok registry =>
          rcases Registry.exists_alike_of_rearranged hregistry hrearranged with
            ⟨registry', hregistry', halike⟩
          rw [← hpackage] at hregistry'
          exact buildModule_eq_of_alike hregistry hregistry' halike hpackage hname

/-- The module of a package is named alike, whatever files make up the package. -/
theorem moduleName_eq_of_packageName (hpackage : other.packageName = schema.packageName)
    (hname : schema.packageName ≠ "") : other.moduleName settings = schema.moduleName settings := by
  have hsource : other.moduleSource = schema.moduleSource := by
    rw [Schema.moduleSource, Schema.moduleSource, hpackage, if_neg hname, if_neg hname]
  rw [Schema.moduleName, Schema.moduleName, hsource]

/-- The files of a package have the same module in any order. -/
theorem buildModule_extendAll_of_perm {rest rest' : List Schema} {name : String}
    (hname : name ≠ "") (hperm : (schema :: rest).Perm (other :: rest'))
    (hall : ∀ file ∈ schema :: rest, file.packageName = name)
    (hunbroken : breachOf? (buildModule settings (schema.extendAll rest)) = none) :
    buildModule settings (other.extendAll rest') =
      buildModule settings (schema.extendAll rest) := by
  have hschema : schema.packageName = name := hall schema List.mem_cons_self
  have hother : other.packageName = name :=
    hall other (hperm.mem_iff.mpr List.mem_cons_self)
  have hpackage : (other.extendAll rest').packageName = (schema.extendAll rest).packageName := by
    rw [Schema.packageName_extendAll, Schema.packageName_extendAll, hschema, hother]
  have hpresent : (schema.extendAll rest).packageName ≠ "" := by
    rw [Schema.packageName_extendAll, hschema]
    exact hname
  refine buildModule_eq_of_perm hpackage (moduleName_eq_of_packageName hpackage hpresent)
    ?_ ?_ ?_ hunbroken
  · rw [Schema.messages_extendAll, Schema.messages_extendAll]
    exact hperm.flatMap_right _
  · rw [Schema.enums_extendAll, Schema.enums_extendAll]
    exact hperm.flatMap_right _
  · rw [Schema.services_extendAll, Schema.services_extendAll]
    exact hperm.flatMap_right _

/-! ## Results -/

/-- The result of building the module of merged files, with what it is for. -/
def Schema.result (settings : Settings) (schema : Schema) :
    Subject × Except BindingError Module :=
  (schema.subject, buildModule settings schema)

/-- The results of building the modules of schemas, in the order of the merged schemas. -/
def resultsOf (settings : Settings) (schemas : List Schema) :
    List (Subject × Except BindingError Module) :=
  (mergePackages schemas).map (Schema.result settings)

/--
What building modules from schemas yields, in the order of the modules: for every package, and
for every file without one, a module or an error.
-/
structure Yields (settings : Settings) (schemas : List Schema)
    (pairs : List (Subject × Except BindingError Module)) : Prop where
  results : buildModules settings schemas = .ok (pairs.map Prod.snd)
  subjects : (mergePackages schemas).map Schema.subject = pairs.map Prod.fst

/-- Modules are built if nothing is broken, one from all the files of a subject. -/
theorem buildModules_eq_ok_iff {results : List (Except BindingError Module)} :
    buildModules settings schemas = .ok results ↔
      results = (resultsOf settings schemas).map Prod.snd ∧
        ∀ result ∈ results, breachOf? result = none := by
  have hresults : (resultsOf settings schemas).map Prod.snd =
      (mergePackages schemas).map (buildModule settings) := by
    rw [resultsOf, List.map_map]
    rfl
  rw [hresults]
  simp only [buildModules]
  cases hbreach : ((mergePackages schemas).map (buildModule settings)).findSome? breachOf? with
  | some breach =>
      rcases List.exists_of_findSome?_eq_some hbreach with ⟨result, hresult, hbroken⟩
      simp only [reduceCtorEq, false_iff, not_and]
      rintro rfl hunbroken
      rw [hunbroken result hresult] at hbroken
      contradiction
  | none =>
      have hunbroken := List.findSome?_eq_none_iff.mp hbreach
      rw [Except.ok.injEq]
      constructor
      · rintro rfl
        exact ⟨rfl, hunbroken⟩
      · rintro ⟨rfl, -⟩
        rfl

variable {pairs pairs' : List (Subject × Except BindingError Module)}

/-- What is yielded are the results of the merged schemas, if none of them is broken. -/
theorem yields_iff :
    Yields settings schemas pairs ↔
      pairs = resultsOf settings schemas ∧ ∀ pair ∈ pairs, breachOf? pair.2 = none := by
  have hsubjects : (mergePackages schemas).map Schema.subject =
      (resultsOf settings schemas).map Prod.fst := by
    rw [resultsOf, List.map_map]
    rfl
  constructor
  · rintro ⟨hbuilt, hfirst⟩
    rcases buildModules_eq_ok_iff.mp hbuilt with ⟨hsecond, hunbroken⟩
    refine ⟨?_, List.forall_mem_map.mp hunbroken⟩
    calc pairs = ((resultsOf settings schemas).map Prod.fst).zip
            ((resultsOf settings schemas).map Prod.snd) :=
          List.zip_of_prod (hfirst.symm.trans hsubjects) hsecond
      _ = resultsOf settings schemas := (List.zip_of_prod rfl rfl).symm
  · rintro ⟨rfl, hunbroken⟩
    exact ⟨buildModules_eq_ok_iff.mpr ⟨rfl, List.forall_mem_map.mpr hunbroken⟩, hsubjects⟩

/-! ## Results of one subject -/

/-- Merged files of a package have one result in any order. -/
theorem result_extendAll_of_perm {rest rest' : List Schema} {name : String}
    (hname : name ≠ "") (hperm : (schema :: rest).Perm (other :: rest'))
    (hall : ∀ file ∈ schema :: rest, file.packageName = name)
    (hunbroken : breachOf? (buildModule settings (schema.extendAll rest)) = none) :
    (other.extendAll rest').result settings = (schema.extendAll rest).result settings := by
  have hsubject : ∀ {file : Schema} {files : List Schema}, file ∈ schema :: rest →
      (file.extendAll files).subject = .package name := by
    intro file files hfile
    rw [Schema.subject_eq_package_iff, Schema.packageName_extendAll]
    exact ⟨hall file hfile, hname⟩
  rw [Schema.result, Schema.result, hsubject List.mem_cons_self,
    hsubject (hperm.mem_iff.mpr List.mem_cons_self),
    buildModule_extendAll_of_perm hname hperm hall hunbroken]

/-- Files of one subject have the same results in any order. -/
theorem resultsOf_perm_of_subject {subject : Subject} (hperm : schemas.Perm others)
    (hsubject : ∀ schema ∈ schemas, schema.subject = subject)
    (hunbroken : ∀ pair ∈ resultsOf settings schemas, breachOf? pair.2 = none) :
    (resultsOf settings schemas).Perm (resultsOf settings others) := by
  unfold resultsOf at hunbroken ⊢
  cases subject with
  | file file =>
      have hlone : ∀ schema ∈ schemas, schema.packageName = "" := fun schema hschema =>
        (Schema.subject_eq_file_iff.mp (hsubject schema hschema)).2
      have hlone' : ∀ schema ∈ others, schema.packageName = "" := fun schema hschema =>
        hlone schema (hperm.mem_iff.mpr hschema)
      rw [mergePackages_eq_self hlone, mergePackages_eq_self hlone']
      exact hperm.map _
  | package name =>
      cases schemas with
      | nil => rw [hperm.nil_eq]
      | cons schema rest =>
          cases others with
          | nil => exact absurd hperm.eq_nil (List.cons_ne_nil schema rest)
          | cons other rest' =>
              have hpackage : ∀ file ∈ schema :: rest, file.packageName = name ∧ name ≠ "" :=
                fun file hfile => Schema.subject_eq_package_iff.mp (hsubject file hfile)
              have hname := (hpackage schema List.mem_cons_self).2
              have hall : ∀ file ∈ schema :: rest, file.packageName = name :=
                fun file hfile => (hpackage file hfile).1
              have hall' : ∀ file ∈ other :: rest', file.packageName = name :=
                fun file hfile => hall file (hperm.mem_iff.mpr hfile)
              rw [mergePackages_eq_singleton hname hall] at hunbroken ⊢
              rw [mergePackages_eq_singleton hname hall', List.map_singleton, List.map_singleton,
                result_extendAll_of_perm hname hperm hall (hunbroken _ List.mem_cons_self)]

/-- The results for some subjects are those of the schemas with these subjects. -/
theorem resultsOf_filter (keep : Subject → Bool) :
    resultsOf settings (schemas.filter fun schema => keep schema.subject) =
      (resultsOf settings schemas).filter fun pair => keep pair.1 := by
  rw [resultsOf, mergePackages_filter, resultsOf, List.filter_map]
  rfl

open Classical in
/-- Lists are the same up to their order if they are so for each value of a key. -/
theorem perm_of_filter_perm {α β : Type} {key : α → β} {items items' : List α}
    (h : ∀ b, (items.filter fun a => key a = b).Perm (items'.filter fun a => key a = b)) :
    items.Perm items' := by
  apply List.perm_iff_count.mpr
  intro a
  have hcount := (h (key a)).count_eq a
  rw [List.count_filter (by simp), List.count_filter (by simp)] at hcount
  exact hcount

namespace Yields

/-- What is left out from merging is left out from the results. -/
theorem filter (h : Yields settings schemas pairs) (keep : Subject → Bool) :
    Yields settings (schemas.filter fun schema => keep schema.subject)
      (pairs.filter fun pair => keep pair.1) := by
  rcases yields_iff.mp h with ⟨rfl, hunbroken⟩
  rw [yields_iff, resultsOf_filter]
  exact ⟨rfl, fun pair hpair => hunbroken pair (List.mem_filter.mp hpair).1⟩

open Classical in
/-- The results for a subject depend on the files of that subject only, in any order. -/
theorem filter_perm (h : Yields settings schemas pairs) {subject : Subject}
    (hperm : (schemas.filter fun schema => schema.subject = subject).Perm
      (others.filter fun schema => schema.subject = subject)) :
    (pairs.filter fun pair => pair.1 = subject).Perm
      ((resultsOf settings others).filter fun pair => pair.1 = subject) := by
  have hfilter : ∀ files : List Schema,
      ((resultsOf settings files).filter fun pair => pair.1 = subject) =
        resultsOf settings (files.filter fun schema => schema.subject = subject) :=
    fun files => (resultsOf_filter fun other => decide (other = subject)).symm
  rcases yields_iff.mp h with ⟨rfl, hunbroken⟩
  rw [hfilter, hfilter]
  apply resultsOf_perm_of_subject hperm
  · intro schema hschema
    simpa using (List.mem_filter.mp hschema).2
  · rw [← hfilter]
    exact fun pair hpair => hunbroken pair (List.mem_filter.mp hpair).1

/-- In another order, files have the same results in another order. -/
theorem of_perm (h : Yields settings schemas pairs) (hperm : schemas.Perm others) :
    Yields settings others (resultsOf settings others) ∧
      pairs.Perm (resultsOf settings others) := by
  classical
  have hpairs : pairs.Perm (resultsOf settings others) :=
    perm_of_filter_perm fun subject => h.filter_perm (hperm.filter _)
  refine ⟨yields_iff.mpr ⟨rfl, ?_⟩, hpairs⟩
  intro pair hpair
  exact (yields_iff.mp h).2 pair (hpairs.mem_iff.mpr hpair)

/-- The result for a package is the same wherever its files are the same. -/
theorem mem_iff_of_perm {name : String} (h : Yields settings schemas pairs)
    (h' : Yields settings others pairs')
    (hperm : (schemas.filter fun schema => schema.packageName = name).Perm
      (others.filter fun schema => schema.packageName = name))
    (result : Except BindingError Module) :
    (.package name, result) ∈ pairs ↔ (.package name, result) ∈ pairs' := by
  classical
  rcases yields_iff.mp h' with ⟨rfl, -⟩
  have hfilter : ∀ files : List Schema,
      (files.filter fun schema => schema.subject = .package name) =
        (files.filter fun schema => schema.packageName = name).filter fun _ => name ≠ "" := by
    intro files
    rw [List.filter_filter]
    apply List.filter_congr
    intro schema _
    simp only [Schema.subject_eq_package_iff, Bool.decide_and, Bool.and_comm]
  have hfiles : (schemas.filter fun schema => schema.subject = .package name).Perm
      (others.filter fun schema => schema.subject = .package name) := by
    rw [hfilter, hfilter]
    exact hperm.filter _
  have hsame := h.filter_perm hfiles
  have hmem := hsame.mem_iff (a := (.package name, result))
  simpa only [List.mem_filter, decide_true, and_true] using hmem

end Yields

/-! ## Files in another order -/

/--
Files in another order can be linked if they can be in the first one, to the same contents, and
then they yield the same modules and errors, unless something is broken.  Each package and each
file without one has its own result, which other files do not change: not if they are left out,
and not if there are others in their place.
-/
theorem yields_of_perm {schemas others : List Schema} (hperm : schemas.Perm others) :
    ((∃ error, link schemas = .error error) ∧ ∃ error, link others = .error error) ∨
      ∃ content : Schema → Schema, link schemas = .ok (schemas.map content) ∧
        link others = .ok (others.map content) ∧
        ∀ settings results, buildModules settings (schemas.map content) = .ok results →
          ∃ pairs pairs', pairs.map Prod.snd = results ∧
            Yields settings (schemas.map content) pairs ∧
            Yields settings (others.map content) pairs' ∧ pairs.Perm pairs' ∧
            (∀ keep : Subject → Bool,
              Yields settings ((schemas.map content).filter fun schema => keep schema.subject)
                (pairs.filter fun pair => keep pair.1)) ∧
            ∀ files kept name, Yields settings files kept →
              (files.filter fun schema => schema.packageName = name).Perm
                ((schemas.map content).filter fun schema => schema.packageName = name) →
              ∀ result, (.package name, result) ∈ kept ↔ (.package name, result) ∈ pairs := by
  cases hlink : link schemas with
  | error error =>
      refine Or.inl ⟨⟨error, rfl⟩, ?_⟩
      cases hlink' : link others with
      | error error' => exact ⟨error', rfl⟩
      | ok linked =>
          rcases link_of_perm hperm.symm hlink' with ⟨content, -, hcontent⟩
          rw [hlink] at hcontent
          contradiction
  | ok linked =>
      rcases link_of_perm hperm hlink with ⟨content, rfl, hlink'⟩
      refine Or.inr ⟨content, rfl, hlink', ?_⟩
      intro settings results hresults
      rcases buildModules_eq_ok_iff.mp hresults with ⟨rfl, hunbroken⟩
      have hyields : Yields settings (schemas.map content)
          (resultsOf settings (schemas.map content)) :=
        yields_iff.mpr ⟨rfl, List.forall_mem_map.mp hunbroken⟩
      rcases hyields.of_perm (hperm.map content) with ⟨hyields', hpairs⟩
      refine ⟨_, _, rfl, hyields, hyields', hpairs, hyields.filter, ?_⟩
      intro files kept name hkept hfiles
      exact hkept.mem_iff_of_perm hyields hfiles

/-- Two files of a package, the first of which needs the second, and a file of its own. -/
def marketFiles : List Schema := [
  { fileName := some "stall.proto"
    package := some "market"
    messages := [{ name := "Stall", fullName := "market.Stall", fields := [
      { name := "fruit", fullName := "market.Stall.fruit", kind := .message ⟨"Fruit", ""⟩ }] }] },
  { fileName := some "note.proto", messages := [{ name := "Note", fullName := "Note" }] },
  { fileName := some "fruit.proto"
    dialect := .proto3
    package := some "market"
    messages := [{ name := "Fruit", fullName := "market.Fruit" }] }]

/-- The files yield the same two modules from front to back and from back to front. -/
theorem yields_marketFiles :
    marketFiles.Perm marketFiles.reverse ∧
      ∃ content : Schema → Schema, link marketFiles = .ok (marketFiles.map content) ∧
        link marketFiles.reverse = .ok (marketFiles.reverse.map content) ∧
        ∃ pairs pairs', buildModules {} (marketFiles.map content) = .ok (pairs.map Prod.snd) ∧
          Yields {} (marketFiles.map content) pairs ∧
          Yields {} (marketFiles.reverse.map content) pairs' ∧ pairs.Perm pairs' ∧
          (∀ keep : Subject → Bool,
            Yields {} ((marketFiles.map content).filter fun schema => keep schema.subject)
              (pairs.filter fun pair => keep pair.1)) ∧
          ∀ files kept name, Yields {} files kept →
            (files.filter fun schema => schema.packageName = name).Perm
              ((marketFiles.map content).filter fun schema => schema.packageName = name) →
            ∀ result, (.package name, result) ∈ kept ↔ (.package name, result) ∈ pairs := by
  have hperm : marketFiles.Perm marketFiles.reverse := (List.reverse_perm marketFiles).symm
  have hbuilds : ((link marketFiles).toOption.any fun linked =>
      (buildModules {} linked).toOption.isSome) = true := by
    decide +kernel
  rcases yields_of_perm hperm with ⟨⟨error, hlink⟩, -⟩ | ⟨content, hlink, hlink', hyields⟩
  · rw [hlink] at hbuilds
    contradiction
  · rw [hlink] at hbuilds
    cases hresults : buildModules {} (marketFiles.map content) with
    | error breach => simp [hresults, Except.toOption] at hbuilds
    | ok results =>
        rcases hyields {} results hresults with ⟨pairs, pairs', rfl, hyielded⟩
        exact ⟨hperm, content, hlink, hlink', pairs, pairs', hresults, hyielded⟩

end ElmBinding
