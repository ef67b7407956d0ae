import ElmBinding.Module.Title
import ElmBinding.Proofs.Naming.Predictions
import ElmBinding.Proofs.Schema.Targets
import ElmBinding.Proofs.Sequence.Sorting
import ElmBinding.Proofs.Source.Names

/-!
# Names of types of other modules

A module names a type of another module by its reference alone, without a ledger of that
module.  The key that it cuts out of the full name is the one under which the type is
registered at home.  So the names are those that the type has at home if nothing but reserved
words was in the way of its own names there, whatever else had been given out before.

Main results:

- Theorem {lit}`lastSegment_dotted`: the last segment of a full name is the name itself.
- Theorem {lit}`NamedIn.typeKey_eq`: the key of a type is cut out of its full name.
- Theorem {lit}`foreignBinding_of_binding`: the names of a type at home and elsewhere.
-/

namespace ElmBinding

open Name Text

/-! ## Cutting full names -/

/-- There is no dot in a word. -/
theorem dot_notMem_of_isWord {name : String} (h : isWord name = true) : '.' ∉ name.toList := by
  intro hdot
  have hchar := List.all_eq_true.mp h '.' hdot
  revert hchar
  decide

/-- The last segment of a word is the word. -/
theorem lastSegment_word {name : String} (h : isWord name = true) : lastSegment name = name := by
  rw [lastSegment, splitAtChar_of_notMem (dot_notMem_of_isWord h)]
  exact String.ofList_toList

/-- The last segment of a full name is the name itself. -/
theorem lastSegment_dotted (scope : String) {name : String} (h : isWord name = true) :
    lastSegment (scope ++ "." ++ name) = name := by
  have hsplit : splitAtChar '.' (scope ++ "." ++ name).toList =
      splitAtChar '.' scope.toList ++ [name.toList] := by
    rw [← splitAtChar_of_notMem (dot_notMem_of_isWord h), ← splitAtChar_append]
    simp [String.toList_append]
  rw [lastSegment, hsplit, List.getLastD_concat]
  exact String.ofList_toList

/-- A qualifier in front of a name is dropped with its dot. -/
theorem dropQualifier_dotted (qualifier name : String) :
    dropQualifier qualifier (qualifier ++ "." ++ name) = name := by
  have hcut : (qualifier.toList ++ ['.']).isPrefixOf? (qualifier ++ "." ++ name).toList =
      some name.toList := by
    rw [List.isPrefixOf?_eq_some_iff_append_eq]
    simp [String.toList_append]
  rw [dropQualifier, hcut]
  exact String.ofList_toList

/-! ## Keys of references -/

/-- What is named in a package is the package, a dot and a name that ends in the word. -/
theorem NamedIn.exists_dotted {package name fullName : String}
    (h : NamedIn package name fullName) (hpackage : package ≠ "") :
    ∃ inner, fullName = package ++ "." ++ inner ∧ lastSegment inner = name := by
  rcases h.scope with ⟨scope, hscope, rfl⟩
  rcases hscope.inside with hnone | rfl | ⟨inner, rfl⟩
  · exact absurd hnone hpackage
  · exact ⟨name, if_neg hpackage, lastSegment_word h.word⟩
  · have hscope : package ++ "." ++ inner ≠ "" := by simp
    refine ⟨inner ++ "." ++ name, ?_, lastSegment_dotted inner h.word⟩
    rw [qualify, if_neg hscope]
    simp only [String.append_assoc]

/-- The key of a type that is named in a package is cut out of its full name. -/
theorem NamedIn.typeKey_eq {package name fullName : String} (h : NamedIn package name fullName)
    (hpackage : package ≠ "") (settings : Settings) :
    typeKey settings package name fullName = foreignKey settings ⟨fullName, package⟩ := by
  rcases h.exists_dotted hpackage with ⟨inner, rfl, hlast⟩
  rw [typeKey, foreignKey, withoutPackage, if_neg hpackage, dropQualifier_dotted, hlast]

/-- A declared type of a well-formed schema is registered under the key of its reference. -/
theorem Registry.key?_of_declaresType {schema : Schema} {settings : Settings}
    {registry : Registry} {fullName : String}
    (hregistry : ofSchema settings schema.packageName schema = .ok registry)
    (hformed : schema.WellFormed) (hpackage : schema.packageName ≠ "")
    (h : schema.DeclaresType fullName) :
    registry.key? fullName = some (foreignKey settings ⟨fullName, schema.packageName⟩) := by
  have hcatalog := ofSchema_eq_ok_iff.mp hregistry
  have hlisted := schema.catalog_listed settings schema.packageName
  rw [← hcatalog] at hlisted
  have hentry : ∃ name, NamedIn schema.packageName name fullName ∧
      ⟨fullName, typeKey settings schema.packageName name fullName⟩ ∈ registry.entries := by
    rcases h with ⟨enumeration, hmem, rfl⟩ | ⟨message, hmem, rfl⟩
    · have henum := (schema.catalog_enums_perm settings schema.packageName).mem_iff.mpr hmem
      rw [← hcatalog] at henum
      refine ⟨enumeration.name, (hformed.allEnums enumeration hmem).named, ?_⟩
      apply hlisted.mem_iff.mpr
      apply List.mem_append_left
      exact List.mem_flatMap.mpr ⟨enumeration, henum, List.mem_cons_self⟩
    · have hmessage :=
        (schema.catalog_messages_perm settings schema.packageName).mem_iff.mpr hmem
      rw [← hcatalog] at hmessage
      refine ⟨message.name, (hformed.messages message hmem).named, ?_⟩
      apply hlisted.mem_iff.mpr
      apply List.mem_append_right
      apply List.mem_append_left
      exact List.mem_flatMap.mpr ⟨message, hmessage, List.mem_cons_self⟩
  rcases hentry with ⟨name, hnamed, hmem⟩
  have hfound := Sequence.find?_eq_some_of_mem registry.distinct hmem
  rw [key?, hfound, ← hnamed.typeKey_eq hpackage settings]
  rfl

/-! ## Names at home and elsewhere -/

/-- The site of a well-formed schema has plain keys. -/
theorem Schema.WellFormed.hasPlainKeys {schema : Schema} {site : Site}
    (hformed : schema.WellFormed)
    (hregistry : Registry.ofSchema site.settings schema.packageName schema = .ok site.registry) :
    site.HasPlainKeys :=
  Registry.isPlain_key? hregistry hformed.isPlain

/--
The names of a type in another module are those that it gets at home, after any calls for names
there, if all that was found taken on its behalf is reserved.
-/
theorem foreignBinding_of_binding {schema : Schema} {site : Site} {fullName here : String}
    {calls : List Call} {binding : Binding} {after : Ledger} (hparsed : Source.Parsed schema)
    (hpackage : schema.packageName ≠ "") (hname : site.settings.moduleName = none)
    (hregistry : Registry.ofSchema site.settings schema.packageName schema = .ok site.registry)
    (hdeclared : schema.DeclaresType fullName)
    (hrun : (site.binding fullName).run (site.ledgerAfter calls) = .ok binding after)
    (hclashes : ∀ clash ∈ site.clashes (calls ++ [.binding fullName]),
      clash.fullName = fullName → isReserved clash.id = true)
    (hhere : here ≠ schema.moduleName site.settings) :
    foreignBinding site.settings here ⟨fullName, schema.packageName⟩ =
      { binding with module := some (schema.moduleName site.settings) } := by
  have hformed := hparsed.wellFormed
  have hforetold :=
    Site.unreservedBinding?_of_binding (hformed.hasPlainKeys hregistry) hrun hclashes
  have hkey := Registry.key?_of_declaresType hregistry hformed hpackage hdeclared
  have hhome := Schema.moduleName_eq_packageModule hname hpackage
  rw [Site.unreservedBinding?, hkey, Option.map_some, Option.some.injEq] at hforetold
  rw [foreignBinding, ← hhome, if_neg (Ne.symm hhere), ← hforetold, bindingOf, bindingOf]

/-- A text with a type whose name is reserved. -/
def choiceText : String :=
  "package p; enum Maybe \x7b A = 0; \x7d message M \x7b \x7d"

/-- Settings with a suffix for names that are taken. -/
def choiceSettings : Settings where
  collisionSuffix := "_"

/-- The reserved name gets a suffix at home, behind another type, and the same one elsewhere. -/
theorem foreignBinding_choiceText :
    ∃ (schema : Schema) (site : Site) (binding : Binding) (after : Ledger),
      Source.Parsed schema ∧ schema.packageName ≠ "" ∧ site.settings.moduleName = none ∧
      Registry.ofSchema site.settings schema.packageName schema = .ok site.registry ∧
      schema.DeclaresType "p.Maybe" ∧
      (site.binding "p.Maybe").run (site.ledgerAfter [.binding "p.M"]) = .ok binding after ∧
      (∀ clash ∈ site.clashes ([.binding "p.M"] ++ [.binding "p.Maybe"]),
        clash.fullName = "p.Maybe" → isReserved clash.id = true) ∧
      "Q" ≠ schema.moduleName site.settings ∧
      foreignBinding site.settings "Q" ⟨"p.Maybe", schema.packageName⟩ =
        { binding with module := some (schema.moduleName site.settings) } ∧
      binding.id = "Maybe_" := by
  have hok : (Source.schemaOfText choiceText).toOption.any (fun schema =>
      schema.packageName ≠ "" && "Q" ≠ schema.moduleName choiceSettings &&
        schema.allEnums.any (fun enumeration => enumeration.fullName = "p.Maybe") &&
        (Registry.ofSchema choiceSettings schema.packageName schema).toOption.any fun registry =>
          let site : Site := ⟨registry, choiceSettings, "P"⟩
          (match (site.binding "p.Maybe").run (site.ledgerAfter [.binding "p.M"]) with
            | .ok binding _ => binding.id = "Maybe_"
            | .error _ _ => false) &&
          (site.clashes ([.binding "p.M"] ++ [.binding "p.Maybe"])).all fun clash =>
            clash.fullName ≠ "p.Maybe" || isReserved clash.id) = true := by
    decide +kernel
  cases hschema : Source.schemaOfText choiceText with
  | error error => simp [hschema, Except.toOption] at hok
  | ok schema =>
      simp only [hschema, Except.toOption, Option.any_some, Bool.and_eq_true] at hok
      rcases hok with ⟨⟨⟨hpackage, hhere⟩, henum⟩, hsite⟩
      have hparsed : Source.Parsed schema := .text hschema
      have hdeclared : schema.DeclaresType "p.Maybe" := by
        rcases List.any_eq_true.mp henum with ⟨enumeration, hmem, hfullName⟩
        exact Or.inl ⟨enumeration, hmem, by simpa using hfullName⟩
      cases hregistry : Registry.ofSchema choiceSettings schema.packageName schema with
      | error broken => simp [hregistry] at hsite
      | ok registry =>
          simp only [hregistry, Option.any_some, Bool.and_eq_true] at hsite
          rcases hsite with ⟨hbinding, hclashes⟩
          let site : Site := ⟨registry, choiceSettings, "P"⟩
          cases hrun : (site.binding "p.Maybe").run (site.ledgerAfter [.binding "p.M"]) with
          | error error after => simp [site, hrun] at hbinding
          | ok binding after =>
              simp only [site] at hrun
              rw [hrun] at hbinding
              have hall : ∀ clash ∈ site.clashes ([.binding "p.M"] ++ [.binding "p.Maybe"]),
                  clash.fullName = "p.Maybe" → isReserved clash.id = true := by
                intro clash hclash hfullName
                have hreserved := List.all_eq_true.mp hclashes clash hclash
                simpa [hfullName] using hreserved
              have hnonempty : schema.packageName ≠ "" := by simpa using hpackage
              have hother : "Q" ≠ schema.moduleName site.settings := by simpa using hhere
              refine ⟨schema, site, binding, after, hparsed, hnonempty, rfl, hregistry,
                hdeclared, hrun, hall, hother, ?_, by simpa using hbinding⟩
              exact foreignBinding_of_binding hparsed hnonempty rfl hregistry hdeclared hrun
                hall hother

end ElmBinding
