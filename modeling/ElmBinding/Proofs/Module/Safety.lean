import ElmBinding.Proofs.Module.Definitions
import ElmBinding.Proofs.Module.Slots
import ElmBinding.Proofs.Naming.PlainKeys

/-!
# No breach in plain schemas

Building a module breaks no assumption if the names of the schema are plain, its fields are
in oneofs that are there, and no full name is declared twice: every name that is looked up is
registered, every candidate and every suffixed identifier is legal, and every oneof that a
field refers to exists.  The search for a free identifier comes to an end, so a collision is
reported only if there is no suffix.  The places in a finished union are places of variants.

Main results:

- Definition {lit}`BindingError.Orderly`: the errors that may come up.
- Theorem {lit}`Site.CoversFaults.coversAll`: a plain schema has no errors but those of its
  faults.
- Theorem {lit}`Site.coversAll_orderly`: naming a plain schema ends in such errors only.
- Theorems {lit}`Site.HasUnion.aliased` and {lit}`Site.HasUnion.defaulted`: the places in a
  union are those of variants.
- Theorem {lit}`buildModule_safe`: no breach, no endless search and no stray place.
-/

namespace ElmBinding

open Name

variable {site : Site} {ledger : Ledger}

/-! ## Errors -/

/-- An error that is no breach, and no collision unless there is no suffix. -/
structure BindingError.Orderly (settings : Settings) (error : BindingError) : Prop where
  breach? : error.breach? = none
  suffix : ∀ fullName candidate, error = .collision fullName candidate →
    settings.collisionSuffix = ""

/-- Orderly errors are all that a sane claim can end in. -/
theorem covers_orderly {settings : Settings} {fullName : String} {sane : Prop} (h : sane) :
    Covers settings (BindingError.Orderly settings) fullName sane where
  breach hinsane := absurd h hinsane
  collision hsuffix _ := ⟨rfl, fun _ _ _ => hsuffix⟩

/-- The label of a plain name is legal. -/
theorem isIdentifier_labelCandidate {name : String} (h : isPlain name = true) :
    isIdentifier (labelCandidate name) = true := by
  have hcased : ∀ role, isIdentifier (casing role "" name) = true := by
    intro role
    exact isIdentifier_casing h (by decide)
  simp only [labelCandidate]
  split
  · exact isIdentifier_append (by decide) (isFragment_of_isIdentifier (hcased .type))
  · exact hcased .value

/-- Whether every field of a message is in a oneof that is there, if it is in one. -/
def Message.inRange (message : Message) : Bool :=
  message.fields.all fun field => field.oneof.all fun index => index < message.oneofs.length

/-- Whether every field of a schema is in a oneof that is there, if it is in one. -/
def Schema.inRange (schema : Schema) : Bool :=
  schema.allMessages.all Message.inRange

/-! ## Naming -/

namespace Site

/--
A class of errors that holds those of a plain schema: the errors of claims that are sane, of
enumerations without values, and of fields without a counterpart.
-/
structure CoversFaults (site : Site) (fail : BindingError → Prop) (schema : Schema) : Prop where
  claims : ∀ fullName (sane : Prop), sane → Covers site.settings fail fullName sane
  empty : ∀ enumeration ∈ schema.allEnums, enumeration.values = [] →
    fail (.emptyEnum enumeration.fullName)
  values : ∀ message ∈ schema.allMessages, message.mapEntry = false → ∀ field ∈ message.fields,
    CoversValues fail (site.supports field) ∧
      (field.oneof ≠ none → CoversValues fail field.kind.hasElement)

variable {fail : BindingError → Prop} {schema : Schema}

/-- A class with the faults of a plain schema holds the errors of a message of the schema. -/
theorem CoversFaults.message (hfaults : site.CoversFaults fail schema) {message : Message}
    (hmessage : message ∈ schema.allMessages) (hentry : message.mapEntry = false)
    (hnames : ∀ name ∈ message.names, site.CoversName fail name)
    (hplain : message.isPlain = true) (hrange : message.inRange = true)
    (hsuffix : isFragment site.settings.collisionSuffix = true) :
    site.CoversMessage fail message := by
  simp only [Message.isPlain, Bool.and_eq_true, List.all_eq_true] at hplain
  rcases hplain with ⟨-, hfields, honeofs⟩
  have hvalues := hfaults.values message hmessage hentry
  have hlabel : ∀ {name fullName : String}, isPlainName name fullName = true →
      site.CoversLabel fail name fullName := by
    intro name fullName hname
    rw [isPlainName, Bool.and_eq_true] at hname
    exact hfaults.claims fullName _ ⟨isIdentifier_labelCandidate hname.1, hsuffix⟩
  have hfield : ∀ field ∈ message.fields, site.CoversField fail field := by
    intro field hmem
    exact ⟨hlabel (hfields field hmem), (hvalues field hmem).1⟩
  refine ⟨hnames message.fullName List.mem_cons_self, ?_⟩
  intro slot hslot
  rcases Message.mem_slotsFrom hslot with ⟨field, hmem, rfl⟩ | ⟨field, hmem, index, hindex, -, rfl⟩
  · exact hfield field hmem
  · have hlt : index < message.oneofs.length := by
      have hin := List.all_eq_true.mp hrange field hmem
      rw [hindex] at hin
      exact of_decide_eq_true hin
    have honeof : message.oneofs[index]? = some message.oneofs[index] :=
      List.getElem?_eq_getElem hlt
    rw [Message.oneofSlot, honeof]
    simp only
    split
    · exact ⟨hlabel (hfields field hmem), (hvalues field hmem).2 (by simp [hindex])⟩
    · have hsubset := Message.oneofNames_subset honeof
      refine ⟨hnames _ (hsubset List.mem_cons_self), hlabel (honeofs _ (List.getElem_mem hlt)), ?_⟩
      intro member hmember
      have hname : member.fullName ∈ message.oneofNames message.oneofs[index] index :=
        List.mem_cons_of_mem _ (List.mem_map_of_mem hmember)
      exact ⟨hnames _ (hsubset hname), hfield member (List.mem_filter.mp hmember).1⟩

/-- A class with the faults of a plain schema holds all errors of naming it. -/
theorem CoversFaults.coversAll {package : String} (hfaults : site.CoversFaults fail schema)
    (hregistry : Registry.ofSchema site.settings package schema = .ok site.registry)
    (hplain : schema.isPlain = true) (hrange : schema.inRange = true)
    (hseparator : isFragment site.settings.separator = true)
    (hsuffix : isFragment site.settings.collisionSuffix = true) : site.CoversAll fail := by
  have htypes : site.CoversTypes fail := by
    intro fullName hregistered
    exact hfaults.claims fullName _
      (Site.canName_of_isPlain hregistry hplain hseparator hsuffix hregistered)
  have hnames : ∀ name ∈ site.registry.names, site.CoversName fail name := by
    intro name hname
    apply htypes
    rw [Registry.isRegistered_iff]
    exact (Registry.listed_of_ofSchema hregistry).fullNames_perm.mem_iff.mpr hname
  have hcatalog := Registry.ofSchema_eq_ok_iff.mp hregistry
  simp only [Catalog.names, List.mem_append, List.mem_flatMap] at hnames
  refine ⟨htypes, ?_, ?_, ?_⟩
  · intro enumeration hmem
    have hlisted : enumeration ∈ schema.allEnums := by
      rw [hcatalog] at hmem
      exact (schema.catalog_enums_perm site.settings package).mem_iff.mp hmem
    have hown : ∀ name ∈ enumeration.names, site.CoversName fail name :=
      fun name hname => hnames name (Or.inl ⟨enumeration, hmem, hname⟩)
    refine ⟨hown _ List.mem_cons_self, ?_, hfaults.empty enumeration hlisted⟩
    intro value hvalue
    exact hown _ (List.mem_cons_of_mem _ (List.mem_map_of_mem hvalue))
  · intro message hmem hentry
    have hlisted : message ∈ schema.allMessages := by
      rw [hcatalog] at hmem
      exact (schema.catalog_messages_perm site.settings package).mem_iff.mp hmem
    simp only [Schema.isPlain, Bool.and_eq_true, List.all_eq_true] at hplain
    exact hfaults.message hlisted hentry
      (fun name hname => hnames name (Or.inr (Or.inl ⟨message, hmem, hname⟩)))
      (hplain.2.1 message hlisted) (List.all_eq_true.mp hrange message hlisted) hsuffix
  · intro service hmem method hmethod
    have hname : method.fullName ∈ service.names :=
      List.mem_cons_of_mem _ (List.mem_map_of_mem hmethod)
    exact hnames _ (Or.inr (Or.inr ⟨service, hmem, hname⟩))

/-- Naming a plain schema with legal settings ends in orderly errors only. -/
theorem coversAll_orderly {package : String}
    (hregistry : Registry.ofSchema site.settings package schema = .ok site.registry)
    (hplain : schema.isPlain = true) (hrange : schema.inRange = true)
    (hseparator : isFragment site.settings.separator = true)
    (hsuffix : isFragment site.settings.collisionSuffix = true) :
    site.CoversAll (BindingError.Orderly site.settings) := by
  have hvalues : ∀ supported,
      CoversValues (BindingError.Orderly site.settings) supported := by
    intro supported _ fullName kind
    exact ⟨rfl, fun _ _ h => by contradiction⟩
  have hfaults : site.CoversFaults (BindingError.Orderly site.settings) schema :=
    ⟨fun _ _ hsane => covers_orderly hsane, fun _ _ _ => ⟨rfl, fun _ _ h => by contradiction⟩,
      fun _ _ _ _ _ => ⟨hvalues _, fun _ => hvalues _⟩⟩
  exact hfaults.coversAll hregistry hplain hrange hseparator hsuffix

/-! ## Places -/

/-- The variants of a union have the numbers of the values that become variants. -/
theorem HasUnion.numbers {enumeration : Enumeration} {union : Union}
    (hunion : HasUnion ledger enumeration union) :
    union.variants.map Variant.number =
      (variantValues enumeration.values).map EnumValue.number := by
  rcases hunion.parts with ⟨parts, hparts, hvariants, -⟩
  rw [hvariants, variantValues]
  clear hvariants
  generalize placements enumeration.values = placed at hparts
  induction hparts with
  | nil => rfl
  | cons hpart _ ih =>
      cases hpart with
      | variant hid => exact congrArg _ ih
      | nickname hid => exact ih

/-- The place of an alias is that of a variant with its number. -/
theorem HasUnion.aliased {enumeration : Enumeration} {union : Union} {nickname : VariantAlias}
    (hunion : HasUnion ledger enumeration union) (hnickname : nickname ∈ union.aliases) :
    ∃ variant, union.aliased? nickname = some variant ∧ variant.number = nickname.number := by
  rcases hunion.parts with ⟨parts, hparts, -, haliases⟩
  rw [haliases] at hnickname
  rcases List.mem_filterMap.mp hnickname with ⟨part, hmem, hpart⟩
  rcases exists_of_forall₂_of_mem hparts hmem with ⟨⟨value, place?⟩, hplaced, hhas⟩
  cases hhas with
  | variant hid => simp [UnionPart.alias?] at hpart
  | @nickname _ place id hid =>
      obtain rfl := Option.some.inj hpart
      have hnumber := variantValues_getElem? hplaced
      rw [← hunion.numbers, List.getElem?_map, Option.map_eq_some_iff] at hnumber
      exact hnumber

/-- A union has a variant. -/
theorem HasUnion.variants_ne_nil {enumeration : Enumeration} {union : Union}
    (hunion : HasUnion ledger enumeration union) : union.variants ≠ [] := by
  intro hnil
  have hnumbers := hunion.numbers
  rw [hnil, List.map_nil] at hnumbers
  exact variantValues_ne_nil hunion.nonempty (List.map_eq_nil_iff.mp hnumbers.symm)

/-- The place of the default is that of a variant. -/
theorem HasUnion.defaulted {enumeration : Enumeration} {union : Union}
    (hunion : HasUnion ledger enumeration union) : union.defaultVariant?.isSome = true := by
  have hlt : defaultPlace union.variants < union.variants.length := by
    unfold defaultPlace
    cases hfind : union.variants.findIdx? fun variant => variant.number = 0 with
    | none => exact List.length_pos_iff.mpr hunion.variants_ne_nil
    | some place => exact (List.findIdx?_eq_some_iff_getElem.mp hfind).1
  rw [Union.defaultVariant?, hunion.default, List.getElem?_eq_getElem hlt]
  rfl

end Site

/-! ## Modules -/

/--
Building the module of a plain schema with distinct names breaks no assumption, and refuses a
taken identifier only if there is no suffix.  In a finished module the default of every union
is a variant, and so is what an alias stands for.
-/
theorem buildModule_safe {settings : Settings} {schema : Schema} {registry : Registry}
    (hregistry : Registry.ofSchema settings schema.packageName schema = .ok registry)
    (hplain : schema.isPlain = true) (hrange : schema.inRange = true) :
    (∀ error, buildModule settings schema = .error error → error.Orderly settings) ∧
      ∀ module, buildModule settings schema = .ok module → ∀ union ∈ module.unions,
        union.defaultVariant?.isSome = true ∧
          ∀ nickname ∈ union.aliases, (union.aliased? nickname).isSome = true := by
  constructor
  · intro error h
    cases hcheck : settings.check with
    | error broken =>
        rw [buildModule_of_illegal hcheck, Except.error.injEq] at h
        rw [← h]
        exact ⟨rfl, fun _ _ hcollision => by contradiction⟩
    | ok checked =>
        rw [buildModule_of_registry hcheck hregistry] at h
        rcases isFragment_of_check hcheck with ⟨hseparator, hsuffix⟩
        have hcovers : Site.CoversAll ⟨registry, settings, schema.moduleName settings⟩
            (BindingError.Orderly settings) :=
          Site.coversAll_orderly hregistry hplain hrange hseparator hsuffix
        exact Site.fail_of_build hcovers h
  · intro module h union hmem
    rcases buildModule_eq_ok_iff.mp h with ⟨-, registry', -, hbuild⟩
    rcases Site.definitions_of_build hbuild with ⟨ledger, definitions, -, hdefinitions, rfl⟩
    have hunions := (Sequence.sortedBy_perm _ _).mem_iff.mp hmem
    rcases exists_of_forall₂_of_mem hdefinitions.unions hunions with ⟨enumeration, -, hunion⟩
    refine ⟨hunion.defaulted, ?_⟩
    intro nickname hnickname
    rcases hunion.aliased hnickname with ⟨variant, hvariant, -⟩
    rw [hvariant]
    rfl

/-- A schema with an alias and with a oneof. -/
def lampSchema : Schema where
  enums := [{
    name := "Switch", fullName := "Switch"
    values := [
      { name := "ON", fullName := "ON", number := 1 },
      { name := "YES", fullName := "YES", number := 1 }] }]
  messages := [{
    name := "Lamp", fullName := "Lamp"
    fields := [{
      name := "position", fullName := "Lamp.position", number := 1
      kind := .enumeration { fullName := "Switch" }, oneof := some 0 }]
    oneofs := [{ name := "state", fullName := "Lamp.state" }] }]

/-- Nothing goes wrong in the schema with an alias and with a oneof. -/
theorem buildModule_lampSchema :
    ∃ registry, Registry.ofSchema {} lampSchema.packageName lampSchema = .ok registry ∧
      lampSchema.isPlain = true ∧ lampSchema.inRange = true ∧
      (buildModule {} lampSchema).isOk = true ∧
      (∀ error, buildModule {} lampSchema = .error error → error.Orderly {}) ∧
      ∀ module, buildModule {} lampSchema = .ok module → ∀ union ∈ module.unions,
        union.defaultVariant?.isSome = true ∧
          ∀ nickname ∈ union.aliases, (union.aliased? nickname).isSome = true := by
  have hdistinct : (lampSchema.catalog {} lampSchema.packageName).fullNames.Nodup := by
    decide +kernel
  have hregistry : Registry.ofSchema {} lampSchema.packageName lampSchema =
      .ok ⟨_, hdistinct⟩ := Registry.ofSchema_eq_ok_iff.mpr rfl
  have hplain : lampSchema.isPlain = true := by decide +kernel
  have hrange : lampSchema.inRange = true := by decide +kernel
  have hok : (buildModule {} lampSchema).isOk = true := by decide +kernel
  exact ⟨_, hregistry, hplain, hrange, hok, buildModule_safe hregistry hplain hrange⟩

end ElmBinding
