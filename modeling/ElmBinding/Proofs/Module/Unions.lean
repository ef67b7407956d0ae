import ElmBinding.Proofs.Module.Completeness
import ElmBinding.Proofs.Module.Safety
import Mathlib.Data.List.Induction

/-!
# Which values of an enumeration are variants

A value is a variant of the union if no value before it has its number, and an alias if some
value before it has.  Both kinds keep the order of the declaration.  The places that aliases
carry and the place of the default are places among the variants, which the placing of values
keeps in step with the numbers of the variants so far.

Main results:

- Definitions {lit}`firstValues`, {lit}`repeatValues`: the two kinds of values, by the numbers
  before them.
- Definition {lit}`Union.Enumerates`: unions that hold the values of an enumeration.
- Theorem {lit}`placements_concat`: where one more value is placed.
- Theorem {lit}`placed_values`: where the values of an enumeration are placed.
- Theorem {lit}`buildModule_enumerates`: every union of a module enumerates its values.
-/

namespace ElmBinding

variable {values : List EnumValue} {value : EnumValue} {entry : EnumValue × Nat}

/-! ## Values by the numbers before them -/

/-- Whether some value before the place of a value has its number. -/
def isRepeat (values : List EnumValue) (entry : EnumValue × Nat) : Bool :=
  ((values.take entry.2).map EnumValue.number).contains entry.1.number

/-- The values whose number no value before them has, with their places in the enumeration. -/
def firstValues (values : List EnumValue) : List (EnumValue × Nat) :=
  values.zipIdx.filter fun entry => !isRepeat values entry

/-- The values whose number some value before them has, with their places in the enumeration. -/
def repeatValues (values : List EnumValue) : List (EnumValue × Nat) :=
  values.zipIdx.filter fun entry => isRepeat values entry

/-- An alias that stands for the first value with the number of a repeated one. -/
structure VariantAlias.Repeats (nickname : VariantAlias) (values : List EnumValue)
    (entry : EnumValue × Nat) : Prop where
  outline : nickname.outline = entry.1.outline
  first : ∃ first, (firstValues values)[nickname.variant]? = some first ∧
    first.1.number = entry.1.number ∧ first.2 < entry.2

/--
A union whose variants are the values of an enumeration with new numbers, and whose aliases are
the other values, both in the order of the declaration.
-/
structure Union.Enumerates (union : Union) (enumeration : Enumeration) : Prop where
  nonempty : union.variants ≠ []
  variants : union.variants.map Variant.outline =
    (firstValues enumeration.values).map fun entry => entry.1.outline
  aliases : List.Forall₂ (fun entry nickname => nickname.Repeats enumeration.values entry)
    (repeatValues enumeration.values) union.aliases
  aliased : ∀ nickname ∈ union.aliases, ∃ variant,
    union.variants[nickname.variant]? = some variant ∧ variant.number = nickname.number
  distinct : (union.variants.map Variant.number).Nodup
  zero : ∀ place variant, union.variants[place]? = some variant → variant.number = 0 →
    union.default = place
  noZero : (∀ variant ∈ union.variants, variant.number ≠ 0) → union.default = 0
  comments : union.comments = enumeration.comments

/-- What stands behind a value has no part in whether it is repeated. -/
theorem isRepeat_append {rest : List EnumValue} (hentry : entry ∈ values.zipIdx) :
    isRepeat (values ++ rest) entry = isRepeat values entry := by
  have hplace : entry.2 ≤ values.length := Nat.le_of_lt (List.snd_lt_of_mem_zipIdx hentry)
  rw [isRepeat, isRepeat, List.take_append_of_le_length hplace]

/-- A value at the end is repeated if its number occurs. -/
theorem isRepeat_last (values : List EnumValue) (value : EnumValue) :
    isRepeat (values ++ [value]) (value, values.length) =
      (values.map EnumValue.number).contains value.number := by
  rw [isRepeat, List.take_left]

/-- One more value is kept by whether its number occurs, and the others as they were. -/
theorem filter_isRepeat_concat (keep : Bool → Bool) (values : List EnumValue)
    (value : EnumValue) :
    (values ++ [value]).zipIdx.filter (fun entry => keep (isRepeat (values ++ [value]) entry)) =
      values.zipIdx.filter (fun entry => keep (isRepeat values entry)) ++
        if keep ((values.map EnumValue.number).contains value.number) then
          [(value, values.length)]
        else [] := by
  rw [List.zipIdx_append, List.filter_append]
  congr 1
  · exact List.filter_congr fun entry hentry => by rw [isRepeat_append hentry]
  · rw [List.zipIdx_singleton, Nat.zero_add, List.filter_singleton, isRepeat_last, Bool.cond_eq_ite]

/-- One more value is a first one if its number is new. -/
theorem firstValues_concat (values : List EnumValue) (value : EnumValue) :
    firstValues (values ++ [value]) = firstValues values ++
      if (values.map EnumValue.number).contains value.number then []
      else [(value, values.length)] := by
  rw [firstValues, filter_isRepeat_concat not, firstValues]
  cases (values.map EnumValue.number).contains value.number <;> rfl

/-- One more value is a repeated one if its number occurs. -/
theorem repeatValues_concat (values : List EnumValue) (value : EnumValue) :
    repeatValues (values ++ [value]) = repeatValues values ++
      if (values.map EnumValue.number).contains value.number then [(value, values.length)]
      else [] :=
  filter_isRepeat_concat id values value

/-- The numbers of the first values are all numbers of an enumeration. -/
theorem mem_numbers_firstValues {number : Int} :
    number ∈ (firstValues values).map (fun entry => entry.1.number) ↔
      number ∈ values.map EnumValue.number := by
  induction values using List.reverseRecOn with
  | nil => rfl
  | append_singleton earlier value ih =>
      rw [firstValues_concat, List.map_append, List.mem_append, ih, List.map_append,
        List.mem_append]
      split
      · rename_i hknown
        have hmem := List.contains_iff_mem.mp hknown
        simp only [List.map_nil, List.not_mem_nil, or_false, List.map_cons, List.mem_cons]
        constructor
        · exact Or.inl
        · rintro (hearlier | rfl)
          · exact hearlier
          · exact hmem
      · rfl

/-- The first values have distinct numbers. -/
theorem nodup_numbers_firstValues (values : List EnumValue) :
    ((firstValues values).map fun entry => entry.1.number).Nodup := by
  induction values using List.reverseRecOn with
  | nil => exact List.nodup_nil
  | append_singleton earlier value ih =>
      rw [firstValues_concat]
      split
      · rw [List.append_nil]
        exact ih
      · rename_i hnew
        rw [List.map_append, List.nodup_append']
        refine ⟨ih, List.nodup_singleton _, ?_⟩
        intro number hearlier hlast
        obtain rfl := List.mem_singleton.mp hlast
        exact hnew (List.contains_iff_mem.mpr (mem_numbers_firstValues.mp hearlier))

/-- The place of the first value with a number among the first values. -/
def firstPlace? (values : List EnumValue) (number : Int) : Option Nat :=
  (firstValues values).findIdx? fun first => first.1.number = number

/-- A number has a first value if it occurs. -/
theorem isSome_firstPlace? (values : List EnumValue) (number : Int) :
    (firstPlace? values number).isSome = (values.map EnumValue.number).contains number := by
  rw [Bool.eq_iff_iff, List.contains_iff_mem, ← mem_numbers_firstValues, firstPlace?,
    List.findIdx?_isSome, List.any_eq_true, List.mem_map]
  simp only [decide_eq_true_eq]

/-- The first value with a number stands at its place, before the end of the enumeration. -/
theorem exists_first_of_firstPlace? {number : Int} {place : Nat}
    (h : firstPlace? values number = some place) :
    ∃ first, (firstValues values)[place]? = some first ∧ first.1.number = number ∧
      first.2 < values.length := by
  rcases List.findIdx?_eq_some_iff_getElem.mp h with ⟨hlt, heq, -⟩
  refine ⟨_, List.getElem?_eq_getElem hlt, of_decide_eq_true heq, ?_⟩
  exact List.snd_lt_of_mem_zipIdx (List.mem_of_mem_filter (List.getElem_mem hlt))

/-! ## Placing -/

/-- One more value is looked up among the numbers of the variants so far. -/
theorem placementsFrom_concat (numbers : List Int) (values : List EnumValue)
    (value : EnumValue) :
    placementsFrom numbers (values ++ [value]) = placementsFrom numbers values ++
      [(value, (numbers ++ ((placementsFrom numbers values).filterMap freshValue?).map
        EnumValue.number).findIdx? fun number => number = value.number)] := by
  induction values generalizing numbers with
  | nil =>
      simp only [List.nil_append, placementsFrom, List.filterMap_nil, List.map_nil,
        List.append_nil]
      split
      · rename_i hfind
        rw [hfind]
      · rename_i hfind
        rw [hfind]
  | cons head rest ih =>
      rw [List.cons_append]
      unfold placementsFrom
      split
      · rename_i found hfind
        have hskip : freshValue? (head, some found) = none := rfl
        rw [ih, List.filterMap_cons_none hskip, List.cons_append]
      · have hkeep : freshValue? (head, none) = some head := rfl
        rw [ih, List.filterMap_cons_some hkeep, List.map_cons, List.append_assoc,
          List.singleton_append, List.cons_append]

/-- One more value is looked up among the variants so far. -/
theorem placements_concat (values : List EnumValue) (value : EnumValue) :
    placements (values ++ [value]) = placements values ++
      [(value, (variantValues values).findIdx? fun variant => variant.number = value.number)] := by
  have hstep := placementsFrom_concat [] values value
  rw [List.nil_append, List.findIdx?_map] at hstep
  exact hstep

/-- The values that become variants are the first ones with their numbers. -/
theorem variantValues_eq (values : List EnumValue) :
    variantValues values = (firstValues values).map Prod.fst := by
  induction values using List.reverseRecOn with
  | nil => rfl
  | append_singleton earlier value ih =>
      have hfind : (variantValues earlier).findIdx? (fun variant => variant.number = value.number) =
          firstPlace? earlier value.number := by
        rw [ih, List.findIdx?_map]
        rfl
      have hsome := isSome_firstPlace? earlier value.number
      rw [variantValues, placements_concat, hfind, List.filterMap_append, ← variantValues, ih,
        firstValues_concat, List.map_append, ← hsome]
      cases firstPlace? earlier value.number <;> rfl

/-- One more value carries the place of the first value with its number, if there is one. -/
theorem placements_concat_firstPlace? (values : List EnumValue) (value : EnumValue) :
    placements (values ++ [value]) =
      placements values ++ [(value, firstPlace? values value.number)] := by
  rw [placements_concat, variantValues_eq, List.findIdx?_map]
  rfl

/-- A placed value that becomes an alias, with the place that it carries. -/
def carriedPlace? (placed : EnumValue × Option Nat) : Option (EnumValue × Nat) :=
  placed.2.map fun place => (placed.1, place)

/-- A place among the first values is that of an earlier value with the number of a repeated one. -/
def PointsBack (values : List EnumValue) (entry carried : EnumValue × Nat) : Prop :=
  carried.1 = entry.1 ∧ ∃ first, (firstValues values)[carried.2]? = some first ∧
    first.1.number = entry.1.number ∧ first.2 < entry.2

/-- A place still points back if the enumeration has one more value. -/
theorem PointsBack.concat {carried : EnumValue × Nat} (h : PointsBack values entry carried)
    (value : EnumValue) : PointsBack (values ++ [value]) entry carried := by
  rcases h with ⟨hvalue, first, hfirst, hrest⟩
  refine ⟨hvalue, first, ?_, hrest⟩
  rw [firstValues_concat, List.getElem?_append_left (List.getElem?_eq_some_iff.mp hfirst).1]
  exact hfirst

/-- The repeated values carry the places of the first values with their numbers. -/
theorem pointsBack_placements (values : List EnumValue) :
    List.Forall₂ (PointsBack values) (repeatValues values)
      ((placements values).filterMap carriedPlace?) := by
  induction values using List.reverseRecOn with
  | nil => exact .nil
  | append_singleton earlier value ih =>
      have hkept : List.Forall₂ (PointsBack (earlier ++ [value])) (repeatValues earlier)
          ((placements earlier).filterMap carriedPlace?) :=
        ih.imp fun _ _ hpoints => hpoints.concat value
      rw [repeatValues_concat, placements_concat_firstPlace?, List.filterMap_append,
        ← isSome_firstPlace?]
      apply List.rel_append hkept
      cases hplace : firstPlace? earlier value.number with
      | none => exact .nil
      | some place =>
          rcases exists_first_of_firstPlace? hplace with ⟨first, hfirst, hnumber, hbefore⟩
          have hpoints : PointsBack earlier (value, earlier.length) (value, place) :=
            ⟨rfl, first, hfirst, hnumber, hbefore⟩
          exact .cons (hpoints.concat value) .nil

/-! ## Unions -/

namespace Site

variable {ledger : Ledger} {enumeration : Enumeration} {union : Union}

/-- The variants of a union hold the first values of its enumeration. -/
theorem HasUnion.variantOutlines (hunion : HasUnion ledger enumeration union) :
    union.variants.map Variant.outline =
      (firstValues enumeration.values).map fun entry => entry.1.outline := by
  rcases hunion.parts with ⟨parts, hparts, hvariants, -⟩
  have hfirst : (firstValues enumeration.values).map (fun entry => entry.1.outline) =
      (variantValues enumeration.values).map EnumValue.outline := by
    rw [variantValues_eq, List.map_map]
    rfl
  rw [hvariants, hfirst, variantValues]
  clear hvariants hfirst
  generalize placements enumeration.values = placed at hparts
  induction hparts with
  | nil => rfl
  | cons hpart _ ih =>
      cases hpart with
      | variant hid => exact congrArg _ ih
      | nickname hid => exact ih

/-- The aliases of a union hold values together with the places that these carry. -/
theorem HasUnion.aliasOutlines (hunion : HasUnion ledger enumeration union) :
    union.aliases.map (fun nickname => (nickname.outline, nickname.variant)) =
      ((placements enumeration.values).filterMap carriedPlace?).map fun carried =>
        (carried.1.outline, carried.2) := by
  rcases hunion.parts with ⟨parts, hparts, -, haliases⟩
  rw [haliases]
  clear haliases
  generalize placements enumeration.values = placed at hparts
  induction hparts with
  | nil => rfl
  | cons hpart _ ih =>
      cases hpart with
      | variant hid => exact ih
      | nickname hid => exact congrArg _ ih

/-- The aliases of a union repeat first values of its enumeration. -/
theorem HasUnion.repeats (hunion : HasUnion ledger enumeration union) :
    List.Forall₂ (fun entry nickname => nickname.Repeats enumeration.values entry)
      (repeatValues enumeration.values) union.aliases := by
  have houtlines : List.Forall₂
      (fun entry outlined => PointsBack enumeration.values entry (entry.1, outlined.2) ∧
        outlined.1 = entry.1.outline)
      (repeatValues enumeration.values)
      (union.aliases.map fun nickname => (nickname.outline, nickname.variant)) := by
    rw [hunion.aliasOutlines, List.forall₂_map_right_iff]
    apply (pointsBack_placements enumeration.values).imp
    rintro entry carried ⟨hvalue, hfirst⟩
    exact ⟨⟨rfl, hfirst⟩, congrArg EnumValue.outline hvalue⟩
  rw [List.forall₂_map_right_iff] at houtlines
  apply houtlines.imp
  rintro entry nickname ⟨⟨-, hfirst⟩, houtline⟩
  exact ⟨houtline, hfirst⟩

/-- The variants of a union have the numbers of the first values. -/
theorem HasUnion.numbers_eq (hunion : HasUnion ledger enumeration union) :
    union.variants.map Variant.number =
      (firstValues enumeration.values).map fun entry => entry.1.number := by
  rw [hunion.numbers, variantValues_eq, List.map_map]
  rfl

end Site

/-- If numbers are distinct, the default is the place of the variant with the number zero. -/
theorem defaultPlace_eq {variants : List Variant} (hdistinct : (variants.map Variant.number).Nodup)
    {place : Nat} {variant : Variant} (hplace : variants[place]? = some variant)
    (hzero : variant.number = 0) : defaultPlace variants = place := by
  rcases List.getElem?_eq_some_iff.mp hplace with ⟨hlt, rfl⟩
  have hfind : variants.findIdx? (fun variant => variant.number = 0) = some place := by
    refine List.findIdx?_eq_some_iff_getElem.mpr ⟨hlt, decide_eq_true hzero, ?_⟩
    intro earlier hearlier hother
    have hbound : earlier < variants.length := Nat.lt_trans hearlier hlt
    have hnumbers : (variants.map Variant.number)[earlier]? =
        (variants.map Variant.number)[place]? := by
      rw [List.getElem?_map, List.getElem?_map, hplace, List.getElem?_eq_getElem hbound]
      exact congrArg some ((of_decide_eq_true hother).trans hzero.symm)
    rw [← List.length_map Variant.number] at hbound
    exact Nat.ne_of_lt hearlier ((List.getElem?_inj hbound hdistinct).mp hnumbers)
  rw [defaultPlace, hfind]
  rfl

/-- Without the number zero the default is the first place. -/
theorem defaultPlace_of_forall {variants : List Variant}
    (hnone : ∀ variant ∈ variants, variant.number ≠ 0) : defaultPlace variants = 0 := by
  have hfind : variants.findIdx? (fun variant => variant.number = 0) = none := by
    rw [List.findIdx?_eq_none_iff]
    intro variant hvariant
    exact decide_eq_false (hnone variant hvariant)
  rw [defaultPlace, hfind]
  rfl

/-- A union enumerates the values of its enumeration. -/
theorem Site.HasUnion.enumerates {ledger : Ledger} {enumeration : Enumeration} {union : Union}
    (hunion : HasUnion ledger enumeration union) : union.Enumerates enumeration := by
  have hdistinct : (union.variants.map Variant.number).Nodup := by
    rw [hunion.numbers_eq]
    exact nodup_numbers_firstValues enumeration.values
  exact {
    nonempty := hunion.variants_ne_nil
    variants := hunion.variantOutlines
    aliases := hunion.repeats
    aliased := fun nickname hnickname => hunion.aliased hnickname
    distinct := hdistinct
    zero := by
      intro place variant hplace hzero
      rw [hunion.default, defaultPlace_eq hdistinct hplace hzero]
    noZero := by
      intro hnone
      rw [hunion.default, defaultPlace_of_forall hnone]
    comments := hunion.comments }

/-! ## Modules -/

/--
The unions of a module stand for the enumerations of its schema one to one, and each of them
enumerates the values of its enumeration.
-/
theorem buildModule_enumerates {settings : Settings} {schema : Schema} {module : Module}
    (h : buildModule settings schema = .ok module) :
    ∃ layout, layoutOf settings schema = .ok layout ∧
      Pairing schema.allEnums module.unions layout.unions ∧
      ∀ pair ∈ layout.unions, pair.2.Enumerates pair.1 := by
  rcases exists_layout h with ⟨layout, site, ledger, horigin⟩
  exact ⟨layout, horigin.layout_eq, horigin.lists.unions,
    fun pair hpair => (horigin.stems.unions pair hpair).enumerates⟩

/-- A schema with negative, repeated and unordered numbers, in which zero comes late. -/
def tideSchema : Schema where
  enums := [{
    name := "Tide", fullName := "Tide", comments := { leading := "How high the sea is." }
    values := [
      { name := "EBB", fullName := "EBB", number := -2 },
      { name := "FLOOD", fullName := "FLOOD", number := 7, comments := { trailing := "Rising." } },
      { name := "LOW", fullName := "LOW", number := -2 },
      { name := "SLACK", fullName := "SLACK", number := 0 },
      { name := "STILL", fullName := "STILL", number := 0 },
      { name := "NEAP", fullName := "NEAP", number := -2 }] }]
  messages := [{
    name := "Coast", fullName := "Coast"
    enums := [{
      name := "Side", fullName := "Coast.Side"
      values := [{ name := "EAST", fullName := "Coast.EAST", number := 3 }] }] }]

/-- The unions of the schema with repeated numbers enumerate its values. -/
theorem buildModule_tideSchema :
    ∃ module, buildModule {} tideSchema = .ok module ∧
      ∃ layout, layoutOf {} tideSchema = .ok layout ∧
        Pairing tideSchema.allEnums module.unions layout.unions ∧
        ∀ pair ∈ layout.unions, pair.2.Enumerates pair.1 := by
  have hok : (buildModule {} tideSchema).isOk = true := by decide +kernel
  cases hmodule : buildModule {} tideSchema with
  | error error =>
      rw [hmodule] at hok
      contradiction
  | ok module => exact ⟨module, rfl, buildModule_enumerates hmodule⟩

end ElmBinding
