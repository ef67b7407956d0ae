import ElmBinding.Proofs.Schema.Resolution

/-!
# Types that other names hide

A written name without a leading dot is looked up in the scope where it stands and then in the
scopes around it.  The first name that is declared there decides, also if it is the one of a value
or of a service.  So a name means the innermost type of that name, unless a value or a service of
that name stands in a scope further inside: then the type is hidden, and the name means nothing.

Main results:

- Theorem {lit}`isOuterScope_iff`: the scopes in which a name is looked up.
- Theorem {lit}`searchOutward?_eq_some_iff`: what is found is what the longest scope declares.
- Definition {lit}`InnermostType`: the innermost type of a name, seen from a scope.
- Definition {lit}`Hidden`: whether a value or a service stands further inside.
- Theorem {lit}`linkReference_iff_not_hidden`: a reference is linked to the innermost type if and
  only if the type is not hidden.
-/

namespace ElmBinding

/-! ## Scopes around a scope -/

/-- A scope and all its segments are the scope. -/
theorem leadingSegments_all (scope : String) :
    leadingSegments scope (Text.splitAtChar '.' scope.toList).length = scope := by
  rw [leadingSegments, List.take_length, Text.intercalate_splitAtChar, String.ofList_toList]

/-- The characters of two names with a dot between them. -/
theorem toList_joined (outer inner : String) :
    (outer ++ "." ++ inner).toList = outer.toList ++ '.' :: inner.toList := by
  simp [String.toList_append]

/-- The segments before a dot make up what stands before it. -/
theorem leadingSegments_before (outer inner : String) :
    leadingSegments (outer ++ "." ++ inner) (Text.splitAtChar '.' outer.toList).length = outer := by
  rw [leadingSegments, toList_joined, Text.splitAtChar_append, List.take_left,
    Text.intercalate_splitAtChar, String.ofList_toList]

/-- No segments make up the empty scope. -/
theorem leadingSegments_zero (scope : String) : leadingSegments scope 0 = "" := by
  rw [leadingSegments, List.take_zero]
  rfl

/-- The scopes around a scope are those in which a name is looked up. -/
theorem isOuterScope_iff {outer scope : String} :
    IsOuterScope outer scope ↔ outer ∈ scopesOutward scope := by
  have hmem : ∀ count ≤ (Text.splitAtChar '.' scope.toList).length,
      leadingSegments scope count ∈ scopesOutward scope := fun count hcount =>
    List.mem_map_of_mem (List.mem_reverse.mpr (List.mem_range.mpr (Nat.lt_succ_of_le hcount)))
  constructor
  · rintro (rfl | rfl | ⟨inner, rfl⟩)
    · have hnone := hmem 0 (Nat.zero_le _)
      rwa [leadingSegments_zero] at hnone
    · have hall := hmem _ (Nat.le_refl _)
      rwa [leadingSegments_all] at hall
    · have hbefore := hmem (Text.splitAtChar '.' outer.toList).length (by
        rw [toList_joined, Text.splitAtChar_append, List.length_append]
        exact Nat.le_add_right _ _)
      rwa [leadingSegments_before] at hbefore
  · intro houter
    rcases List.mem_map.mp houter with ⟨count, -, rfl⟩
    exact isOuterScope_leadingSegments scope count

/-- A scope around a scope stands in front of it. -/
theorem IsOuterScope.isPrefix {outer scope : String} (h : IsOuterScope outer scope) :
    outer.toList <+: scope.toList := by
  rcases h with rfl | rfl | ⟨inner, rfl⟩
  · exact List.nil_prefix
  · exact List.prefix_refl _
  · rw [toList_joined]
    exact List.prefix_append _ _

/-- Of two different scopes around a scope one is longer. -/
theorem IsOuterScope.eq_of_length_eq {outer other scope : String} (h : IsOuterScope outer scope)
    (hother : IsOuterScope other scope) (hlength : outer.length = other.length) :
    outer = other := by
  rw [← String.length_toList, ← String.length_toList] at hlength
  have hfront := List.prefix_of_prefix_length_le h.isPrefix hother.isPrefix (Nat.le_of_eq hlength)
  exact String.toList_inj.mp (hfront.eq_of_length hlength)

/-- More segments make up a scope that is not shorter. -/
theorem length_leadingSegments_le (scope : String) {count more : Nat} (h : count ≤ more) :
    (leadingSegments scope count).length ≤ (leadingSegments scope more).length := by
  simp only [leadingSegments, String.length_ofList]
  generalize Text.splitAtChar '.' scope.toList = segments
  have htake := List.take_append_drop count (segments.take more)
  rw [List.take_take, Nat.min_eq_left h] at htake
  by_cases hfront : segments.take count = []
  · rw [hfront]
    exact Nat.zero_le _
  · by_cases hback : (segments.take more).drop count = []
    · rw [hback, List.append_nil] at htake
      exact Nat.le_of_eq (by rw [htake])
    · rw [← htake, intercalate_append hfront hback, List.length_append]
      exact Nat.le_add_right _ _

/-- The scopes around a scope are looked through from the longest to the shortest. -/
theorem pairwise_scopesOutward (scope : String) :
    (scopesOutward scope).Pairwise fun inner outer => outer.length ≤ inner.length := by
  rw [scopesOutward, List.pairwise_map, List.pairwise_reverse]
  exact List.pairwise_lt_range.imp fun hlt => length_leadingSegments_le scope (Nat.le_of_lt hlt)

/-! ## Innermost scopes -/

section Innermost

variable {scope outer other : String} {finds : String → Prop}

/-- The longest scope around a scope in which something is found. -/
structure IsInnermost (scope : String) (finds : String → Prop) (outer : String) : Prop where
  isOuter : IsOuterScope outer scope
  found : finds outer
  longest : ∀ inner, IsOuterScope inner scope → outer.length < inner.length → ¬finds inner

namespace IsInnermost

/-- There is only one innermost scope in which something is found. -/
theorem unique (h : IsInnermost scope finds outer) (hother : IsInnermost scope finds other) :
    outer = other := by
  apply h.isOuter.eq_of_length_eq hother.isOuter
  apply Nat.le_antisymm <;> rw [← Nat.not_lt]
  · exact fun hlt => hother.longest outer h.isOuter hlt h.found
  · exact fun hlt => h.longest other hother.isOuter hlt hother.found

/-- Looking outward, the first scope in which something is found is the innermost one. -/
theorem of_first {front back : List String} (hsplit : scopesOutward scope = front ++ outer :: back)
    (hfound : finds outer) (hfront : ∀ inner ∈ front, ¬finds inner) :
    IsInnermost scope finds outer where
  isOuter := isOuterScope_iff.mpr (by simp [hsplit])
  found := hfound
  longest := by
    intro inner hinner hlt
    have hordered := pairwise_scopesOutward scope
    have hmem := isOuterScope_iff.mp hinner
    rw [hsplit] at hordered hmem
    rcases List.mem_append.mp hmem with hmem | hmem
    · exact hfront inner hmem
    · rcases List.mem_cons.mp hmem with rfl | hback
      · omega
      · have hle := List.rel_of_pairwise_cons (List.pairwise_append.mp hordered).2.1 hback
        omega

end IsInnermost

/-- If something is found in a scope around a scope, there is an innermost one. -/
theorem exists_isInnermost_iff :
    (∃ outer, IsInnermost scope finds outer) ↔ ∃ outer, IsOuterScope outer scope ∧ finds outer := by
  classical
  constructor
  · rintro ⟨outer, h⟩
    exact ⟨outer, h.isOuter, h.found⟩
  · rintro ⟨outer, houter, hfound⟩
    cases hfirst : (scopesOutward scope).find? fun outer => decide (finds outer) with
    | none =>
        have hne := List.find?_eq_none.mp hfirst outer (isOuterScope_iff.mp houter)
        exact absurd (decide_eq_true hfound) hne
    | some first =>
        rcases List.find?_eq_some_iff_append.mp hfirst with ⟨hfound, front, back, hsplit, hfront⟩
        refine ⟨first, .of_first hsplit (of_decide_eq_true hfound) fun inner hinner => ?_⟩
        simpa using hfront inner hinner

end Innermost

/-! ## Looking outward -/

variable {table : List Symbol} {scope name outer : String} {symbol : Symbol}

/-- No symbol is found where no symbol has the name. -/
theorem findSymbol?_eq_none_iff {fullName : String} :
    findSymbol? table fullName = none ↔ fullName ∉ table.map Symbol.name := by
  simp [findSymbol?]

/-- A symbol is found by its name if names are distinct. -/
theorem findSymbol?_eq_some_iff (hdistinct : (table.map Symbol.name).Nodup) {fullName : String} :
    findSymbol? table fullName = some symbol ↔ symbol ∈ table ∧ symbol.name = fullName := by
  constructor
  · intro h
    exact ⟨List.mem_of_find?_eq_some h, by simpa using List.find?_some h⟩
  · rintro ⟨hmem, rfl⟩
    exact findSymbol?_eq_some hdistinct hmem

/-- What is found is what the innermost scope declares in which the name is declared. -/
theorem searchOutward?_eq_some_iff :
    searchOutward? table scope name = some symbol ↔ ∃ outer,
      IsInnermost scope (fun outer => qualify outer name ∈ table.map Symbol.name) outer ∧
        findSymbol? table (qualify outer name) = some symbol := by
  have hfound : ∀ {outer symbol}, findSymbol? table (qualify outer name) = some symbol →
      qualify outer name ∈ table.map Symbol.name := by
    intro outer symbol h
    by_contra habsent
    rw [findSymbol?_eq_none_iff.mpr habsent] at h
    contradiction
  -- The first scope in which a symbol is found is the innermost one.
  have hfirst : ∀ {symbol}, searchOutward? table scope name = some symbol → ∃ outer,
      IsInnermost scope (fun outer => qualify outer name ∈ table.map Symbol.name) outer ∧
        findSymbol? table (qualify outer name) = some symbol := by
    intro symbol h
    rcases List.findSome?_eq_some_iff.mp h with ⟨front, outer, back, hsplit, hsymbol, hnone⟩
    exact ⟨outer, .of_first hsplit (hfound hsymbol) fun inner hinner =>
      findSymbol?_eq_none_iff.mp (hnone inner hinner), hsymbol⟩
  constructor
  · exact hfirst
  · rintro ⟨outer, hinnermost, hsymbol⟩
    cases hsearch : searchOutward? table scope name with
    | none =>
        have habsent := List.findSome?_eq_none_iff.mp hsearch outer
          (isOuterScope_iff.mp hinnermost.isOuter)
        rw [habsent] at hsymbol
        contradiction
    | some found =>
        rcases hfirst hsearch with ⟨other, hother, hfound⟩
        rw [← hsymbol, hinnermost.unique hother, hfound]

/-! ## Types and other names -/

/-- The full names of the values and the services of a schema, which are no types. -/
def Schema.otherNames (schema : Schema) : List String :=
  (schema.allEnums.flatMap Enumeration.values).map EnumValue.fullName ++
    schema.services.map Service.fullName

/-- The declared names are those of the types and the others. -/
theorem Schema.declaredNames_eq (schema : Schema) :
    schema.declaredNames = schema.types.map Symbol.name ++ schema.otherNames := by
  rw [declaredNames, types, otherNames, List.map_append, List.map_map, List.map_map]
  simp only [List.append_assoc]
  rfl

variable {schemas : List Schema}

/-- Whether a scope declares a type of a name. -/
def NamesType (schemas : List Schema) (name outer : String) : Prop :=
  qualify outer name ∈ (schemas.flatMap Schema.types).map Symbol.name

/-- Whether a scope declares a value or a service of a name. -/
def NamesOther (schemas : List Schema) (name outer : String) : Prop :=
  qualify outer name ∈ schemas.flatMap Schema.otherNames

instance (schemas : List Schema) (name outer : String) : Decidable (NamesType schemas name outer) :=
  inferInstanceAs (Decidable (_ ∈ _))

instance (schemas : List Schema) (name outer : String) :
    Decidable (NamesOther schemas name outer) :=
  inferInstanceAs (Decidable (_ ∈ _))

/--
Whether a type of a name in a scope around a scope is hidden: a value or a service of that name
stands further inside.
-/
def Hidden (schemas : List Schema) (scope name outer : String) : Prop :=
  ∃ inner, IsOuterScope inner scope ∧ outer.length < inner.length ∧ NamesOther schemas name inner

/-- The names of symbols are those of types and others. -/
theorem mem_symbolNames_iff {fullName : String} :
    fullName ∈ (schemas.flatMap Schema.symbols).map Symbol.name ↔
      fullName ∈ (schemas.flatMap Schema.types).map Symbol.name ∨
        fullName ∈ schemas.flatMap Schema.otherNames := by
  have hnames : ((schemas.flatMap Schema.symbols).map Symbol.name).Perm
      (schemas.flatMap Schema.declaredNames) := by
    rw [List.map_flatMap]
    exact List.Perm.flatMap_left _ fun schema _ => schema.declaredNames_perm.symm
  rw [hnames.mem_iff]
  simp only [Schema.declaredNames_eq, List.mem_flatMap, List.mem_append, List.map_flatMap]
  constructor
  · rintro ⟨schema, hschema, hname | hname⟩
    · exact Or.inl ⟨schema, hschema, hname⟩
    · exact Or.inr ⟨schema, hschema, hname⟩
  · rintro (⟨schema, hschema, hname⟩ | ⟨schema, hschema, hname⟩)
    · exact ⟨schema, hschema, Or.inl hname⟩
    · exact ⟨schema, hschema, Or.inr hname⟩

/-- The types of schemas are those of their symbols that are types. -/
theorem mem_types_iff : symbol ∈ schemas.flatMap Schema.types ↔
    symbol ∈ schemas.flatMap Schema.symbols ∧ symbol.isType = true := by
  rw [← List.mem_filter, List.filter_flatMap]
  exact (List.Perm.flatMap_left _ fun schema _ => schema.types_perm).mem_iff

/-- A type is not hidden if and only if the first name that is declared is the one of the type. -/
theorem isInnermost_symbolNames_iff :
    IsInnermost scope
        (fun outer => qualify outer name ∈ (schemas.flatMap Schema.symbols).map Symbol.name) outer ∧
      NamesType schemas name outer ↔
    IsInnermost scope (NamesType schemas name) outer ∧ ¬Hidden schemas scope name outer := by
  constructor
  · rintro ⟨h, htype⟩
    refine ⟨⟨h.isOuter, htype, fun inner hinner hlt hinnerType => ?_⟩, ?_⟩
    · exact h.longest inner hinner hlt (mem_symbolNames_iff.mpr (Or.inl hinnerType))
    · rintro ⟨inner, hinner, hlt, hother⟩
      exact h.longest inner hinner hlt (mem_symbolNames_iff.mpr (Or.inr hother))
  · rintro ⟨h, hvisible⟩
    refine ⟨⟨h.isOuter, mem_symbolNames_iff.mpr (Or.inl h.found), fun inner hinner hlt hname => ?_⟩,
      h.found⟩
    rcases mem_symbolNames_iff.mp hname with htype | hother
    · exact h.longest inner hinner hlt htype
    · exact hvisible ⟨inner, hinner, hlt, hother⟩

/-! ## Linking -/

/-- A name without a leading dot means the innermost type of the name that is not hidden. -/
theorem lookupType?_eq_some_iff (htable : symbolTable schemas = .ok table)
    (hrelative : name.toList.head? ≠ some '.') :
    lookupType? table scope name = some symbol ↔ ∃ outer,
      (IsInnermost scope (NamesType schemas name) outer ∧ ¬Hidden schemas scope name outer) ∧
        symbol ∈ schemas.flatMap Schema.types ∧ symbol.name = qualify outer name := by
  rcases symbolTable_eq_ok_iff.mp htable with ⟨rfl, hdistinct⟩
  have hlookup : lookup? (schemas.flatMap Schema.symbols) scope name =
      searchOutward? (schemas.flatMap Schema.symbols) scope name := by
    unfold lookup?
    split
    · rename_i hchars
      rw [hchars] at hrelative
      contradiction
    · rfl
  rw [lookupType?, hlookup, Option.filter_eq_some_iff, searchOutward?_eq_some_iff]
  simp only [findSymbol?_eq_some_iff hdistinct, ← isInnermost_symbolNames_iff, mem_types_iff]
  constructor
  · rintro ⟨⟨outer, hinnermost, hmem, hname⟩, htype⟩
    refine ⟨outer, ⟨hinnermost, ?_⟩, ⟨hmem, htype⟩, hname⟩
    exact List.mem_map.mpr ⟨symbol, mem_types_iff.mpr ⟨hmem, htype⟩, hname⟩
  · rintro ⟨outer, ⟨hinnermost, -⟩, ⟨hmem, htype⟩, hname⟩
    exact ⟨⟨outer, hinnermost, hmem, hname⟩, htype⟩

/--
A reference without a leading dot, in schemas whose symbols are distinct.  There is an innermost
type of its name if and only if there is one of that name in any scope around the scope.  The
reference is linked to that type if and only if no value and no service of the name stands further
inside; otherwise, and where there is no type of the name, it is reported as unresolved.
-/
theorem linkReference_iff_not_hidden (htable : symbolTable schemas = .ok table) (scope : String)
    {reference : Reference} (hrelative : reference.fullName.toList.head? ≠ some '.') :
    ((∃ outer, IsInnermost scope (NamesType schemas reference.fullName) outer) ↔
      ∃ outer, IsOuterScope outer scope ∧ NamesType schemas reference.fullName outer) ∧
    (∀ outer, IsInnermost scope (NamesType schemas reference.fullName) outer →
      ∃ symbol ∈ schemas.flatMap Schema.types, symbol.name = qualify outer reference.fullName ∧
        (linkReference table scope reference = .ok symbol ↔
          ¬Hidden schemas scope reference.fullName outer) ∧
        (linkReference table scope reference = .error (.unresolved reference.fullName scope) ↔
          Hidden schemas scope reference.fullName outer)) ∧
    ((¬∃ outer, IsOuterScope outer scope ∧ NamesType schemas reference.fullName outer) →
      linkReference table scope reference = .error (.unresolved reference.fullName scope)) := by
  have hlink : ∀ {symbol}, lookupType? table scope reference.fullName = some symbol →
      linkReference table scope reference = .ok symbol := by
    intro symbol h
    rw [linkReference, h]
  have hfail : lookupType? table scope reference.fullName = none →
      linkReference table scope reference = .error (.unresolved reference.fullName scope) := by
    intro h
    rw [linkReference, h]
  refine ⟨exists_isInnermost_iff, fun outer houter => ?_, fun hnone => ?_⟩
  · rcases List.mem_map.mp houter.found with ⟨symbol, hmem, hname⟩
    refine ⟨symbol, hmem, hname, ?_⟩
    by_cases hhidden : Hidden schemas scope reference.fullName outer
    · have herror := hfail (Option.eq_none_iff_forall_ne_some.mpr fun found hfound => by
        rcases (lookupType?_eq_some_iff htable hrelative).mp hfound with
          ⟨other, ⟨hother, hvisible⟩, -⟩
        rw [hother.unique houter] at hvisible
        exact hvisible hhidden)
      simp [herror, hhidden]
    · have hok := hlink ((lookupType?_eq_some_iff htable hrelative).mpr
        ⟨outer, ⟨houter, hhidden⟩, hmem, hname⟩)
      simp [hok, hhidden]
  · refine hfail (Option.eq_none_iff_forall_ne_some.mpr fun found hfound => ?_)
    rcases (lookupType?_eq_some_iff htable hrelative).mp hfound with ⟨outer, ⟨houter, -⟩, -⟩
    exact hnone ⟨outer, houter.isOuter, houter.found⟩

/--
The schema of {lit}`message T {} message M { enum E { T = 0; } T t = 1; }`, with the reference
as written.
-/
def hidingSchema : Schema where
  dialect := .proto3
  messages :=
    [{ name := "T", fullName := "T" },
      { name := "M"
        fullName := "M"
        fields := [{ name := "t", fullName := "M.t", number := 1, kind := .message ⟨"T", ""⟩ }]
        enums := [{ name := "E", fullName := "M.E", values := [⟨"T", "M.T", 0, {}⟩] }] }]

/-- The value hides the message from the field, and the message is seen outside. -/
theorem linkReference_hidingSchema :
    symbolTable [hidingSchema] = .ok hidingSchema.symbols ∧
    IsInnermost "M" (NamesType [hidingSchema] "T") "" ∧ Hidden [hidingSchema] "M" "T" "" ∧
    linkReference hidingSchema.symbols "M" ⟨"T", ""⟩ = .error (.unresolved "T" "M") ∧
    (∃ symbol ∈ [hidingSchema].flatMap Schema.types, symbol.name = "T" ∧
      linkReference hidingSchema.symbols "" ⟨"T", ""⟩ = .ok symbol) ∧
    linkReference hidingSchema.symbols "M" ⟨"U", ""⟩ = .error (.unresolved "U" "M") := by
  have htable : symbolTable [hidingSchema] = .ok hidingSchema.symbols := by decide +kernel
  have hinnermost : IsInnermost "M" (NamesType [hidingSchema] "T") "" :=
    @IsInnermost.of_first _ _ _ ["M"] [] (by decide +kernel) (by decide +kernel)
      (by decide +kernel)
  have hhidden : Hidden [hidingSchema] "M" "T" "" :=
    ⟨"M", Or.inr (Or.inl rfl), by decide, by decide +kernel⟩
  have houtside : IsInnermost "" (NamesType [hidingSchema] "T") "" :=
    @IsInnermost.of_first _ _ _ [] [""] (by decide +kernel) (by decide +kernel) (by simp)
  have hseen : ¬Hidden [hidingSchema] "" "T" "" := by
    rintro ⟨inner, hinner, hlt, -⟩
    have hlength := hinner.isPrefix.length_le
    rw [String.length_toList, String.length_toList] at hlength
    omega
  have hnone : ¬∃ outer, IsOuterScope outer "M" ∧ NamesType [hidingSchema] "U" outer := by
    rintro ⟨outer, houter, htype⟩
    have hall : ∀ outer ∈ scopesOutward "M", ¬NamesType [hidingSchema] "U" outer := by
      decide +kernel
    exact hall outer (isOuterScope_iff.mp houter) htype
  have hfield := linkReference_iff_not_hidden htable "M"
    (show (⟨"T", ""⟩ : Reference).fullName.toList.head? ≠ some '.' by decide)
  have hplain := linkReference_iff_not_hidden htable ""
    (show (⟨"T", ""⟩ : Reference).fullName.toList.head? ≠ some '.' by decide)
  have hmissing := linkReference_iff_not_hidden htable "M"
    (show (⟨"U", ""⟩ : Reference).fullName.toList.head? ≠ some '.' by decide)
  rcases hfield.2.1 "" hinnermost with ⟨-, -, -, -, herror⟩
  rcases hplain.2.1 "" houtside with ⟨symbol, hmem, hname, hok, -⟩
  exact ⟨htable, hinnermost, hhidden, herror.mpr hhidden, ⟨symbol, hmem, hname, hok.mpr hseen⟩,
    hmissing.2.2 hnone⟩

end ElmBinding
