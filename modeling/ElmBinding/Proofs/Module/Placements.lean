import ElmBinding.Module.Union
import Mathlib.Data.List.Basic

/-!
# Where the values of an enumeration are placed

The values are placed one by one.  A value with a new number becomes a variant, and its place
is behind the variants so far.  Any other value stands for the variant with its number, which
was placed before.

Main results:

- Theorem {lit}`map_fst_placements`: every value is placed, in the order of declaration.
- Definition {lit}`variantValues`: the values that become variants.
- Theorem {lit}`variantValues_getElem?`: the place of an alias is that of a variant with its
  number.
-/

namespace ElmBinding

variable {numbers : List Int} {values : List EnumValue} {value : EnumValue} {place : Nat}

/-- A placed value that becomes a variant. -/
def freshValue? (placed : EnumValue × Option Nat) : Option EnumValue :=
  if placed.2.isNone then some placed.1 else none

/-- The values of an enumeration that become variants. -/
def variantValues (values : List EnumValue) : List EnumValue :=
  (placements values).filterMap freshValue?

/-- Every value is placed, in the order of declaration. -/
theorem map_fst_placementsFrom (numbers : List Int) (values : List EnumValue) :
    (placementsFrom numbers values).map Prod.fst = values := by
  induction values generalizing numbers with
  | nil => rfl
  | cons value rest ih =>
      unfold placementsFrom
      split
      · rw [List.map_cons, ih]
      · rw [List.map_cons, ih]

/-- Every value is placed, in the order of declaration. -/
theorem map_fst_placements (values : List EnumValue) :
    (placements values).map Prod.fst = values :=
  map_fst_placementsFrom [] values

/-- What is placed is a value of the enumeration. -/
theorem mem_of_mem_placements {placed : EnumValue × Option Nat} (h : placed ∈ placements values) :
    placed.1 ∈ values := by
  rw [← map_fst_placements values]
  exact List.mem_map_of_mem h

/-- The place of an alias is that of its number among the numbers of variants. -/
theorem numbers_getElem?_of_mem_placementsFrom
    (h : (value, some place) ∈ placementsFrom numbers values) :
    (numbers ++ ((placementsFrom numbers values).filterMap freshValue?).map
      EnumValue.number)[place]? = some value.number := by
  induction values generalizing numbers with
  | nil => simp [placementsFrom] at h
  | cons head rest ih =>
      unfold placementsFrom at h ⊢
      cases hfind : numbers.findIdx? fun number => number = head.number with
      | some found =>
          rw [hfind] at h
          simp only at h ⊢
          have hskip : freshValue? (head, some found) = none := rfl
          rw [List.filterMap_cons_none hskip]
          rcases List.mem_cons.mp h with hhead | hrest
          · rcases Prod.mk.inj hhead with ⟨rfl, hplace⟩
            obtain rfl := Option.some.inj hplace
            rcases List.findIdx?_eq_some_iff_getElem.mp hfind with ⟨hlt, heq, -⟩
            rw [List.getElem?_append_left hlt, List.getElem?_eq_getElem hlt]
            simpa using heq
          · exact ih hrest
      | none =>
          rw [hfind] at h
          simp only at h ⊢
          have hkeep : freshValue? (head, none) = some head := rfl
          rw [List.filterMap_cons_some hkeep, List.map_cons]
          rcases List.mem_cons.mp h with hhead | hrest
          · simp at hhead
          · have htail := ih hrest
            rw [List.append_assoc] at htail
            exact htail

/-- The place of an alias is that of a variant with its number. -/
theorem variantValues_getElem? (h : (value, some place) ∈ placements values) :
    ((variantValues values).map EnumValue.number)[place]? = some value.number := by
  have hplace := numbers_getElem?_of_mem_placementsFrom h
  rw [List.nil_append] at hplace
  exact hplace

/-- The first value of an enumeration becomes a variant. -/
theorem variantValues_ne_nil (h : values ≠ []) : variantValues values ≠ [] := by
  cases values with
  | nil => contradiction
  | cons head rest => simp [variantValues, placements, placementsFrom, freshValue?]

end ElmBinding
