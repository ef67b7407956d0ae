import ElmBinding.Module.Basic
import ElmBinding.Naming.Ledger

/-!
# Unions of enumerations

The first value of an enumeration with some number is a variant of its union.  A later
value with that number is an alias, which stands for the variant.  Variants and aliases are
named in the order of the values.

Main definitions:

- Definition {lit}`placements`: which values are variants and which stand for one.
- Definition {lit}`Site.union`: the union of an enumeration.
-/

namespace ElmBinding

/--
The values of an enumeration, where some numbers have variants already; each comes with
the place of the variant that it stands for, if it is an alias.
-/
def placementsFrom (numbers : List Int) : List EnumValue → List (EnumValue × Option Nat)
  | [] => []
  | value :: rest =>
      match numbers.findIdx? fun number => number = value.number with
      | some place => (value, some place) :: placementsFrom numbers rest
      | none => (value, none) :: placementsFrom (numbers ++ [value.number]) rest

/-- The values of an enumeration, with the places of the variants that aliases stand for. -/
def placements (values : List EnumValue) : List (EnumValue × Option Nat) :=
  placementsFrom [] values

/-- A named value of an enumeration. -/
inductive UnionPart where
  | variant (variant : Variant)
  | nickname (nickname : VariantAlias)
deriving DecidableEq, Repr

/-- The variant of a part. -/
def UnionPart.variant? : UnionPart → Option Variant
  | variant part => some part
  | nickname _ => none

/-- The alias of a part. -/
def UnionPart.alias? : UnionPart → Option VariantAlias
  | variant _ => none
  | nickname part => some part

/-- Name a value: a variant like a type, an alias like a value. -/
def Site.unionPart (site : Site) : EnumValue × Option Nat → Naming UnionPart
  | (value, none) => do
      let id ← site.typeId value.fullName
      return .variant {
        id, label := value.name, number := value.number, comments := value.comments }
  | (value, some place) => do
      let id ← site.valueId value.fullName
      return .nickname {
        id, label := value.name, number := value.number, variant := place
        comments := value.comments }

/-- The place of the variant with number zero, or else of the first one. -/
def defaultPlace (variants : List Variant) : Nat :=
  (variants.findIdx? fun variant => variant.number = 0).getD 0

/-- The union of an enumeration, which needs a value. -/
def Site.union (site : Site) (enumeration : Enumeration) : Naming Union :=
  if enumeration.values.isEmpty then
    throw (.emptyEnum enumeration.fullName)
  else do
    let binding ← site.binding enumeration.fullName
    let parts ← (placements enumeration.values).mapM site.unionPart
    let variants := parts.filterMap UnionPart.variant?
    return {
      binding, variants
      default := defaultPlace variants
      aliases := parts.filterMap UnionPart.alias?
      comments := enumeration.comments }

end ElmBinding
