import ElmBinding.Naming.Ledger
import Mathlib.Data.List.Nodup

/-!
# Sound ledgers

A ledger gives out an identifier for a use of a declaration: its type name, its value name,
or one of the four names derived from them.  A ledger is sound if no identifier serves two
uses, whether of one declaration or of two, and if every identifier is legal and none of the
reserved words.  Growing a ledger by identifiers that are claimed and not in use keeps it
sound.

Main results:

- Definition {lit}`Ledger.id?`: the identifier given out for a use of a declaration.
- Definition {lit}`Ledger.Sound`: the invariant of ledgers.
- Definition {lit}`Ledger.Extends`: ledgers that keep what another one has given out.
- Theorem {lit}`Ledger.Sound.of_gains`: a ledger stays sound when it gains spare identifiers.
-/

namespace ElmBinding

open Name

/-- What an identifier of a declaration is used for. -/
inductive Use where
  /-- The type name. -/
  | typeName
  /-- The value name. -/
  | valueName
  | zero
  | decoder
  | encoder
  | fuzzer
deriving DecidableEq, Repr

namespace Ledger

variable {settings : Settings} {ledger after : Ledger} {fullName id : String}

/-- The identifier given out for a use of a declaration. -/
def id? (ledger : Ledger) (fullName : String) : Use → Option String
  | .typeName => ledger.typeIds.lookup fullName
  | .valueName => ledger.valueIds.lookup fullName
  | .zero => (ledger.bindings.lookup fullName).map Binding.zero
  | .decoder => (ledger.bindings.lookup fullName).map Binding.decoder
  | .encoder => (ledger.bindings.lookup fullName).map Binding.encoder
  | .fuzzer => (ledger.bindings.lookup fullName).map Binding.fuzzer

/-! ## Soundness -/

/-- The invariant of the ledgers that naming goes through. -/
structure Sound (settings : Settings) (ledger : Ledger) : Prop where
  suffix_eq : ledger.taken.suffix = settings.collisionSuffix
  reserved_taken : ∀ word ∈ reservedWords, word ∈ ledger.taken.claimed
  taken_of_id : ∀ {fullName use id}, ledger.id? fullName use = some id →
    id ∈ ledger.taken.claimed
  legal_of_id : ∀ {fullName use id}, ledger.id? fullName use = some id → isIdentifier id = true
  unreserved_of_id : ∀ {fullName use id}, ledger.id? fullName use = some id → id ∉ reservedWords
  id_injective : ∀ {fullName other use use' id}, ledger.id? fullName use = some id →
    ledger.id? other use' = some id → fullName = other ∧ use = use'
  type_of_binding : ∀ {fullName binding}, ledger.bindings.lookup fullName = some binding →
    ledger.typeIds.lookup fullName = some binding.id
  local_of_binding : ∀ {fullName binding}, ledger.bindings.lookup fullName = some binding →
    binding.module = none

/-- The type names of a sound ledger are legal. -/
theorem Sound.legal_of_typeId (hsound : ledger.Sound settings)
    (h : ledger.typeIds.lookup fullName = some id) : isIdentifier id = true := by
  have hid : ledger.id? fullName .typeName = some id := h
  exact hsound.legal_of_id hid

/-- The blank ledger is sound. -/
theorem sound_blank (settings : Settings) : (Ledger.blank settings).Sound settings := by
  have hid : ∀ {fullName use id}, (Ledger.blank settings).id? fullName use ≠ some id := by
    intro fullName use id
    cases use <;> simp [id?, Ledger.blank]
  exact {
    suffix_eq := rfl
    reserved_taken := fun _ hword => hword
    taken_of_id := fun h => absurd h hid
    legal_of_id := fun h => absurd h hid
    unreserved_of_id := fun h => absurd h hid
    id_injective := fun h => absurd h hid
    type_of_binding := by simp [Ledger.blank]
    local_of_binding := by simp [Ledger.blank] }

/-- A ledger that keeps what another one has given out and claimed. -/
structure Extends (ledger after : Ledger) : Prop where
  id? : ∀ {fullName use id}, ledger.id? fullName use = some id →
    after.id? fullName use = some id
  binding? : ∀ {fullName binding}, ledger.bindings.lookup fullName = some binding →
    after.bindings.lookup fullName = some binding
  taken : ledger.taken.claimed ⊆ after.taken.claimed

/-- A ledger extends itself. -/
theorem Extends.refl (ledger : Ledger) : ledger.Extends ledger :=
  ⟨fun h => h, fun h => h, fun _ h => h⟩

/-- An extension of an extension is an extension. -/
theorem Extends.trans {final : Ledger} (hfirst : ledger.Extends after)
    (hsecond : after.Extends final) : ledger.Extends final where
  id? h := hsecond.id? (hfirst.id? h)
  binding? h := hsecond.binding? (hfirst.binding? h)
  taken _ h := hsecond.taken (hfirst.taken h)

/-- Type names stay in extensions. -/
theorem Extends.typeId? (hextends : ledger.Extends after)
    (h : ledger.typeIds.lookup fullName = some id) : after.typeIds.lookup fullName = some id := by
  have hid : ledger.id? fullName .typeName = some id := h
  exact hextends.id? hid

/-- Value names stay in extensions. -/
theorem Extends.valueId? (hextends : ledger.Extends after)
    (h : ledger.valueIds.lookup fullName = some id) : after.valueIds.lookup fullName = some id := by
  have hid : ledger.id? fullName .valueName = some id := h
  exact hextends.id? hid

/-- A sound ledger that extends another one. -/
structure Reaches (settings : Settings) (ledger after : Ledger) : Prop where
  ext : ledger.Extends after
  sound : after.Sound settings

/-- What a reached ledger reaches is reached. -/
theorem Reaches.trans {final : Ledger} (hfirst : ledger.Reaches settings after)
    (hsecond : after.Reaches settings final) : ledger.Reaches settings final :=
  ⟨hfirst.ext.trans hsecond.ext, hsecond.sound⟩

/-- A sound ledger reaches itself. -/
theorem Sound.reaches (hsound : ledger.Sound settings) : ledger.Reaches settings ledger :=
  ⟨Extends.refl ledger, hsound⟩

/-! ## Claiming -/

/-- The ledger in which one more identifier is claimed, for no use yet. -/
def take (ledger : Ledger) (id : String) : Ledger :=
  { ledger with taken := ledger.taken.insert id }

@[simp] theorem id?_take (ledger : Ledger) (id : String) : (ledger.take id).id? = ledger.id? := by
  funext fullName use
  cases use <;> rfl

@[simp] theorem claimed_take (ledger : Ledger) (id : String) :
    (ledger.take id).taken.claimed = id :: ledger.taken.claimed := rfl

/-- Claiming keeps what has been given out. -/
theorem extends_take (ledger : Ledger) (id : String) : ledger.Extends (ledger.take id) where
  id? h := by simpa using h
  binding? h := h
  taken _ h := List.mem_cons_of_mem id h

/-- Claiming leads from a sound ledger to a sound one. -/
theorem Sound.reaches_take (hsound : ledger.Sound settings) (id : String) :
    ledger.Reaches settings (ledger.take id) where
  ext := ledger.extends_take id
  sound := {
    suffix_eq := hsound.suffix_eq
    reserved_taken := fun word hword => List.mem_cons_of_mem id (hsound.reserved_taken word hword)
    taken_of_id := fun h => List.mem_cons_of_mem id (hsound.taken_of_id (by simpa using h))
    legal_of_id := fun h => hsound.legal_of_id (by simpa using h)
    unreserved_of_id := fun h => hsound.unreserved_of_id (by simpa using h)
    id_injective := fun h h' => hsound.id_injective (by simpa using h) (by simpa using h')
    type_of_binding := hsound.type_of_binding
    local_of_binding := hsound.local_of_binding }

/-- A claimed identifier that may be given out: legal, not reserved and without a use. -/
structure Spare (ledger : Ledger) (id : String) : Prop where
  taken : id ∈ ledger.taken.claimed
  legal : isIdentifier id = true
  unreserved : id ∉ reservedWords
  unused : ∀ fullName use, ledger.id? fullName use ≠ some id

/-- A legal identifier that was free is spare once it is claimed. -/
theorem Sound.spare_take (hsound : ledger.Sound settings) (hlegal : isIdentifier id = true)
    (hfree : id ∉ ledger.taken.claimed) : (ledger.take id).Spare id where
  taken := List.mem_cons_self
  legal := hlegal
  unreserved h := hfree (hsound.reserved_taken id h)
  unused fullName use h := hfree (hsound.taken_of_id (by simpa using h))

/-- A spare identifier stays spare while others are claimed. -/
theorem Spare.take (hspare : ledger.Spare id) (other : String) :
    (ledger.take other).Spare id where
  taken := List.mem_cons_of_mem other hspare.taken
  legal := hspare.legal
  unreserved := hspare.unreserved
  unused fullName use h := hspare.unused fullName use (by simpa using h)

/-! ## Giving out -/

/-- A ledger has given out some more identifiers for uses of one declaration. -/
structure Gains (ledger after : Ledger) (fullName : String) (news : List (Use × String)) :
    Prop where
  taken : after.taken = ledger.taken
  id?_iff : ∀ {name use id}, after.id? name use = some id ↔
    ledger.id? name use = some id ∨ (name = fullName ∧ (use, id) ∈ news)

/-- A ledger stays sound when it gives out spare identifiers, each for one use. -/
theorem Sound.of_gains {news : List (Use × String)} (hsound : ledger.Sound settings)
    (hgains : ledger.Gains after fullName news)
    (hspare : ∀ use id, (use, id) ∈ news → ledger.Spare id)
    (hdistinct : ∀ use use' id, (use, id) ∈ news → (use', id) ∈ news → use = use')
    (htype : ∀ {name binding}, after.bindings.lookup name = some binding →
      after.typeIds.lookup name = some binding.id)
    (hlocal : ∀ {name binding}, after.bindings.lookup name = some binding →
      binding.module = none) : after.Sound settings where
  suffix_eq := by rw [hgains.taken, hsound.suffix_eq]
  reserved_taken := by
    rw [hgains.taken]
    exact hsound.reserved_taken
  taken_of_id h := by
    rw [hgains.taken]
    rcases hgains.id?_iff.mp h with hold | ⟨-, hnew⟩
    · exact hsound.taken_of_id hold
    · exact (hspare _ _ hnew).taken
  legal_of_id h := by
    rcases hgains.id?_iff.mp h with hold | ⟨-, hnew⟩
    · exact hsound.legal_of_id hold
    · exact (hspare _ _ hnew).legal
  unreserved_of_id h := by
    rcases hgains.id?_iff.mp h with hold | ⟨-, hnew⟩
    · exact hsound.unreserved_of_id hold
    · exact (hspare _ _ hnew).unreserved
  id_injective h h' := by
    -- A new identifier was spare, so it meets none of the old ones.
    rcases hgains.id?_iff.mp h with hold | ⟨rfl, hnew⟩
    · rcases hgains.id?_iff.mp h' with hold' | ⟨rfl, hnew'⟩
      · exact hsound.id_injective hold hold'
      · exact absurd hold ((hspare _ _ hnew').unused _ _)
    · rcases hgains.id?_iff.mp h' with hold' | ⟨rfl, hnew'⟩
      · exact absurd hold' ((hspare _ _ hnew).unused _ _)
      · exact ⟨rfl, hdistinct _ _ _ hnew hnew'⟩
  type_of_binding := htype
  local_of_binding := hlocal

/-- The ledger in which a type name has been given out. -/
def giveType (ledger : Ledger) (fullName id : String) : Ledger :=
  { ledger with typeIds := (fullName, id) :: ledger.typeIds }

/-- The ledger in which a value name has been given out. -/
def giveValue (ledger : Ledger) (fullName id : String) : Ledger :=
  { ledger with valueIds := (fullName, id) :: ledger.valueIds }

/-- The ledger in which a binding has been given out. -/
def giveBinding (ledger : Ledger) (fullName : String) (binding : Binding) : Ledger :=
  { ledger with bindings := (fullName, binding) :: ledger.bindings }

/-- What is found after something has been given out is just that, or was there before. -/
theorem eq_or_lookup_of_given {α : Type} {entries : List (String × α)} {name : String}
    {given found : α} (h : ((fullName, given) :: entries).lookup name = some found) :
    (name = fullName ∧ found = given) ∨ entries.lookup name = some found := by
  rw [List.lookup_cons] at h
  split at h
  · rename_i hname
    exact Or.inl ⟨eq_of_beq hname, (Option.some.inj h).symm⟩
  · exact Or.inr h

/-- A type name that is given out is all that the ledger gains. -/
theorem gains_giveType (hnone : ledger.typeIds.lookup fullName = none) :
    ledger.Gains (ledger.giveType fullName id) fullName [(.typeName, id)] where
  taken := rfl
  id?_iff := by
    intro name use other
    by_cases hname : name = fullName
    · subst hname
      cases use <;> simp [id?, giveType, hnone, eq_comm]
    · have hother : (name == fullName) = false := beq_false_of_ne hname
      cases use <;> simp [id?, giveType, List.lookup_cons, hother, hname]

/-- A value name that is given out is all that the ledger gains. -/
theorem gains_giveValue (hnone : ledger.valueIds.lookup fullName = none) :
    ledger.Gains (ledger.giveValue fullName id) fullName [(.valueName, id)] where
  taken := rfl
  id?_iff := by
    intro name use other
    by_cases hname : name = fullName
    · subst hname
      cases use <;> simp [id?, giveValue, hnone, eq_comm]
    · have hother : (name == fullName) = false := beq_false_of_ne hname
      cases use <;> simp [id?, giveValue, List.lookup_cons, hother, hname]

/-- A binding that is given out brings its four derived names. -/
theorem gains_giveBinding (binding : Binding)
    (hnone : ledger.bindings.lookup fullName = none) :
    ledger.Gains (ledger.giveBinding fullName binding) fullName
      [(.zero, binding.zero), (.decoder, binding.decoder), (.encoder, binding.encoder),
        (.fuzzer, binding.fuzzer)] where
  taken := rfl
  id?_iff := by
    intro name use other
    by_cases hname : name = fullName
    · subst hname
      cases use <;> simp [id?, giveBinding, hnone, eq_comm]
    · have hother : (name == fullName) = false := beq_false_of_ne hname
      cases use <;> simp [id?, giveBinding, List.lookup_cons, hother, hname]

/-- A ledger that gains identifiers keeps the others. -/
theorem Gains.extends {news : List (Use × String)} (hgains : ledger.Gains after fullName news)
    (hbinding : ∀ {name binding}, ledger.bindings.lookup name = some binding →
      after.bindings.lookup name = some binding) : ledger.Extends after where
  id? h := hgains.id?_iff.mpr (Or.inl h)
  binding? := hbinding
  taken := by
    rw [hgains.taken]
    exact List.Subset.refl _

/-- Giving out a spare identifier as a type name leads to a sound ledger. -/
theorem Sound.reaches_giveType (hsound : ledger.Sound settings)
    (hnone : ledger.typeIds.lookup fullName = none) (hspare : ledger.Spare id) :
    ledger.Reaches settings (ledger.giveType fullName id) := by
  have hgains : ledger.Gains (ledger.giveType fullName id) fullName [(.typeName, id)] :=
    gains_giveType hnone
  have hextends : ledger.Extends (ledger.giveType fullName id) := hgains.extends fun h => h
  refine ⟨hextends, hsound.of_gains hgains ?_ ?_ ?_ hsound.local_of_binding⟩
  · intro use other hnew
    simp only [List.mem_singleton, Prod.mk.injEq] at hnew
    rw [hnew.2]
    exact hspare
  · intro use use' other hnew hnew'
    simp only [List.mem_singleton, Prod.mk.injEq] at hnew hnew'
    rw [hnew.1, hnew'.1]
  · intro name binding hbinding
    exact hextends.typeId? (hsound.type_of_binding hbinding)

/-- Giving out a spare identifier as a value name leads to a sound ledger. -/
theorem Sound.reaches_giveValue (hsound : ledger.Sound settings)
    (hnone : ledger.valueIds.lookup fullName = none) (hspare : ledger.Spare id) :
    ledger.Reaches settings (ledger.giveValue fullName id) := by
  have hgains : ledger.Gains (ledger.giveValue fullName id) fullName [(.valueName, id)] :=
    gains_giveValue hnone
  refine ⟨hgains.extends fun h => h,
    hsound.of_gains hgains ?_ ?_ hsound.type_of_binding hsound.local_of_binding⟩
  · intro use other hnew
    simp only [List.mem_singleton, Prod.mk.injEq] at hnew
    rw [hnew.2]
    exact hspare
  · intro use use' other hnew hnew'
    simp only [List.mem_singleton, Prod.mk.injEq] at hnew hnew'
    rw [hnew.1, hnew'.1]

/--
Giving out a local binding of a declaration with a type name leads to a sound ledger if the
derived names are spare and differ from each other.
-/
theorem Sound.reaches_giveBinding (hsound : ledger.Sound settings) (binding : Binding)
    (hnone : ledger.bindings.lookup fullName = none)
    (htype : ledger.typeIds.lookup fullName = some binding.id) (hlocal : binding.module = none)
    (hspare : ∀ name ∈ [binding.zero, binding.decoder, binding.encoder, binding.fuzzer],
      ledger.Spare name)
    (hdistinct : [binding.zero, binding.decoder, binding.encoder, binding.fuzzer].Nodup) :
    ledger.Reaches settings (ledger.giveBinding fullName binding) := by
  have hgains := gains_giveBinding binding hnone
  have hold : ∀ {name old}, ledger.bindings.lookup name = some old →
      (ledger.giveBinding fullName binding).bindings.lookup name = some old := by
    intro name old hlookup
    have hother : (name == fullName) = false := by
      apply beq_false_of_ne
      rintro rfl
      rw [hnone] at hlookup
      contradiction
    rw [giveBinding, List.lookup_cons, hother]
    exact hlookup
  refine ⟨hgains.extends hold, hsound.of_gains hgains ?_ ?_ ?_ ?_⟩
  · intro use id hmem
    simp only [List.mem_cons, Prod.mk.injEq, List.not_mem_nil, or_false] at hmem
    apply hspare id
    rcases hmem with ⟨-, rfl⟩ | ⟨-, rfl⟩ | ⟨-, rfl⟩ | ⟨-, rfl⟩ <;> simp
  · intro use use' id hmem hmem'
    simp only [List.nodup_cons, List.mem_cons, List.not_mem_nil, or_false, not_or] at hdistinct
    simp only [List.mem_cons, Prod.mk.injEq, List.not_mem_nil, or_false] at hmem hmem'
    grind
  · intro name found hlookup
    rcases eq_or_lookup_of_given hlookup with ⟨rfl, rfl⟩ | hlookup
    · exact htype
    · exact hsound.type_of_binding hlookup
  · intro name found hlookup
    rcases eq_or_lookup_of_given hlookup with ⟨rfl, rfl⟩ | hlookup
    · exact hlocal
    · exact hsound.local_of_binding hlookup

end Ledger

end ElmBinding
