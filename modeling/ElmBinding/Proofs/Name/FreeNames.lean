import ElmBinding.Name.Namespace
import Mathlib.Data.List.Nodup
import Mathlib.Data.List.Perm.Subperm

/-!
# Free names in a namespace

A namespace with a suffix never runs out of names.  The suffixed forms of a candidate grow
in length, so one more of them than there are claimed identifiers cannot all be claimed, and
the search of a claim ends.  What a claim refuses is therefore a clash without a suffix, or a
text that was no identifier to begin with.

Main results:

- Theorem {lit}`Namespace.exists_free`: some suffixed form of a candidate is free.
- Theorem {lit}`Namespace.isIdentifier_suffixed`: suffixing keeps identifiers legal.
- Theorem {lit}`Namespace.refused_of_claim`: why a claim is refused.
-/

namespace ElmBinding
namespace Name
namespace Namespace

variable {space : Namespace} {candidate : String}

/-! ## Suffixed forms -/

/-- Every copy of the suffix adds its length. -/
theorem length_suffixed (space : Namespace) (candidate : String) (count : Nat) :
    (space.suffixed candidate count).toList.length =
      candidate.toList.length + count * space.suffix.toList.length := by
  induction count with
  | zero => simp [suffixed]
  | succ count ih =>
      rw [suffixed, String.toList_append, List.length_append, ih, Nat.succ_mul]
      omega

/-- Without a suffix, the suffixed forms of a candidate are the candidate itself. -/
theorem suffixed_of_empty (hempty : space.suffix = "") (candidate : String) (count : Nat) :
    space.suffixed candidate count = candidate := by
  induction count with
  | zero => rfl
  | succ count ih => rw [suffixed, ih, hempty, String.append_empty]

/-- With a suffix, the suffixed forms of a candidate differ from each other. -/
theorem suffixed_injective (hsuffix : space.suffix ≠ "") (candidate : String) :
    Function.Injective (space.suffixed candidate) := by
  intro first second heq
  have hpos : 0 < space.suffix.toList.length := by
    apply List.length_pos_iff.mpr
    simpa using hsuffix
  have hlength : first * space.suffix.toList.length = second * space.suffix.toList.length := by
    have hfirst := length_suffixed space candidate first
    have hsecond := length_suffixed space candidate second
    rw [heq] at hfirst
    omega
  exact Nat.eq_of_mul_eq_mul_right hpos hlength

/-- With a suffix, some suffixed form within the reach of the search is free. -/
theorem exists_free (hsuffix : space.suffix ≠ "") (candidate : String) :
    ∃ count ∈ List.range (space.claimed.length + 1),
      space.suffixed candidate count ∉ space.claimed := by
  by_contra hnone
  have hclaimed : ∀ count ∈ List.range (space.claimed.length + 1),
      space.suffixed candidate count ∈ space.claimed := by
    intro count hcount
    by_contra hfree
    exact hnone ⟨count, hcount, hfree⟩
  have hnodup : ((List.range (space.claimed.length + 1)).map (space.suffixed candidate)).Nodup :=
    List.nodup_range.map (suffixed_injective hsuffix candidate)
  have hsubset : (List.range (space.claimed.length + 1)).map (space.suffixed candidate) ⊆
      space.claimed := by
    intro id hid
    rcases List.mem_map.mp hid with ⟨count, hcount, rfl⟩
    exact hclaimed count hcount
  have hlength := (List.subperm_of_subset hnodup hsubset).length_le
  rw [List.length_map, List.length_range] at hlength
  omega

/-- Identifiers stay legal under suffixing with a fragment. -/
theorem isIdentifier_suffixed (hcandidate : isIdentifier candidate = true)
    (hsuffix : isFragment space.suffix = true) (count : Nat) :
    isIdentifier (space.suffixed candidate count) = true := by
  induction count with
  | zero => exact hcandidate
  | succ count ih => exact isIdentifier_append ih hsuffix

/-! ## Refused claims -/

/-- The search for a free identifier ends unless there is no suffix. -/
theorem suffix_eq_of_settledCount? (h : space.settledCount? candidate = none) :
    space.suffix = "" := by
  by_contra hsuffix
  rcases exists_free hsuffix candidate with ⟨count, hcount, hfree⟩
  have hunsettled := List.find?_eq_none.mp h count hcount
  simp [isSettled, isClaimed, hfree] at hunsettled

/--
A refused candidate is taken and there is no suffix to tell it apart, or else the candidate
or the suffix could not be part of an identifier.
-/
theorem refused_of_claim {refused : Refusal} (h : space.claim candidate = .error refused) :
    (refused = .taken candidate ∧ space.suffix = "") ∨
      ((∃ id, refused = .illegal id) ∧
        ¬(isIdentifier candidate = true ∧ isFragment space.suffix = true)) := by
  unfold claim at h
  cases hcount : space.settledCount? candidate with
  | none =>
      left
      simp only [hcount, Except.error.injEq] at h
      exact ⟨h.symm, suffix_eq_of_settledCount? hcount⟩
  | some count =>
      right
      by_cases hlegal : isIdentifier (space.suffixed candidate count) = true
      · simp [hcount, hlegal] at h
      · simp only [hcount, hlegal, if_false, Except.error.injEq, Bool.false_eq_true] at h
        refine ⟨⟨_, h.symm⟩, ?_⟩
        rintro ⟨hcandidate, hsuffix⟩
        exact hlegal (isIdentifier_suffixed hcandidate hsuffix count)

end Namespace
end Name
end ElmBinding
