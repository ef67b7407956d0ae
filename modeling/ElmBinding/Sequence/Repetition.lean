/-!
# Repeated names

A declaration list may use a name once.  The first name that occurs a second time is the
one to report, and no name occurs twice exactly if there is none to report.

Main results:

- Definition {lit}`firstRepeat?`: the first name that has occurred before.
- Theorem {lit}`firstRepeat?_eq_none_iff`: there is none exactly if the names are distinct.
-/

namespace ElmBinding
namespace Sequence

/-- The first name of a list that is among the names seen before it. -/
def firstRepeatAfter? (seen : List String) : List String → Option String
  | [] => none
  | name :: rest => if name ∈ seen then some name else firstRepeatAfter? (name :: seen) rest

/-- The first name of a list that occurs earlier in it. -/
def firstRepeat? (names : List String) : Option String :=
  firstRepeatAfter? [] names

/-- No name is repeated exactly if the names are distinct and differ from those seen. -/
theorem firstRepeatAfter?_eq_none_iff (seen names : List String) :
    firstRepeatAfter? seen names = none ↔ names.Nodup ∧ ∀ name ∈ names, name ∉ seen := by
  induction names generalizing seen with
  | nil => simp [firstRepeatAfter?]
  | cons name rest ih =>
      by_cases hseen : name ∈ seen
      · simp [firstRepeatAfter?, hseen]
      · simp only [firstRepeatAfter?, if_neg hseen, ih, List.nodup_cons, List.mem_cons]
        constructor
        · rintro ⟨hnodup, hnew⟩
          refine ⟨⟨?_, hnodup⟩, ?_⟩
          · intro hmem
            exact hnew name hmem (Or.inl rfl)
          · rintro other (rfl | hother)
            · exact hseen
            · intro hold
              exact hnew other hother (Or.inr hold)
        · rintro ⟨⟨hfresh, hnodup⟩, hnew⟩
          refine ⟨hnodup, ?_⟩
          rintro other hother (rfl | hold)
          · exact hfresh hother
          · exact hnew other (Or.inr hother) hold

/-- No name of a list is repeated exactly if its names are distinct. -/
theorem firstRepeat?_eq_none_iff (names : List String) :
    firstRepeat? names = none ↔ names.Nodup := by
  simp [firstRepeat?, firstRepeatAfter?_eq_none_iff]

end Sequence
end ElmBinding
