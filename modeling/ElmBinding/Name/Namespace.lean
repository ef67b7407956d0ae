import ElmBinding.Name.Legal
import ElmBinding.Name.Reserved

/-!
# Namespaces

A namespace holds the identifiers that are taken.  Claiming a candidate takes the first of
the candidate, the candidate with one suffix, with two suffixes, and so on, that is free.
With an empty suffix there is only the candidate to try.

The search looks at one more identifier than the namespace holds.  With a suffix these
identifiers differ from each other, so one of them is free.

Main definitions:

- Definition {lit}`Namespace.suffixed`: a candidate with some copies of the suffix.
- Definition {lit}`Namespace.claim`: take the first free identifier.
-/

namespace ElmBinding
namespace Name

/-- The identifiers taken so far, and the suffix that tells clashing ones apart. -/
structure Namespace where
  /-- The identifiers that are taken. -/
  claimed : List String
  /-- The text appended to a taken identifier until it is free; empty to refuse it. -/
  suffix : String
deriving DecidableEq, Repr

/-- Why a namespace does not give out an identifier. -/
inductive Refusal where
  /-- The candidate is taken and there is no suffix to tell it apart. -/
  | taken (candidate : String)
  /-- A text that is no identifier was asked for or came out of suffixing. -/
  | illegal (id : String)
deriving DecidableEq, Repr

/-- The report of a refused identifier. -/
def Refusal.message : Refusal → String
  | .taken candidate =>
      "identifier `" ++ candidate ++ "` is already taken and no collision suffix is configured"
  | .illegal id => "illegal Elm identifier `" ++ id ++ "`"

namespace Namespace

/-- The namespace in which the given words are taken. -/
def ofWords (suffix : String) (words : List String) : Namespace :=
  ⟨words, suffix⟩

/-- The namespace of a module, in which the reserved words are taken. -/
def ofReserved (suffix : String) : Namespace :=
  ofWords suffix reservedWords

/-- Whether an identifier is taken. -/
def isClaimed (space : Namespace) (id : String) : Bool :=
  space.claimed.contains id

/-- A candidate followed by {lit}`count` copies of the suffix. -/
def suffixed (space : Namespace) (candidate : String) : Nat → String
  | 0 => candidate
  | count + 1 => space.suffixed candidate count ++ space.suffix

/-- Whether the search for a free identifier ends at a text. -/
def isSettled (space : Namespace) (id : String) : Bool :=
  !isIdentifier id || !space.isClaimed id

/-- The least number of suffixes at which the search for a free identifier ends. -/
def settledCount? (space : Namespace) (candidate : String) : Option Nat :=
  (List.range (space.claimed.length + 1)).find? fun count =>
    space.isSettled (space.suffixed candidate count)

/-- The namespace in which one more identifier is taken. -/
def insert (space : Namespace) (id : String) : Namespace :=
  { space with claimed := id :: space.claimed }

/-- Take the first free identifier among a candidate and its suffixed forms. -/
def claim (space : Namespace) (candidate : String) : Except Refusal (String × Namespace) :=
  match space.settledCount? candidate with
  | none => .error (.taken candidate)
  | some count =>
      let id := space.suffixed candidate count
      if isIdentifier id then
        .ok (id, space.insert id)
      else
        .error (.illegal id)

@[simp] theorem suffix_insert (space : Namespace) (id : String) :
    (space.insert id).suffix = space.suffix := rfl

@[simp] theorem claimed_insert (space : Namespace) (id : String) :
    (space.insert id).claimed = id :: space.claimed := rfl

/-- A claimed identifier was legal and free, and it is what the namespace gains. -/
theorem eq_insert_of_claim {space after : Namespace} {candidate id : String}
    (h : space.claim candidate = .ok (id, after)) :
    isIdentifier id = true ∧ id ∉ space.claimed ∧ after = space.insert id := by
  unfold claim at h
  cases hcount : space.settledCount? candidate with
  | none => simp [hcount] at h
  | some count =>
      have hsettled : space.isSettled (space.suffixed candidate count) = true := by
        have hfind := hcount
        unfold settledCount? at hfind
        exact (List.find?_range_eq_some.mp hfind).1
      by_cases hlegal : isIdentifier (space.suffixed candidate count) = true
      · simp only [hcount, hlegal, if_true, Except.ok.injEq, Prod.mk.injEq] at h
        obtain ⟨rfl, rfl⟩ := h
        have hfree : space.isClaimed (space.suffixed candidate count) = false := by
          simpa [isSettled, hlegal] using hsettled
        exact ⟨hlegal, by simpa [isClaimed] using hfree, rfl⟩
      · simp [hcount, hlegal] at h

end Namespace

end Name
end ElmBinding
