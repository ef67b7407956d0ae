import ElmBinding.Proofs.Name.FreeNames

/-!
# Claims one after another

A namespace answers claims in turn.  With a suffix every legal candidate is granted the first of
its suffixed forms that is free, and without one it is granted or found taken.  So whatever is
granted in a run of claims is legal, new and none of the words that were taken at its beginning.

The forms of different candidates run into each other: where two candidates have reached the same
identifier, their further forms are the same.  The second of two claims therefore takes what the
first one would have taken in its place, and the order of claims decides who is granted what, but
not what is taken in the end.

Main results:

- Definition {lit}`Namespace.claimAll`: the answers to several claims.
- Definition {lit}`Namespace.Answers`: what a claim is answered, and what it leaves behind.
- Theorem {lit}`Namespace.answered_of_legal`: a run of claims of legal candidates.
- Theorem {lit}`Namespace.claimed_perm_of_perm`: the same candidates in another order.
-/

namespace ElmBinding
namespace Name
namespace Namespace

variable {space space' : Namespace} {candidate other id : String}

/-! ## Runs -/

/-- The answer to a claim and the namespace behind it; one that is refused changes nothing. -/
def attempt (space : Namespace) (candidate : String) : Except Refusal String × Namespace :=
  match space.claim candidate with
  | .ok (id, after) => (.ok id, after)
  | .error refused => (.error refused, space)

/-- The answers to several claims, one after another, and the namespace behind them. -/
def claimAll (space : Namespace) : List String → List (Except Refusal String) × Namespace
  | [] => ([], space)
  | candidate :: rest =>
      let (answer, after) := space.attempt candidate
      let (answers, final) := after.claimAll rest
      (answer :: answers, final)

/-- The identifiers that are granted by some answers. -/
def granted (answers : List (Except Refusal String)) : List String :=
  answers.filterMap Except.toOption

/-- The number of clashes that are reported by some answers. -/
def collisions (answers : List (Except Refusal String)) : Nat :=
  answers.countP fun
    | .error (.taken _) => true
    | _ => false

theorem claimAll_cons (space : Namespace) (candidate : String) (rest : List String) :
    space.claimAll (candidate :: rest) =
      ((space.attempt candidate).1 :: ((space.attempt candidate).2.claimAll rest).1,
        ((space.attempt candidate).2.claimAll rest).2) := rfl

/-! ## Answers -/

/-- The least number of suffixes behind a candidate that makes a free identifier. -/
structure IsFirstFree (space : Namespace) (candidate : String) (count : Nat) : Prop where
  taken : ∀ fewer < count, space.suffixed candidate fewer ∈ space.claimed
  free : space.suffixed candidate count ∉ space.claimed

/-- What a claim is answered, and the namespace that it leaves behind. -/
inductive Answers (space : Namespace) (candidate : String) :
    Except Refusal String → Namespace → Prop
  /-- With a suffix, the first free one of the suffixed forms is granted. -/
  | suffixed {count : Nat} (hsuffix : space.suffix ≠ "")
      (hfirst : space.IsFirstFree candidate count) :
      Answers space candidate (.ok (space.suffixed candidate count))
        (space.insert (space.suffixed candidate count))
  /-- Without a suffix, a free candidate is granted. -/
  | free (hsuffix : space.suffix = "") (hfree : candidate ∉ space.claimed) :
      Answers space candidate (.ok candidate) (space.insert candidate)
  /-- Without a suffix, a taken candidate is refused, and nothing is claimed. -/
  | taken (hsuffix : space.suffix = "") (htaken : candidate ∈ space.claimed) :
      Answers space candidate (.error (.taken candidate)) space

/-- What several claims are answered one after another, and the namespace behind them. -/
inductive Answered : Namespace → List String → List (Except Refusal String) → Namespace → Prop
  | nil {space : Namespace} : Answered space [] [] space
  | cons {space after final : Namespace} {candidate : String} {rest : List String}
      {answer : Except Refusal String} {answers : List (Except Refusal String)}
      (hfirst : Answers space candidate answer after) (hrest : Answered after rest answers final) :
      Answered space (candidate :: rest) (answer :: answers) final

/-- An identifier at which the search ends, but not for want of legality, is free. -/
theorem isSettled_iff (hlegal : isIdentifier id = true) :
    space.isSettled id = true ↔ id ∉ space.claimed := by
  simp [isSettled, isClaimed, hlegal]

/-- The search for a free identifier ends at the first free one. -/
theorem isFirstFree_of_settledCount? {count : Nat} (hsuffix : isFragment space.suffix = true)
    (hcandidate : isIdentifier candidate = true)
    (h : space.settledCount? candidate = some count) : space.IsFirstFree candidate count := by
  have hlegal := isIdentifier_suffixed hcandidate hsuffix
  rcases List.find?_range_eq_some.mp h with ⟨hsettled, -, hpassed⟩
  refine ⟨fun fewer hless => ?_, (isSettled_iff (hlegal count)).mp hsettled⟩
  by_contra hfree
  have hunsettled := hpassed fewer hless
  rw [(isSettled_iff (hlegal fewer)).mpr hfree] at hunsettled
  contradiction

/-- What is granted to a candidate is the first of its suffixed forms that is free. -/
theorem exists_isFirstFree_of_claim {after : Namespace}
    (h : space.claim candidate = .ok (id, after)) :
    ∃ count, id = space.suffixed candidate count ∧ space.IsFirstFree candidate count := by
  have hfree := (eq_insert_of_claim h).2.1
  unfold claim at h
  cases hcount : space.settledCount? candidate with
  | none => simp [hcount] at h
  | some count =>
      simp only [hcount] at h
      split at h
      · simp only [Except.ok.injEq, Prod.mk.injEq] at h
        rcases h with ⟨rfl, -⟩
        refine ⟨count, rfl, fun fewer hless => ?_, hfree⟩
        have hpassed := (List.find?_range_eq_some.mp hcount).2.2 fewer hless
        simp only [isSettled, isClaimed, Bool.not_or, Bool.not_not, Bool.and_eq_true] at hpassed
        exact List.contains_iff_mem.mp hpassed.2
      · contradiction

/-- Without a suffix, the first free one of the suffixed forms is the candidate. -/
theorem IsFirstFree.candidate_free {count : Nat} (h : space.IsFirstFree candidate count)
    (hempty : space.suffix = "") : candidate ∉ space.claimed := by
  have hfree := h.free
  rw [suffixed_of_empty hempty] at hfree
  exact hfree

/-- A claim of a legal candidate is answered. -/
theorem answers_attempt (hsuffix : isFragment space.suffix = true)
    (hcandidate : isIdentifier candidate = true) :
    Answers space candidate (space.attempt candidate).1 (space.attempt candidate).2 := by
  unfold attempt claim
  cases hcount : space.settledCount? candidate with
  | none =>
      have hempty : space.suffix = "" := suffix_eq_of_settledCount? hcount
      have hunsettled : ¬space.isSettled candidate = true :=
        List.find?_eq_none.mp hcount 0 (by simp)
      rw [isSettled_iff hcandidate, not_not] at hunsettled
      exact .taken hempty hunsettled
  | some count =>
      have hfirst := isFirstFree_of_settledCount? hsuffix hcandidate hcount
      simp only [isIdentifier_suffixed hcandidate hsuffix count, if_true]
      by_cases hempty : space.suffix = ""
      · rw [suffixed_of_empty hempty]
        exact .free hempty (hfirst.candidate_free hempty)
      · exact .suffixed hempty hfirst

/-- A claim leaves the suffix as it is. -/
theorem Answers.suffix_eq {answer : Except Refusal String}
    (h : Answers space candidate answer space') : space'.suffix = space.suffix := by
  cases h <;> rfl

/-- What is granted is legal and was free, and it is all that the namespace gains. -/
theorem Answers.of_ok (hsuffix : isFragment space.suffix = true)
    (hcandidate : isIdentifier candidate = true) (h : Answers space candidate (.ok id) space') :
    isIdentifier id = true ∧ id ∉ space.claimed ∧ space' = space.insert id := by
  cases h with
  | suffixed _ hfirst => exact ⟨isIdentifier_suffixed hcandidate hsuffix _, hfirst.free, rfl⟩
  | free _ hfree => exact ⟨hcandidate, hfree, rfl⟩

/-- A refused claim leaves the namespace as it is. -/
theorem Answers.of_error {refused : Refusal} (h : Answers space candidate (.error refused) space') :
    space' = space := by
  cases h
  rfl

/-- Claims of legal candidates are answered, whatever came before them. -/
theorem answered_claimAll (hsuffix : isFragment space.suffix = true) {candidates : List String}
    (hlegal : ∀ candidate ∈ candidates, isIdentifier candidate = true) :
    Answered space candidates (space.claimAll candidates).1 (space.claimAll candidates).2 := by
  induction candidates generalizing space with
  | nil => exact .nil
  | cons candidate rest ih =>
      rcases List.forall_mem_cons.mp hlegal with ⟨hcandidate, hrest⟩
      have hfirst := answers_attempt hsuffix hcandidate
      rw [claimAll_cons]
      refine .cons hfirst (ih ?_ hrest)
      rw [hfirst.suffix_eq]
      exact hsuffix

/-- What a run of claims grants is legal and new, and no identifier is granted twice. -/
theorem Answered.granted_new {candidates : List String} {answers : List (Except Refusal String)}
    (h : Answered space candidates answers space') (hsuffix : isFragment space.suffix = true)
    (hlegal : ∀ candidate ∈ candidates, isIdentifier candidate = true) :
    (granted answers).Nodup ∧
      ∀ id ∈ granted answers, isIdentifier id = true ∧ id ∉ space.claimed := by
  induction h with
  | nil => exact ⟨List.nodup_nil, by simp [granted]⟩
  | @cons space after final candidate rest answer answers hfirst hrest ih =>
      rcases List.forall_mem_cons.mp hlegal with ⟨hcandidate, hothers⟩
      rcases ih (by rw [hfirst.suffix_eq]; exact hsuffix) hothers with ⟨hnodup, hnew⟩
      cases answer with
      | error refused =>
          rw [hfirst.of_error] at hnew
          exact ⟨hnodup, hnew⟩
      | ok id =>
          rcases hfirst.of_ok hsuffix hcandidate with ⟨hid, hfree, rfl⟩
          have hcons : granted (.ok id :: answers) = id :: granted answers := rfl
          rw [hcons]
          -- Everything that is granted later is new where the identifier is taken.
          refine ⟨List.nodup_cons.mpr ⟨fun hmem => ?_, hnodup⟩,
            List.forall_mem_cons.mpr ⟨⟨hid, hfree⟩, fun later hlater => ?_⟩⟩
          · exact (hnew id hmem).2 List.mem_cons_self
          · exact ⟨(hnew later hlater).1, fun h => (hnew later hlater).2 (List.mem_cons_of_mem _ h)⟩

/--
A run of claims of legal candidates, with a suffix that fits into identifiers or none: every claim
is answered as it should be, and all that is granted in the run is legal, pairwise distinct and
none of the words that were taken at first.
-/
theorem answered_of_legal (words : List String) {suffix : String}
    (hsuffix : isFragment suffix = true) {candidates : List String}
    (hlegal : ∀ candidate ∈ candidates, isIdentifier candidate = true) :
    Answered (ofWords suffix words) candidates ((ofWords suffix words).claimAll candidates).1
        ((ofWords suffix words).claimAll candidates).2 ∧
      (granted ((ofWords suffix words).claimAll candidates).1).Nodup ∧
      ∀ id ∈ granted ((ofWords suffix words).claimAll candidates).1,
        isIdentifier id = true ∧ id ∉ words := by
  have hanswered : Answered (ofWords suffix words) candidates _ _ :=
    answered_claimAll hsuffix hlegal
  exact ⟨hanswered, hanswered.granted_new hsuffix hlegal⟩

/-- Claims that meet reserved words and each other's suffixed forms. -/
theorem answered_suffixedThrice :
    isFragment "_" = true ∧
      (∀ candidate ∈ ["if", "a_", "a", "a"], isIdentifier candidate = true) ∧
      Answered (ofWords "_" ["if", "a"]) ["if", "a_", "a", "a"]
        [.ok "if_", .ok "a_", .ok "a__", .ok "a___"]
        ⟨["a___", "a__", "a_", "if_", "if", "a"], "_"⟩ := by
  have hsuffix : isFragment "_" = true := by decide
  have hlegal : ∀ candidate ∈ ["if", "a_", "a", "a"], isIdentifier candidate = true := by decide
  refine ⟨hsuffix, hlegal, ?_⟩
  have h := (answered_of_legal ["if", "a"] hsuffix hlegal).1
  have hrun : (ofWords "_" ["if", "a"]).claimAll ["if", "a_", "a", "a"] =
      ([.ok "if_", .ok "a_", .ok "a__", .ok "a___"],
        ⟨["a___", "a__", "a_", "if_", "if", "a"], "_"⟩) := by
    decide +kernel
  rw [hrun] at h
  exact h

/-! ## The order of claims -/

/-- Two namespaces with the same taken identifiers, in whatever order, and the same suffix. -/
structure SameNames (space space' : Namespace) : Prop where
  claimed : space.claimed.Perm space'.claimed
  suffix : space.suffix = space'.suffix

/-- The suffixed forms of a candidate depend on the suffix alone. -/
theorem suffixed_congr (hsuffix : space.suffix = space'.suffix) (candidate : String)
    (count : Nat) : space.suffixed candidate count = space'.suffixed candidate count := by
  induction count with
  | zero => rfl
  | succ count ih => rw [suffixed, suffixed, ih, hsuffix]

@[simp] theorem suffixed_insert (space : Namespace) (id candidate : String) (count : Nat) :
    (space.insert id).suffixed candidate count = space.suffixed candidate count :=
  suffixed_congr (suffix_insert space id) candidate count

/-- Suffixing goes on from a suffixed form. -/
theorem suffixed_add (space : Namespace) (candidate : String) (count more : Nat) :
    space.suffixed candidate (count + more) =
      space.suffixed (space.suffixed candidate count) more := by
  induction more with
  | zero => rfl
  | succ more ih => rw [← Nat.add_assoc, suffixed, suffixed, ih]

/-- No namespace has two first free forms of a candidate. -/
theorem IsFirstFree.unique {first second : Nat} (hfirst : space.IsFirstFree candidate first)
    (hsecond : space.IsFirstFree candidate second) : first = second := by
  rcases Nat.lt_trichotomy first second with hless | heq | hless
  · exact absurd (hsecond.taken first hless) hfirst.free
  · exact heq
  · exact absurd (hfirst.taken second hless) hsecond.free

/-- The first free form of a candidate stays so where another identifier is taken. -/
theorem IsFirstFree.insert {count : Nat} (h : space.IsFirstFree candidate count)
    (hother : space.suffixed candidate count ≠ id) :
    (space.insert id).IsFirstFree candidate count := by
  refine ⟨fun fewer hless => ?_, ?_⟩
  · rw [suffixed_insert]
    exact List.mem_cons_of_mem id (h.taken fewer hless)
  · rw [suffixed_insert, claimed_insert, List.mem_cons, not_or]
    exact ⟨hother, h.free⟩

/-- Where the first free form of a candidate is taken, the search goes on from there. -/
theorem IsFirstFree.beyond {count later : Nat} (h : space.IsFirstFree candidate count)
    (hlater : (space.insert id).IsFirstFree candidate later) :
    ∃ more, later = count + more ∧
      (space.insert id).IsFirstFree (space.suffixed candidate count) more := by
  have hle : count ≤ later := by
    by_contra hless
    have htaken := h.taken later (by omega)
    have hfree := hlater.free
    rw [suffixed_insert] at hfree
    exact hfree (List.mem_cons_of_mem id htaken)
  rcases Nat.exists_eq_add_of_le hle with ⟨more, rfl⟩
  refine ⟨more, rfl, fun fewer hless => ?_, ?_⟩
  · have htaken := hlater.taken (count + fewer) (by omega)
    rw [suffixed_insert, suffixed_add] at htaken
    rw [suffixed_insert]
    exact htaken
  · have hfree := hlater.free
    rw [suffixed_insert, suffixed_add] at hfree
    rw [suffixed_insert]
    exact hfree

/-- The same claim is answered alike where the same names are taken. -/
theorem SameNames.attempt (h : SameNames space space') (candidate : String) :
    (space.attempt candidate).1 = (space'.attempt candidate).1 ∧
      SameNames (space.attempt candidate).2 (space'.attempt candidate).2 := by
  have hsettled : ∀ id, space.isSettled id = space'.isSettled id := fun id => by
    have hmem : id ∈ space.claimed ↔ id ∈ space'.claimed := h.claimed.mem_iff
    simp [isSettled, isClaimed, hmem]
  have hcount : space.settledCount? candidate = space'.settledCount? candidate := by
    simp only [settledCount?, h.claimed.length_eq, suffixed_congr h.suffix, hsettled]
  unfold Namespace.attempt claim
  rw [hcount]
  cases space'.settledCount? candidate with
  | none => exact ⟨rfl, h⟩
  | some count =>
      simp only [suffixed_congr h.suffix]
      split_ifs
      · exact ⟨rfl, h.claimed.cons _, h.suffix⟩
      · exact ⟨rfl, h⟩

/-- Two claims with a suffix take the same two identifiers in either order. -/
theorem insert_comm_of_isFirstFree {first second later later' : Nat}
    (hfirst : space.IsFirstFree candidate first) (hsecond : space.IsFirstFree other second)
    (hlater : (space.insert (space.suffixed candidate first)).IsFirstFree other later)
    (hlater' : (space.insert (space.suffixed other second)).IsFirstFree candidate later') :
    SameNames
      ((space.insert (space.suffixed candidate first)).insert (space.suffixed other later))
      ((space.insert (space.suffixed other second)).insert (space.suffixed candidate later')) := by
  by_cases hmeet : space.suffixed candidate first = space.suffixed other second
  · -- Both candidates have reached the same identifier, and go on from it.
    rcases hfirst.beyond hlater' with ⟨more', rfl, hmore'⟩
    rcases hsecond.beyond hlater with ⟨more, rfl, hmore⟩
    rw [hmeet] at hmore hmore'
    obtain rfl := hmore.unique hmore'
    rw [suffixed_add, suffixed_add, hmeet]
    exact ⟨.refl _, rfl⟩
  · -- The claims do not meet.
    obtain rfl := hlater.unique (hsecond.insert (Ne.symm hmeet))
    obtain rfl := hlater'.unique (hfirst.insert hmeet)
    exact ⟨.swap _ _ _, rfl⟩

/-- With a suffix, a claim takes the first free form of its candidate. -/
theorem Answers.of_suffix {answer : Except Refusal String} (hsuffix : space.suffix ≠ "")
    (h : Answers space candidate answer space') :
    ∃ count, space.IsFirstFree candidate count ∧ answer = .ok (space.suffixed candidate count) ∧
      space' = space.insert (space.suffixed candidate count) := by
  cases h with
  | suffixed _ hfirst => exact ⟨_, hfirst, rfl, rfl⟩
  | free hempty _ => exact absurd hempty hsuffix
  | taken hempty _ => exact absurd hempty hsuffix

/-- Without a suffix, a claim of a free candidate takes it. -/
theorem Answers.of_free {answer : Except Refusal String} (hempty : space.suffix = "")
    (hfree : candidate ∉ space.claimed) (h : Answers space candidate answer space') :
    answer = .ok candidate ∧ space' = space.insert candidate := by
  cases h with
  | suffixed hsuffix _ => exact absurd hempty hsuffix
  | free _ _ => exact ⟨rfl, rfl⟩
  | taken _ htaken => exact absurd htaken hfree

/-- Without a suffix, a claim of a taken candidate is refused. -/
theorem Answers.of_taken {answer : Except Refusal String} (hempty : space.suffix = "")
    (htaken : candidate ∈ space.claimed) (h : Answers space candidate answer space') :
    answer = .error (.taken candidate) ∧ space' = space := by
  cases h with
  | suffixed hsuffix _ => exact absurd hempty hsuffix
  | free _ hfree => exact absurd htaken hfree
  | taken _ _ => exact ⟨rfl, rfl⟩

/-- Without a suffix, two claims may change places. -/
theorem Answers.comm_of_empty {answer later answer' later' : Except Refusal String}
    {after final after' final' : Namespace} (hempty : space.suffix = "")
    (hfirst : Answers space candidate answer after) (hlater : Answers after other later final)
    (hfirst' : Answers space other answer' after')
    (hlater' : Answers after' candidate later' final') :
    SameNames final final' ∧ collisions [answer, later] = collisions [answer', later'] := by
  have hafter : after.suffix = "" := hfirst.suffix_eq.trans hempty
  have hafter' : after'.suffix = "" := hfirst'.suffix_eq.trans hempty
  by_cases hcandidate : candidate ∈ space.claimed
  · by_cases hother : other ∈ space.claimed
    · obtain ⟨rfl, rfl⟩ := hfirst.of_taken hempty hcandidate
      obtain ⟨rfl, rfl⟩ := hlater.of_taken hempty hother
      obtain ⟨rfl, rfl⟩ := hfirst'.of_taken hempty hother
      obtain ⟨rfl, rfl⟩ := hlater'.of_taken hempty hcandidate
      exact ⟨⟨.refl _, rfl⟩, rfl⟩
    · obtain ⟨rfl, rfl⟩ := hfirst.of_taken hempty hcandidate
      obtain ⟨rfl, rfl⟩ := hlater.of_free hempty hother
      obtain ⟨rfl, rfl⟩ := hfirst'.of_free hempty hother
      obtain ⟨rfl, rfl⟩ := hlater'.of_taken hafter' (List.mem_cons_of_mem other hcandidate)
      exact ⟨⟨.refl _, rfl⟩, rfl⟩
  · obtain ⟨rfl, rfl⟩ := hfirst.of_free hempty hcandidate
    by_cases hother : other ∈ space.claimed
    · obtain ⟨rfl, rfl⟩ := hlater.of_taken hafter (List.mem_cons_of_mem candidate hother)
      obtain ⟨rfl, rfl⟩ := hfirst'.of_taken hempty hother
      obtain ⟨rfl, rfl⟩ := hlater'.of_free hempty hcandidate
      exact ⟨⟨.refl _, rfl⟩, rfl⟩
    · obtain ⟨rfl, rfl⟩ := hfirst'.of_free hempty hother
      by_cases hsame : candidate = other
      · subst hsame
        obtain ⟨rfl, rfl⟩ := hlater.of_taken hafter List.mem_cons_self
        obtain ⟨rfl, rfl⟩ := hlater'.of_taken hafter' List.mem_cons_self
        exact ⟨⟨.refl _, rfl⟩, rfl⟩
      · obtain ⟨rfl, rfl⟩ := hlater.of_free hafter (by simpa using ⟨Ne.symm hsame, hother⟩)
        obtain ⟨rfl, rfl⟩ := hlater'.of_free hafter' (by simpa using ⟨hsame, hcandidate⟩)
        exact ⟨⟨.swap _ _ _, rfl⟩, rfl⟩

/-- Two claims in either order take the same identifiers and are refused equally often. -/
theorem Answers.comm {answer later answer' later' : Except Refusal String}
    {after final after' final' : Namespace}
    (hfirst : Answers space candidate answer after) (hlater : Answers after other later final)
    (hfirst' : Answers space other answer' after')
    (hlater' : Answers after' candidate later' final') :
    SameNames final final' ∧ collisions [answer, later] = collisions [answer', later'] := by
  by_cases hempty : space.suffix = ""
  · exact hfirst.comm_of_empty hempty hlater hfirst' hlater'
  · have hafter : after.suffix ≠ "" := by
      rw [hfirst.suffix_eq]
      exact hempty
    have hafter' : after'.suffix ≠ "" := by
      rw [hfirst'.suffix_eq]
      exact hempty
    rcases hfirst.of_suffix hempty with ⟨first, hfree, rfl, rfl⟩
    rcases hfirst'.of_suffix hempty with ⟨second, hfree', rfl, rfl⟩
    rcases hlater.of_suffix hafter with ⟨third, hthird, rfl, rfl⟩
    rcases hlater'.of_suffix hafter' with ⟨fourth, hfourth, rfl, rfl⟩
    rw [suffixed_insert, suffixed_insert]
    exact ⟨insert_comm_of_isFirstFree hfree hfree' hthird hfourth, rfl⟩

theorem collisions_append (answers later : List (Except Refusal String)) :
    collisions (answers ++ later) = collisions answers + collisions later :=
  List.countP_append

theorem collisions_cons (answer : Except Refusal String)
    (answers : List (Except Refusal String)) :
    collisions (answer :: answers) = collisions [answer] + collisions answers :=
  collisions_append [answer] answers

/-- The same claims are answered alike where the same names are taken. -/
theorem SameNames.claimAll (h : SameNames space space') (candidates : List String) :
    (space.claimAll candidates).1 = (space'.claimAll candidates).1 ∧
      SameNames (space.claimAll candidates).2 (space'.claimAll candidates).2 := by
  induction candidates generalizing space space' with
  | nil => exact ⟨rfl, h⟩
  | cons candidate rest ih =>
      rcases h.attempt candidate with ⟨hanswer, hafter⟩
      rcases ih hafter with ⟨hanswers, hfinal⟩
      rw [claimAll_cons, claimAll_cons, hanswer, hanswers]
      exact ⟨rfl, hfinal⟩

/--
The same legal candidates are claimed in two orders, in any namespace whose suffix fits into
identifiers or is empty: the same identifiers are taken in the end, and equally many clashes are
reported.
-/
theorem claimed_perm_of_perm {candidates others : List String} (hperm : candidates.Perm others)
    (hsuffix : isFragment space.suffix = true)
    (hlegal : ∀ candidate ∈ candidates, isIdentifier candidate = true) :
    (space.claimAll candidates).2.claimed.Perm (space.claimAll others).2.claimed ∧
      collisions (space.claimAll candidates).1 = collisions (space.claimAll others).1 := by
  induction hperm generalizing space with
  | nil => exact ⟨.refl _, rfl⟩
  | cons candidate hperm ih =>
      rcases List.forall_mem_cons.mp hlegal with ⟨hcandidate, hrest⟩
      have hkept := (answers_attempt hsuffix hcandidate).suffix_eq
      rcases ih (by rw [hkept]; exact hsuffix) hrest with ⟨hfinal, hcount⟩
      refine ⟨hfinal, ?_⟩
      simp only [claimAll_cons]
      rw [collisions_cons, hcount, ← collisions_cons]
  | swap candidate other rest =>
      rcases List.forall_mem_cons.mp hlegal with ⟨hother, hlater⟩
      have hcandidate := hlater candidate List.mem_cons_self
      have hfirst := answers_attempt hsuffix hother
      have hfirst' := answers_attempt hsuffix hcandidate
      have hsecond := answers_attempt (hfirst.suffix_eq ▸ hsuffix) hcandidate
      have hsecond' := answers_attempt (hfirst'.suffix_eq ▸ hsuffix) hother
      rcases hfirst.comm hsecond hfirst' hsecond' with ⟨hnames, hcount⟩
      rcases hnames.claimAll rest with ⟨hanswers, hfinal⟩
      refine ⟨hfinal.claimed, ?_⟩
      have hpair : ∀ answer later answers,
          collisions (answer :: later :: answers) =
            collisions [answer, later] + collisions answers :=
        fun answer later answers => collisions_append [answer, later] answers
      simp only [claimAll_cons]
      rw [hpair, hcount, hanswers, ← hpair]
  | trans hfirst hsecond ih ih' =>
      rcases ih hsuffix hlegal with ⟨hnames, hcount⟩
      rcases ih' hsuffix (fun candidate hmem => hlegal candidate (hfirst.mem_iff.mpr hmem)) with
        ⟨hnames', hcount'⟩
      exact ⟨hnames.trans hnames', hcount.trans hcount'⟩

/-- A candidate that is another one's suffixed form is granted different names. -/
theorem claimed_perm_chain :
    ["A", "A", "A_"].Perm ["A_", "A", "A"] ∧
      isFragment (ofWords "_" ["if"]).suffix = true ∧
      (∀ candidate ∈ ["A", "A", "A_"], isIdentifier candidate = true) ∧
      ((ofWords "_" ["if"]).claimAll ["A", "A", "A_"]).1 = [.ok "A", .ok "A_", .ok "A__"] ∧
      ((ofWords "_" ["if"]).claimAll ["A_", "A", "A"]).1 = [.ok "A_", .ok "A", .ok "A__"] ∧
      ["A__", "A_", "A", "if"].Perm ["A__", "A", "A_", "if"] := by
  have hperm : ["A", "A", "A_"].Perm ["A_", "A", "A"] := by decide
  have hsuffix : isFragment (ofWords "_" ["if"]).suffix = true := by decide
  have hlegal : ∀ candidate ∈ ["A", "A", "A_"], isIdentifier candidate = true := by decide
  have hrun : (ofWords "_" ["if"]).claimAll ["A", "A", "A_"] =
      ([.ok "A", .ok "A_", .ok "A__"], ⟨["A__", "A_", "A", "if"], "_"⟩) := by decide +kernel
  have hrun' : (ofWords "_" ["if"]).claimAll ["A_", "A", "A"] =
      ([.ok "A_", .ok "A", .ok "A__"], ⟨["A__", "A", "A_", "if"], "_"⟩) := by decide +kernel
  have h := (claimed_perm_of_perm hperm hsuffix hlegal).1
  rw [hrun, hrun'] at h
  rw [hrun, hrun']
  exact ⟨hperm, hsuffix, hlegal, rfl, rfl, h⟩

end Namespace
end Name
end ElmBinding
