import ElmBinding.Proofs.Module.Layout
import ElmBinding.Proofs.Name.Claims

/-!
# Which keywords become labels

No keyword is the candidate of a label.  A keyword can still come out of a clash: when two
siblings ask for one label, the second of them gets it with the suffix behind it, and nothing
keeps keywords out of the labels of a record or of a choice.  This is the only way.  A keyword
does not end in two copies of a text, so it is never reached by two suffixes, and a label that
the suffix turns into a keyword is never made by suffixing itself.

Main results:

- Definition {lit}`Schema.siblingNames`: the names that share the labels of a record or choice.
- Definition {lit}`Settings.Spells`: words that clashing names and the suffix make.
- Theorem {lit}`mem_claimed_iff_of_claim`: what one claim takes of a stem and its suffixed form.
- Theorem {lit}`mem_labels_iff`: when a run of claims gives out a suffixed form.
- Theorem {lit}`keyword_label_iff`: which keywords are labels in a module.
-/

namespace ElmBinding

open Name

/-! ## Siblings -/

/-- The names that share labels: the slots of a record, and the members of a oneof. -/
def Schema.siblingNames (schema : Schema) : List (List String) :=
  schema.recordMessages.map (fun message => message.slots.map Slot.name) ++
    (schema.recordMessages.flatMap Message.declaredChoices).map fun choice =>
      choice.2.map Field.name

/-- Two of some names clash, and the collision suffix makes the label they share into a word. -/
def Settings.Spells (settings : Settings) (names : List String) (word : String) : Prop :=
  ∃ stem, stem ++ settings.collisionSuffix = word ∧ 2 ≤ (names.map labelCandidate).count stem

/-! ## Keywords -/

/-- A keyword does not end in two copies of a text. -/
theorem append_twice_ne_keyword {front suffix word : String} (hword : isKeyword word = true)
    (hsuffix : suffix ≠ "") : front ++ suffix ++ suffix ≠ word := by
  have hends : ∀ word ∈ keywords, ∀ length < 9, 0 < length →
      2 * length ≤ word.toList.length →
      word.toList.reverse.take length ≠ (word.toList.reverse.drop length).take length := by
    decide +kernel
  have hlengths : ∀ word ∈ keywords, word.toList.length < 9 := by decide +kernel
  rintro rfl
  have hmem := List.contains_iff_mem.mp hword
  have hpos : 0 < suffix.toList.length := by
    apply List.length_pos_iff.mpr
    simpa using hsuffix
  have hlength : (front ++ suffix ++ suffix).toList.length =
      front.toList.length + suffix.toList.length + suffix.toList.length := by
    simp only [String.toList_append, List.length_append]
  have hbound := hlengths _ hmem
  apply hends _ hmem suffix.toList.length (by omega) hpos (by omega)
  simp [String.toList_append]

/-- The candidate of a label is no keyword. -/
theorem isKeyword_labelCandidate (name : String) : isKeyword (labelCandidate name) = false := by
  have hfront : ∀ word ∈ keywords, "x".toList.isPrefixOf word.toList = false := by decide +kernel
  unfold labelCandidate
  cases hplain : isKeyword (casing .value "" name) with
  | false =>
      simp only [hplain, Bool.false_eq_true, if_false]
  | true =>
      simp only [hplain, if_true]
      rw [Bool.eq_false_iff]
      intro hword
      have hmem := List.contains_iff_mem.mp hword
      have hnone := hfront _ hmem
      rw [String.toList_append, Bool.eq_false_iff, Ne, List.isPrefixOf_iff_prefix] at hnone
      exact hnone (List.prefix_append _ _)

/-- No candidate of a label is a keyword. -/
theorem keyword_notMem_candidates {word : String} (hword : isKeyword word = true)
    (names : List String) : word ∉ names.map labelCandidate := by
  intro hmem
  rcases List.mem_map.mp hmem with ⟨name, -, rfl⟩
  rw [isKeyword_labelCandidate] at hword
  contradiction

/-! ## Claims -/

namespace Name.Namespace

variable {space after : Namespace} {candidate id stem word : String}

/--
A word that is a stem and a suffix is granted to the stem, if it is free and the stem is taken;
the stem itself is taken by nothing but its own claim.
-/
theorem mem_claimed_iff_of_claim (h : space.claim candidate = .ok (id, after))
    (hstem : stem ++ space.suffix = word) (hcandidate : candidate ≠ word)
    (htwice : ∀ front, front ++ space.suffix ++ space.suffix ≠ word) :
    (id = word ↔ candidate = stem ∧ stem ∈ space.claimed ∧ word ∉ space.claimed) ∧
      (stem ∈ after.claimed ↔ candidate = stem ∨ stem ∈ space.claimed) := by
  rcases exists_isFirstFree_of_claim h with ⟨count, hid, hfirst⟩
  rcases eq_insert_of_claim h with ⟨-, hfree, rfl⟩
  have hbeyond : ∀ fewer, space.suffixed candidate (fewer + 1) ≠ stem := by
    intro fewer heq
    rw [← hstem, ← heq] at htwice
    exact htwice (space.suffixed candidate fewer) rfl
  constructor
  · constructor
    · intro hword
      cases count with
      | zero => exact absurd (hid.symm.trans hword) hcandidate
      | succ fewer =>
          have hfewer : space.suffixed candidate fewer = stem := by
            rw [hword, ← hstem, suffixed] at hid
            exact (String.append_left_inj _).mp hid.symm
          cases fewer with
          | zero => exact ⟨hfewer, hfewer ▸ hfirst.taken 0 (by omega), hword ▸ hfree⟩
          | succ fewer => exact absurd hfewer (hbeyond fewer)
    · rintro ⟨rfl, htaken, hnew⟩
      have hone : space.suffixed candidate 1 = word := hstem
      rcases Nat.lt_trichotomy count 1 with hless | rfl | hmore
      · obtain rfl : count = 0 := by omega
        exact absurd htaken hfirst.free
      · exact hid.trans hone
      · exact absurd (hone ▸ hfirst.taken 1 hmore) hnew
  · rw [claimed_insert, List.mem_cons]
    constructor
    · rintro (hmade | htaken)
      · cases count with
        | zero => exact Or.inl (hid.symm.trans hmade.symm)
        | succ fewer => exact absurd (hid.symm.trans hmade.symm) (hbeyond fewer)
      · exact Or.inr htaken
    · rintro (rfl | htaken)
      · cases count with
        | zero => exact Or.inl hid.symm
        | succ fewer => exact Or.inr (hfirst.taken 0 (by omega))
      · exact Or.inr htaken

end Name.Namespace

/-! ## Runs of claims -/

variable {labels : Namespace} {names ids : List String} {stem word : String}

/-- Every label is a suffixed form of a candidate. -/
theorem Labelled.exists_suffixed (h : Labelled labels names ids) {id : String} (hid : id ∈ ids) :
    ∃ candidate ∈ names.map labelCandidate, ∃ count, id = labels.suffixed candidate count := by
  induction h with
  | nil => contradiction
  | @cons labels after name label names rest hclaim hrest ih =>
      rcases List.mem_cons.mp hid with rfl | hid
      · rcases Namespace.exists_isFirstFree_of_claim hclaim with ⟨count, hcount, -⟩
        exact ⟨labelCandidate name, List.mem_cons_self, count, hcount⟩
      · rcases ih hid with ⟨candidate, hcandidate, count, hcount⟩
        obtain rfl := (Namespace.eq_insert_of_claim hclaim).2.2
        rw [Namespace.suffixed_insert] at hcount
        exact ⟨candidate, List.mem_cons_of_mem _ hcandidate, count, hcount⟩

/--
A run of claims gives out a free word, made of a stem and a suffix, if the stem is claimed twice,
or once where it is taken already.
-/
theorem mem_labels_iff (h : Labelled labels names ids) (hstem : stem ++ labels.suffix = word)
    (hcandidates : word ∉ names.map labelCandidate)
    (htwice : ∀ front, front ++ labels.suffix ++ labels.suffix ≠ word) :
    word ∈ ids ↔ word ∉ labels.claimed ∧
      (2 ≤ (names.map labelCandidate).count stem ∨
        stem ∈ labels.claimed ∧ stem ∈ names.map labelCandidate) := by
  induction h with
  | nil => simp
  | @cons labels after name label names rest hclaim hrest ih =>
      rw [List.map_cons, List.mem_cons, not_or] at hcandidates
      rcases Namespace.mem_claimed_iff_of_claim hclaim hstem (Ne.symm hcandidates.1) htwice with
        ⟨hword, htaken⟩
      obtain rfl := (Namespace.eq_insert_of_claim hclaim).2.2
      have hlater := ih hstem hcandidates.2 htwice
      rw [htaken, Namespace.claimed_insert, List.mem_cons] at hlater
      rw [List.map_cons, List.mem_cons, List.mem_cons, hlater, List.count_cons]
      by_cases hname : labelCandidate name = stem
      · have hcount := List.count_pos_iff (a := stem) (l := names.map labelCandidate)
        grind
      · grind

/-- A keyword is among labels if clashing names and the suffix spell it. -/
theorem Labelled.keyword_mem_iff {settings : Settings}
    (h : Labelled (blankLabels settings) names ids) (hword : isKeyword word = true) :
    word ∈ ids ↔ settings.Spells names word := by
  have hcandidates := keyword_notMem_candidates hword names
  by_cases hempty : settings.collisionSuffix = ""
  · constructor
    · intro hmem
      rcases h.exists_suffixed hmem with ⟨candidate, hcandidate, count, rfl⟩
      rw [Namespace.suffixed_of_empty hempty] at hcandidates
      contradiction
    · rintro ⟨stem, hstem, htwice⟩
      rw [hempty, String.append_empty] at hstem
      subst hstem
      rw [List.count_eq_zero.mpr hcandidates] at htwice
      omega
  · have htwice : ∀ front, front ++ settings.collisionSuffix ++ settings.collisionSuffix ≠ word :=
      fun front => append_twice_ne_keyword hword hempty
    constructor
    · intro hmem
      rcases h.exists_suffixed hmem with ⟨candidate, hcandidate, count, hcount⟩
      cases count with
      | zero => exact absurd (hcount ▸ hcandidate) hcandidates
      | succ fewer =>
          have hstem : (blankLabels settings).suffixed candidate fewer ++
              settings.collisionSuffix = word := hcount.symm
          rcases ((mem_labels_iff h hstem hcandidates htwice).mp hmem).2 with hcount | ⟨htaken, -⟩
          · exact ⟨_, hstem, hcount⟩
          · contradiction
    · rintro ⟨stem, hstem, hcount⟩
      exact (mem_labels_iff h hstem hcandidates htwice).mpr ⟨List.not_mem_nil, Or.inl hcount⟩

/-! ## Modules -/

namespace Origination

variable {settings : Settings} {schema : Schema} {module : Module} {layout : Layout}
  {site : Site} {ledger : Ledger}

/-- The label of a field is claimed among siblings. -/
theorem exists_siblings (h : Origination settings schema module layout site ledger)
    {field : RecordField} (hfield : field ∈ fieldsOf module.records module.choices) :
    ∃ names ∈ schema.siblingNames, ∃ ids, Labelled (blankLabels settings) names ids ∧
      field.label ∈ ids := by
  rcases List.mem_append.mp hfield with hfield | hfield
  · rcases List.mem_flatMap.mp hfield with ⟨record, hrecord, hfield⟩
    rcases h.lists.exists_entry_of_record hrecord with ⟨entry, hentry, rfl⟩
    have hlabels := (h.stems.records entry hentry).labels
    rw [h.settings_eq] at hlabels
    refine ⟨_, List.mem_append_left _ ?_, _, hlabels, List.mem_map_of_mem hfield⟩
    exact List.mem_map_of_mem (h.lists.message_mem hentry)
  · rcases List.mem_flatMap.mp hfield with ⟨choice, hchoice, hfield⟩
    rcases h.lists.exists_entry_of_choice hchoice with ⟨entry, hentry, source, hsource, hpair⟩
    rcases List.mem_map.mp hfield with ⟨variant, hvariant, rfl⟩
    have hlabels :=
      (RecordLayout.hasChoice_of_mem (h.stems.records entry hentry) hpair).2.labels
    rw [h.settings_eq] at hlabels
    refine ⟨_, List.mem_append_right _ ?_, _, hlabels, List.mem_map_of_mem hvariant⟩
    exact List.mem_map_of_mem hsource

/-- The labels that siblings claim are labels of fields. -/
theorem exists_labels (h : Origination settings schema module layout site ledger)
    {names : List String} (hnames : names ∈ schema.siblingNames) :
    ∃ ids, Labelled (blankLabels settings) names ids ∧
      ∀ id ∈ ids, ∃ field ∈ fieldsOf module.records module.choices, field.label = id := by
  rcases List.mem_append.mp hnames with hnames | hnames
  · rcases List.mem_map.mp hnames with ⟨message, hmessage, rfl⟩
    rcases h.lists.exists_entry_of_message hmessage with ⟨entry, hentry, rfl⟩
    have hlabels := (h.stems.records entry hentry).labels
    rw [h.settings_eq] at hlabels
    have hrecord : entry.record ∈ module.records :=
      h.lists.records.items.mem_iff.mp (List.mem_map_of_mem (List.mem_map_of_mem hentry))
    refine ⟨_, hlabels, ?_⟩
    intro id hid
    rcases List.mem_map.mp hid with ⟨field, hfield, rfl⟩
    exact ⟨field, List.mem_append_left _ (List.mem_flatMap.mpr ⟨_, hrecord, hfield⟩), rfl⟩
  · rcases List.mem_map.mp hnames with ⟨source, hsource, rfl⟩
    rcases h.lists.choices.exists_of_source hsource with ⟨choice, hchoice, hpair⟩
    rcases List.mem_flatMap.mp hpair with ⟨entry, hentry, hpair⟩
    have hlabels :=
      (RecordLayout.hasChoice_of_mem (h.stems.records entry hentry) hpair).2.labels
    rw [h.settings_eq] at hlabels
    refine ⟨_, hlabels, ?_⟩
    intro id hid
    rcases List.mem_map.mp hid with ⟨variant, hvariant, rfl⟩
    refine ⟨variant.field, List.mem_append_right _ ?_, rfl⟩
    exact List.mem_flatMap.mpr ⟨choice, hchoice, List.mem_map_of_mem hvariant⟩

end Origination

/--
A keyword is the label of a field of a module if two siblings clash over a label that the
collision suffix turns into the keyword.
-/
theorem keyword_label_iff {settings : Settings} {schema : Schema} {module : Module} {word : String}
    (h : buildModule settings schema = .ok module) (hword : isKeyword word = true) :
    (∃ field ∈ fieldsOf module.records module.choices, field.label = word) ↔
      ∃ names ∈ schema.siblingNames, settings.Spells names word := by
  rcases exists_layout h with ⟨layout, site, ledger, horigin⟩
  constructor
  · rintro ⟨field, hfield, rfl⟩
    rcases horigin.exists_siblings hfield with ⟨names, hnames, ids, hlabels, hlabel⟩
    exact ⟨names, hnames, (hlabels.keyword_mem_iff hword).mp hlabel⟩
  · rintro ⟨names, hnames, hspells⟩
    rcases horigin.exists_labels hnames with ⟨ids, hlabels, hfields⟩
    exact hfields word ((hlabels.keyword_mem_iff hword).mpr hspells)

/-- A text in which two fields ask for the label {lit}`i`. -/
def clashingText : String :=
  "syntax = \"proto3\"; message M \x7b int32 i = 1; int32 I = 2; \x7d"

/-- With the suffix {lit}`f`, the second field has a keyword for its label. -/
theorem keyword_label_clashingText :
    ∃ schema module, Source.schemaOfText clashingText = .ok schema ∧
      buildModule { collisionSuffix := "f" } schema = .ok module ∧ isKeyword "if" = true ∧
      ((∃ field ∈ fieldsOf module.records module.choices, field.label = "if") ↔
        ∃ names ∈ schema.siblingNames,
          Settings.Spells { collisionSuffix := "f" } names "if") ∧
      ∃ field ∈ fieldsOf module.records module.choices, field.label = "if" := by
  have hok : (Source.schemaOfText clashingText).toOption.any (fun schema =>
      (buildModule { collisionSuffix := "f" } schema).toOption.any fun module =>
        (fieldsOf module.records module.choices).any fun field => field.label = "if") = true := by
    decide +kernel
  cases hschema : Source.schemaOfText clashingText with
  | error error => simp [hschema, Except.toOption] at hok
  | ok schema =>
      simp only [hschema, Except.toOption, Option.any_some] at hok
      cases hmodule : buildModule { collisionSuffix := "f" } schema with
      | error error => simp [hmodule] at hok
      | ok module =>
          have hword : isKeyword "if" = true := by decide
          have hlabelled : ∃ field ∈ fieldsOf module.records module.choices,
              field.label = "if" := by
            simpa [hmodule] using hok
          exact ⟨schema, module, rfl, hmodule, hword, keyword_label_iff hmodule hword, hlabelled⟩

end ElmBinding
