import Mathlib.Data.List.DropRight
import ElmBinding.Proofs.Sequence.Spans
import ElmBinding.Source.Comments

/-!
# Comments above a declaration

The comments above a declaration are told by the lines of the source.  The lines right above it that
are blank or comments are a run, and the comment lines of the run stand in maximal groups.  The
group at the end of the run is the leading comment; every other group is a detached one.

Main results:

- Definition {lit}`textLines`: the lines of a text, without the line breaks.
- Theorem {lit}`linesAbove_eq`: the lines above a place are the first lines of the text.
- Theorem {lit}`filter_commentGroups`: the nonempty groups of comment lines are the maximal ones.
- Definition {lit}`IsRun`: the longest block of lines without code at the end of lines.
- Definition {lit}`Collects`: the comments that the groups of a run make.
- Theorem {lit}`commentsBeside_collects`: the comments of a declaration are those of the run above.
-/

namespace ElmBinding
namespace Source

open Text Sequence

/-! ## Lines of a text -/

/-- A line without the carriage return that belongs to its line break. -/
def withoutReturn (line : List Char) : List Char :=
  if line.getLast? = some '\r' then line.dropLast else line

/-- The lines of a text; the last one may stand without a line break, unless it is empty. -/
def textLines (source : List Char) : List (List Char) :=
  (splitAtChar '\n' source).dropLast.map withoutReturn ++
    (splitAtChar '\n' source).getLast?.toList.filter fun line => !line.isEmpty

/-- The number of the line that holds a place, counted from zero. -/
def lineNumber (source : List Char) (place : Nat) : Nat :=
  (source.take place).count '\n'

/-- The lines of a text above the one that holds a place. -/
def textLinesAbove (source : List Char) (place : Nat) : List (List Char) :=
  (textLines source).take (lineNumber source place)

/-- There is one piece more than there are marks. -/
theorem length_splitAtChar (mark : Char) (text : List Char) :
    (splitAtChar mark text).length = text.count mark + 1 := by
  induction text with
  | nil => rfl
  | cons c rest ih =>
      by_cases hc : c = mark
      · subst hc
        rw [splitAtChar, if_pos rfl, List.length_cons, ih, List.count_cons_self]
      · rw [splitAtChar, if_neg hc, List.count_cons_of_ne hc, ← ih]
        cases hrest : splitAtChar mark rest with
        | nil => exact absurd hrest (splitAtChar_ne_nil mark rest)
        | cons piece pieces => rfl

/-- The pieces of a front that a mark ends are the first pieces of the whole text. -/
theorem take_splitAtChar_append (mark : Char) (front back : List Char) :
    (splitAtChar mark (front ++ back)).take (front.count mark) =
      (splitAtChar mark front).dropLast := by
  by_cases hmark : mark ∈ front
  · -- The front is cut at its last mark: no piece before that mark reads on into the back.
    rcases List.eq_append_cons_of_mem (List.mem_reverse.mpr hmark) with ⟨tail, init, heq, htail⟩
    have hfront : front = init.reverse ++ mark :: tail.reverse := by
      rw [← List.reverse_reverse front, heq]
      simp
    have hnot : mark ∉ tail.reverse := mt List.mem_reverse.mp htail
    have hcount : front.count mark = (splitAtChar mark init.reverse).length := by
      rw [length_splitAtChar, hfront, List.count_append, List.count_cons_self,
        List.count_eq_zero_of_not_mem hnot]
    rw [hcount, hfront, List.append_assoc, List.cons_append, splitAtChar_append,
      splitAtChar_append, List.take_left, splitAtChar_of_notMem hnot, List.dropLast_concat]
  · rw [List.count_eq_zero_of_not_mem hmark, splitAtChar_of_notMem hmark]
    rfl

/-- As many line breaks as stand before a place end pieces of the text. -/
theorem lineNumber_le_pieces (source : List Char) (place : Nat) :
    lineNumber source place ≤ (splitAtChar '\n' source).dropLast.length := by
  rw [List.length_dropLast, length_splitAtChar, Nat.add_sub_cancel]
  exact (List.take_sublist place source).count_le '\n'

/-- No line above a place is missing. -/
theorem lineNumber_le_length (source : List Char) (place : Nat) :
    lineNumber source place ≤ (textLines source).length := by
  have hpieces := lineNumber_le_pieces source place
  rw [textLines, List.length_append, List.length_map]
  omega

/-- The lines above a place are the pieces that the line breaks before it end. -/
theorem textLinesAbove_eq (source : List Char) (place : Nat) :
    textLinesAbove source place =
      (splitAtChar '\n' (source.take place)).dropLast.map withoutReturn := by
  have hcount := lineNumber_le_pieces source place
  have hpieces := take_splitAtChar_append '\n' (source.take place) (source.drop place)
  rw [List.take_append_drop] at hpieces
  rw [← hpieces, textLinesAbove, textLines,
    List.take_append_of_le_length (by rw [List.length_map]; exact hcount), ← List.map_take,
    List.dropLast_eq_take, List.take_take, ← List.length_dropLast, Nat.min_eq_left hcount,
    lineNumber]

/-! ## What a line holds -/

/-- Whether a line is a comment, without the white space at its ends. -/
def isCommentLine (line : List Char) : Bool :=
  ['/', '/'].isPrefixOf (trimWhile isBlank line)

/-- Whether a line is empty or a comment, without the white space at its ends. -/
def holdsNoCode (line : List Char) : Bool :=
  (trimWhile isBlank line).isEmpty || isCommentLine line

/-- The text of a comment line: without its mark, one blank behind it and blanks at its end. -/
def remark (line : List Char) : List Char :=
  (withoutBlank ((trimWhile isBlank line).drop 2)).rdropWhile isBlank

/-- What stands on a line does not hang on the carriage return of its line break. -/
theorem trimWhile_withoutReturn (line : List Char) :
    trimWhile isBlank (withoutReturn line) = trimWhile isBlank line := by
  unfold withoutReturn
  split
  · rename_i hlast
    rcases List.getLast?_eq_some_iff.mp hlast with ⟨init, rfl⟩
    have hreturn : isBlank '\r' = true := by decide
    rw [List.dropLast_concat, trimWhile, trimWhile, List.dropWhile_append]
    split
    · rename_i hnone
      rw [List.isEmpty_iff.mp hnone, List.dropWhile_cons_of_pos hreturn]
      rfl
    · rw [List.reverse_append, List.reverse_singleton, List.singleton_append,
        List.dropWhile_cons_of_pos hreturn]
  · rfl

/-- Text without white space at its ends is empty, a comment or code. -/
theorem ofTrimmed_cases (text : List Char) :
    (text = [] ∧ Line.ofTrimmed text = .blank) ∨
      (['/', '/'].isPrefixOf text = true ∧ Line.ofTrimmed text = .comment (text.drop 2)) ∨
      (text ≠ [] ∧ ['/', '/'].isPrefixOf text = false ∧ Line.ofTrimmed text = .code) := by
  unfold Line.ofTrimmed
  split
  · exact .inl ⟨rfl, rfl⟩
  · exact .inr (.inl ⟨rfl, rfl⟩)
  · rename_i hsome hmark
    refine .inr (.inr ⟨hsome, ?_, rfl⟩)
    by_contra hprefix
    rw [Bool.not_eq_false, List.isPrefixOf_iff_prefix] at hprefix
    rcases hprefix with ⟨rest, rfl⟩
    exact hmark rest rfl

/-- A line is told to be a comment when it is one. -/
theorem isComment_ofText (line : List Char) :
    (Line.ofText line).isComment = isCommentLine line := by
  rw [Line.ofText, isCommentLine]
  rcases ofTrimmed_cases (trimWhile isBlank line) with ⟨htext, h⟩ | ⟨htext, h⟩ | ⟨-, htext, h⟩
  · rw [h, htext]
    rfl
  · rw [h, htext]
    rfl
  · rw [h, htext]
    rfl

/-- A line is told to be code when it is neither empty nor a comment. -/
theorem isCode_ofText (line : List Char) : (!(Line.ofText line).isCode) = holdsNoCode line := by
  rw [Line.ofText, holdsNoCode, isCommentLine]
  rcases ofTrimmed_cases (trimWhile isBlank line) with ⟨htext, h⟩ | ⟨htext, h⟩ | ⟨hne, htext, h⟩
  · rw [h, htext]
    rfl
  · rw [h, htext, Bool.or_true]
    rfl
  · rw [h, htext, List.isEmpty_eq_false_iff.mpr hne]
    rfl

/-- What is read off a comment line. -/
theorem ofText_of_isCommentLine {line : List Char} (h : isCommentLine line = true) :
    Line.ofText line = .comment ((trimWhile isBlank line).drop 2) := by
  rw [isCommentLine] at h
  rw [Line.ofText]
  rcases ofTrimmed_cases (trimWhile isBlank line) with ⟨htext, -⟩ | ⟨-, hline⟩ | ⟨-, htext, -⟩
  · rw [htext] at h
    contradiction
  · exact hline
  · rw [htext] at h
    contradiction

/-- Comment lines hold no code. -/
theorem holdsNoCode_of_isCommentLine {line : List Char} (h : isCommentLine line = true) :
    holdsNoCode line = true := by
  rw [holdsNoCode, h, Bool.or_true]

/-- A line ends where its comment ends, so no white space is left behind the comment. -/
theorem withoutBlank_eq_remark (line : List Char) :
    withoutBlank ((trimWhile isBlank line).drop 2) = remark line := by
  have hsuffix : withoutBlank ((trimWhile isBlank line).drop 2) <:+ trimWhile isBlank line := by
    refine List.IsSuffix.trans ?_ (List.drop_suffix 2 _)
    unfold withoutBlank
    split
    · rename_i heq
      rw [heq]
      exact List.suffix_cons _ _
    · exact List.suffix_rfl
  refine (List.rdropWhile_eq_self_iff.mpr ?_).symm
  intro hne
  rw [hsuffix.getLast hne]
  exact List.rdropWhile_last_not isBlank _ _

/-! ## Groups of comment lines -/

/-- The text that is read off the comment lines of a group. -/
def textsOf (lines : List (List Char)) : List (List Char) :=
  lines.filterMap fun line => (Line.ofText line).comment?

/-- The text of a group of comment lines, its remarks one below the other. -/
def blockText (run : List (List Char)) (group : Nat × Nat) : String :=
  String.ofList (['\n'].intercalate ((spanItems run group).map remark))

/-- The text read off a comment line in front. -/
theorem textsOf_cons {line : List Char} (rest : List (List Char))
    (h : isCommentLine line = true) :
    textsOf (line :: rest) = (trimWhile isBlank line).drop 2 :: textsOf rest := by
  have htext : (Line.ofText line).comment? = some ((trimWhile isBlank line).drop 2) := by
    rw [ofText_of_isCommentLine h]
    rfl
  exact List.filterMap_cons_some htext

/-- The text of comment lines is made of their remarks. -/
theorem joinLines_textsOf {lines : List (List Char)}
    (h : ∀ line ∈ lines, isCommentLine line = true) :
    joinLines (textsOf lines) = String.ofList (['\n'].intercalate (lines.map remark)) := by
  have hremarks : (textsOf lines).map withoutBlank = lines.map remark := by
    induction lines with
    | nil => rfl
    | cons line rest ih =>
        rcases List.forall_mem_cons.mp h with ⟨hline, hrest⟩
        rw [textsOf_cons rest hline, List.map_cons, ih hrest, withoutBlank_eq_remark, List.map_cons]
  rw [joinLines, hremarks]

/-- The lines of a group are comment lines. -/
theorem isCommentLine_of_mem_spanItems {lines : List (List Char)} {group : Nat × Nat}
    (hgroup : group ∈ spans isCommentLine lines) {line : List Char}
    (hline : line ∈ spanItems lines group) : isCommentLine line = true := by
  have hspan : IsSpan isCommentLine lines group.1 group.2 := mem_spans_iff.mp hgroup
  rcases List.getElem?_of_mem hline with ⟨i, hi⟩
  rw [spanItems, List.getElem?_take, List.getElem?_drop] at hi
  split at hi
  · have hat := hspan.inside (group.1 + i) (Nat.le_add_right _ _) (by omega)
    rw [hi] at hat
    exact hat
  · contradiction

/-- A line that is no comment ends the group in front. -/
theorem commentGroups_cons_of_not {line : Line} (rest : List Line) (h : line.isComment = false) :
    commentGroups (line :: rest) = [] :: commentGroups rest := by
  cases line with
  | blank => simp [commentGroups]
  | comment text => contradiction
  | code => simp [commentGroups]

/-- A comment line continues the group in front. -/
theorem commentGroups_cons_comment {rest : List Line} {group : List (List Char)}
    {groups : List (List (List Char))} (text : List Char)
    (h : commentGroups rest = group :: groups) :
    commentGroups (.comment text :: rest) = (text :: group) :: groups := by
  simp [commentGroups, h]

/-- The nonempty groups, when the later ones are known. -/
theorem filter_cons_textsOf {lines : List (List Char)} {later : List (List (List Char))}
    (hlater : later.filter (fun group => !group.isEmpty) =
      ((spans isCommentLine lines).filter fun group => group.1 ≠ 0).map fun group =>
        textsOf (spanItems lines group)) :
    (textsOf (lines.takeWhile isCommentLine) :: later).filter (fun group => !group.isEmpty) =
      (spans isCommentLine lines).map fun group => textsOf (spanItems lines group) := by
  rw [spans_eq_append, List.map_append, ← hlater]
  by_cases hfront : lines.takeWhile isCommentLine = []
  · rw [if_pos hfront, hfront]
    rfl
  · have htake : spanItems lines (0, (lines.takeWhile isCommentLine).length) =
        lines.takeWhile isCommentLine :=
      (List.prefix_iff_eq_take.mp (List.takeWhile_prefix isCommentLine)).symm
    rw [if_neg hfront, List.map_singleton, htake, List.singleton_append]
    refine List.filter_cons_of_pos ?_
    -- A comment line in front has a text, so the group in front is kept.
    cases hlines : lines.takeWhile isCommentLine with
    | nil => contradiction
    | cons line rest =>
        have hline : isCommentLine line = true := by
          refine List.mem_takeWhile_imp (l := lines) ?_
          rw [hlines]
          exact List.mem_cons_self
        rw [textsOf_cons rest hline]
        rfl

/-- The groups of lines are the comment lines in front, and behind them the later groups. -/
theorem exists_commentGroups_eq (lines : List (List Char)) : ∃ later,
    commentGroups (lines.map Line.ofText) = textsOf (lines.takeWhile isCommentLine) :: later ∧
      later.filter (fun group => !group.isEmpty) =
        ((spans isCommentLine lines).filter fun group => group.1 ≠ 0).map fun group =>
          textsOf (spanItems lines group) := by
  induction lines with
  | nil => exact ⟨[], rfl, rfl⟩
  | cons line rest ih =>
      rcases ih with ⟨later, hgroups, hlater⟩
      -- Later groups of the rest stand one line further on among all lines.
      have hmoved : ∀ groups : List (Nat × Nat),
          (((groups.map (movedBy 1)).filter fun group => group.1 ≠ 0).map fun group =>
              textsOf (spanItems (line :: rest) group)) =
            groups.map fun group => textsOf (spanItems rest group) := by
        intro groups
        rw [filter_map_movedBy, List.map_map]
        refine List.map_congr_left fun group _ => congrArg textsOf ?_
        exact spanItems_append_movedBy [line] rest group
      rw [List.map_cons, spans]
      cases hline : isCommentLine line with
      | false =>
          have hnot : (Line.ofText line).isComment = false := by rw [isComment_ofText, hline]
          refine ⟨commentGroups (rest.map Line.ofText), ?_, ?_⟩
          · rw [commentGroups_cons_of_not _ hnot, List.takeWhile_cons_of_neg (by simp [hline])]
            rfl
          · rw [hgroups, filter_cons_textsOf hlater, if_neg Bool.false_ne_true, hmoved]
      | true =>
          refine ⟨later, ?_, ?_⟩
          · rw [ofText_of_isCommentLine hline, commentGroups_cons_comment _ hgroups,
              List.takeWhile_cons_of_pos hline, textsOf_cons _ hline]
          · rw [hlater, if_pos rfl, List.filter_cons_of_neg (by simp), hmoved]

/-- The nonempty groups of lines are the maximal groups of comment lines. -/
theorem filter_commentGroups (lines : List (List Char)) :
    (commentGroups (lines.map Line.ofText)).filter (fun group => !group.isEmpty) =
      (spans isCommentLine lines).map fun group => textsOf (spanItems lines group) := by
  rcases exists_commentGroups_eq lines with ⟨later, hgroups, hlater⟩
  rw [hgroups, filter_cons_textsOf hlater]

/-- The blocks of lines are the texts of the maximal groups of comment lines. -/
theorem commentBlocks_ofText (lines : List (List Char)) :
    commentBlocks (lines.map Line.ofText) = (spans isCommentLine lines).map (blockText lines) := by
  rw [commentBlocks, filter_commentGroups, List.map_map]
  refine List.map_congr_left fun group hgroup => ?_
  exact joinLines_textsOf fun line hline => isCommentLine_of_mem_spanItems hgroup hline

/-! ## The run above a declaration -/

/-- A run is the longest block of lines without code that ends where the lines end. -/
structure IsRun (lines run : List (List Char)) : Prop where
  atEnd : run <:+ lines
  noCode : ∀ line ∈ run, holdsNoCode line = true
  longest : ∀ block, block <:+ lines → (∀ line ∈ block, holdsNoCode line = true) →
    block.length ≤ run.length

/-- The comments that stand in the groups of a run at the end of lines. -/
structure Collects (lines run : List (List Char)) (groups : List (Nat × Nat))
    (comments : Comments) : Prop where
  leading : lines.getLast?.any isCommentLine = true →
    ∃ group ∈ groups, group.2 = run.length ∧ comments.leading = blockText run group
  noLeading : lines.getLast?.any isCommentLine = false → comments.leading = ""
  detached : comments.detached =
    (groups.filter fun group => group.2 ≠ run.length).map (blockText run)

/-- Elements of a class at the end of a list are among those that stand there in a row. -/
theorem rtakeWhile_append_of_forall {inClass : List Char → Bool} {front back : List (List Char)}
    (h : ∀ line ∈ back, inClass line = true) :
    (front ++ back).rtakeWhile inClass = front.rtakeWhile inClass ++ back := by
  rw [List.rtakeWhile, List.reverse_append,
    List.takeWhile_append_of_pos fun line hline => h line (List.mem_reverse.mp hline),
    List.reverse_append, List.reverse_reverse, List.rtakeWhile]

/-- Lines are those in front of the comment lines at their end, and these comment lines. -/
theorem rdropWhile_append_rtakeWhile (lines : List (List Char)) :
    lines.rdropWhile isCommentLine ++ lines.rtakeWhile isCommentLine = lines := by
  rw [List.rdropWhile, List.rtakeWhile, ← List.reverse_append, List.takeWhile_append_dropWhile,
    List.reverse_reverse]

/-- The lines without code at the end of lines are a run. -/
theorem isRun_rtakeWhile (lines : List (List Char)) :
    IsRun lines (lines.rtakeWhile holdsNoCode) where
  atEnd := List.rtakeWhile_suffix holdsNoCode lines
  noCode _ hline := List.mem_rtakeWhile_imp hline
  longest block hblock hall := by
    rcases hblock with ⟨far, rfl⟩
    rw [rtakeWhile_append_of_forall hall, List.length_append]
    omega

/-- A run ends in the comment lines at the end of the lines. -/
theorem rtakeWhile_holdsNoCode (lines : List (List Char)) :
    lines.rtakeWhile holdsNoCode =
      (lines.rdropWhile isCommentLine).rtakeWhile holdsNoCode ++
        lines.rtakeWhile isCommentLine := by
  have hcomments : ∀ line ∈ lines.rtakeWhile isCommentLine, holdsNoCode line = true :=
    fun _ hline => holdsNoCode_of_isCommentLine (List.mem_rtakeWhile_imp hline)
  rw [← rtakeWhile_append_of_forall hcomments, rdropWhile_append_rtakeWhile]

/-- Before the comment lines at the end of lines there is no comment line. -/
theorem isCommentLine_getLast?_rdropWhile (lines : List (List Char)) :
    ∀ line ∈ ((lines.rdropWhile isCommentLine).rtakeWhile holdsNoCode).getLast?,
      isCommentLine line = false := by
  intro line hline
  rcases List.getLast?_eq_some_iff.mp hline with ⟨init, hinit⟩
  have hsuffix := List.rtakeWhile_suffix holdsNoCode (lines.rdropWhile isCommentLine)
  rw [hinit] at hsuffix
  have hne : lines.rdropWhile isCommentLine ≠ [] := by
    intro hnil
    rw [hnil, List.suffix_nil] at hsuffix
    simp at hsuffix
  have hlast := List.rdropWhile_last_not isCommentLine lines hne
  rw [← hsuffix.getLast (by simp), List.getLast_append_singleton] at hlast
  exact Bool.eq_false_iff.mpr hlast

/-- Lines that end in a comment line end in a group of them. -/
theorem rtakeWhile_isCommentLine_ne_nil {lines : List (List Char)}
    (h : lines.getLast?.any isCommentLine = true) : lines.rtakeWhile isCommentLine ≠ [] := by
  rcases (Option.any_eq_true _ _).mp h with ⟨line, hline, hcomment⟩
  rcases List.getLast?_eq_some_iff.mp hline with ⟨init, rfl⟩
  rw [List.rtakeWhile_concat_pos _ _ _ hcomment]
  exact List.concat_ne_nil _ _

/-- Lines that do not end in a comment line do not end in a group of them. -/
theorem rtakeWhile_isCommentLine_eq_nil {lines : List (List Char)}
    (h : lines.getLast?.any isCommentLine = false) : lines.rtakeWhile isCommentLine = [] := by
  rw [List.rtakeWhile_eq_nil_iff]
  intro hne hcomment
  rw [List.getLast?_eq_some_getLast hne, Option.any_some, hcomment] at h
  contradiction

/-- The lines above a place, nearest first, are those of the text. -/
theorem linesAbove_eq (source : List Char) (place : Nat) :
    linesAbove source place = (textLinesAbove source place).reverse.map Line.ofText := by
  rw [linesAbove, textLinesAbove_eq, List.map_reverse, List.map_map]
  refine congrArg List.reverse (List.map_congr_left fun line _ => ?_)
  rw [Function.comp_apply, Line.ofText, Line.ofText, trimWhile_withoutReturn]

/-- The leading comment is made of the comment lines at the end of the lines. -/
theorem leadingComment_eq (lines : List (List Char)) :
    leadingComment (lines.reverse.map Line.ofText) =
      String.ofList (['\n'].intercalate ((lines.rtakeWhile isCommentLine).map remark)) := by
  have hclass : Line.isComment ∘ Line.ofText = isCommentLine := funext isComment_ofText
  have htexts : (((lines.reverse.map Line.ofText).takeWhile Line.isComment).filterMap
      Line.comment?).reverse = textsOf (lines.rtakeWhile isCommentLine) := by
    rw [List.takeWhile_map, hclass, List.filterMap_map, ← List.filterMap_reverse]
    rfl
  rw [leadingComment, htexts, joinLines_textsOf fun _ hline => List.mem_rtakeWhile_imp hline]

/-- The detached comments are the blocks between code and the leading comment. -/
theorem detachedComments_eq (lines : List (List Char)) :
    detachedComments (lines.reverse.map Line.ofText) =
      (spans isCommentLine ((lines.rdropWhile isCommentLine).rtakeWhile holdsNoCode)).map
        (blockText ((lines.rdropWhile isCommentLine).rtakeWhile holdsNoCode)) := by
  have hclass : Line.isComment ∘ Line.ofText = isCommentLine := funext isComment_ofText
  have hcode : (fun line : Line => !line.isCode) ∘ Line.ofText = holdsNoCode := funext isCode_ofText
  rw [detachedComments, List.dropWhile_map, hclass, List.takeWhile_map, hcode, ← List.map_reverse,
    commentBlocks_ofText, List.rdropWhile, List.rtakeWhile, List.reverse_reverse]

section Ending

variable {body lead : List (List Char)}
  (hgap : ∀ line ∈ body.getLast?, isCommentLine line = false)
  (hlead : ∀ line ∈ lead, isCommentLine line = true)
include hgap hlead

/-- The last comment lines of a run are a group that ends it. -/
theorem exists_span_ending (hsome : lead ≠ []) : ∃ group ∈ spans isCommentLine (body ++ lead),
    group.2 = (body ++ lead).length ∧ spanItems (body ++ lead) group = lead := by
  refine ⟨movedBy body.length (0, lead.length), ?_, ?_, ?_⟩
  · rw [spans_append lead hgap, spans_of_forall hlead, if_neg hsome]
    exact List.mem_append_right _ List.mem_cons_self
  · rw [List.length_append]
    exact Nat.add_comm _ _
  · rw [spanItems_append_movedBy, spanItems_zero, List.take_length]

/-- The groups that do not end a run are those before its last comment lines. -/
theorem filter_spans_ending :
    ((spans isCommentLine (body ++ lead)).filter fun group =>
      group.2 ≠ (body ++ lead).length) = spans isCommentLine body := by
  rw [spans_append lead hgap, List.filter_append, spans_of_forall hlead]
  have hbody : ((spans isCommentLine body).filter fun group =>
      group.2 ≠ (body ++ lead).length) = spans isCommentLine body := by
    rw [List.filter_eq_self]
    intro group hgroup
    have hlt := lt_length_of_mem_spans hgroup hgap
    rw [decide_eq_true_eq, List.length_append]
    omega
  rw [hbody]
  by_cases hnone : lead = []
  · simp [hnone]
  · simp [hnone, movedBy, Nat.add_comm]

end Ending

/-- The comments read off lines are those that the groups of their run make. -/
theorem collects_run (lines : List (List Char)) (trailing : String) :
    Collects lines (lines.rtakeWhile holdsNoCode)
      (spans isCommentLine (lines.rtakeWhile holdsNoCode))
      { detached := detachedComments (lines.reverse.map Line.ofText)
        leading := leadingComment (lines.reverse.map Line.ofText)
        trailing := trailing } := by
  have hgap := isCommentLine_getLast?_rdropWhile lines
  have hlead : ∀ line ∈ lines.rtakeWhile isCommentLine, isCommentLine line = true :=
    fun _ hline => List.mem_rtakeWhile_imp hline
  have htext := leadingComment_eq lines
  rw [rtakeWhile_holdsNoCode]
  refine ⟨?_, ?_, ?_⟩
  · intro hlast
    have hsome := rtakeWhile_isCommentLine_ne_nil hlast
    rcases exists_span_ending hgap hlead hsome with ⟨group, hgroup, hend, hitems⟩
    refine ⟨group, hgroup, hend, ?_⟩
    rw [blockText, hitems]
    exact htext
  · intro hlast
    rw [rtakeWhile_isCommentLine_eq_nil hlast] at htext
    exact htext
  · rw [filter_spans_ending hgap hlead]
    refine (detachedComments_eq lines).trans (List.map_congr_left fun group hgroup => ?_)
    have hbounds := bounds_of_mem_spans hgroup
    rw [blockText, blockText, spanItems_append_of_le _ hbounds.2 hbounds.1]

/--
The comments of a declaration.  Every line above it is there; those nearest to it that hold no code
are a run, and each maximal group of comment lines in this run is one comment.
-/
theorem commentsBeside_collects (source : List Char) (start stop : Nat) :
    lineNumber source start ≤ (textLines source).length ∧
      ∃ run groups, IsRun (textLinesAbove source start) run ∧
        AreSpans isCommentLine run groups ∧
        Collects (textLinesAbove source start) run groups (commentsBeside source start stop) := by
  refine ⟨lineNumber_le_length source start, _, _, isRun_rtakeWhile _, areSpans_spans _ _, ?_⟩
  rw [commentsBeside, linesAbove_eq]
  exact collects_run _ _

/-- A blank line sets a detached comment off, and code hides the lines above it. -/
example : commentsBeside "// far\nx\n// apart\n\n//  near\n// by\ny".toList 34 35 =
    { detached := ["apart"], leading := " near\nby", trailing := "" } := by
  decide +kernel

end Source
end ElmBinding
