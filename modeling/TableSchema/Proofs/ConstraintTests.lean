import TableSchema.Proofs.CutClauses
import TableSchema.Proofs.RespacedSegments
import TableSchema.Proofs.WholeWords

/-! # Two tests for constraints

Whether a clause is a constraint of its table is asked in two ways: of the whole clause, or of its
code in front of the first line comment. A clause that was cut from a body has nothing behind that
comment, so for it the answers are the same.
-/

namespace TableSchema.Sql

open Text

/-! ## How a constraint starts -/

def constraintWords : List (List Char) :=
  ["unique".toList, "check".toList, "constraint".toList, "like".toList]

def constraintPairs : List (List Char × List Char) :=
  [("primary".toList, "key".toList), ("foreign".toList, "key".toList),
    ("exclude".toList, "using".toList)]

inductive ConstraintStart : (word blanks second : List Char) → Prop
  | word {word : List Char} (listed : word.map fold ∈ constraintWords) : ConstraintStart word [] []
  | pair {word blanks second : List Char}
      (listed : (word.map fold, second.map fold) ∈ constraintPairs) (nonempty : blanks ≠ [])
      (blank : AllBlank blanks) : ConstraintStart word blanks second
  | parenthesis {word blanks : List Char} (read : word.map fold = "exclude".toList)
      (blank : AllBlank blanks) : ConstraintStart word blanks ['(']

theorem wholeWordsAt_singleton_iff {keyword text : List Char} {previous : Option Char} :
    wholeWordsAt [keyword] previous text = true ↔ isWordAt previous = false ∧
      ∃ word rest, text = word ++ rest ∧ word.map fold = keyword ∧
        isWordAt rest.head? = false := by
  rw [wholeWordsAt, Bool.and_eq_true, Bool.not_eq_true', afterPhrase?]
  refine and_congr_right fun _ => ?_
  constructor
  · intro ends
    split at ends
    · rename_i rest read
      rcases afterKeyword?_eq_some.mp read with ⟨word, whole, same⟩
      exact ⟨word, rest, whole, same, by simpa using ends⟩
    · cases ends
  · rintro ⟨word, rest, whole, same, ends⟩
    have read : afterKeyword? keyword text = some rest :=
      afterKeyword?_eq_some.mpr ⟨word, whole, same⟩
    rw [read]
    simpa using ends

theorem head?_trimLeft_iff {text : List Char} :
    (trimLeft text).head? = some '(' ↔
      ∃ blanks rest, text = blanks ++ '(' :: rest ∧ AllBlank blanks := by
  constructor
  · intro opens
    rcases exists_blanks text with ⟨blanks, whole, blank⟩
    rcases List.head?_eq_some_iff.mp opens with ⟨rest, same⟩
    rw [same] at whole
    exact ⟨blanks, rest, whole, blank⟩
  · intro opens
    rcases opens with ⟨blanks, rest, rfl, blank⟩
    rw [trimLeft_blanks blank (bare_cons (by decide) rest)]
    rfl

theorem excludes_iff {text : List Char} :
    ((afterKeyword? "exclude".toList text).map afterExclude).getD false = true ↔
      wholeWordsAt ["exclude".toList, "using".toList] none text = true ∨
        ∃ word blanks rest, text = word ++ (blanks ++ '(' :: rest) ∧
          word.map fold = "exclude".toList ∧ AllBlank blanks := by
  cases found : afterKeyword? "exclude".toList text with
  | none =>
      refine iff_of_false Bool.false_ne_true ?_
      intro excludes
      rcases excludes with said | ⟨word, blanks, rest, whole, read, _⟩
      · rw [wholeWordsAt, afterPhrase?, found] at said
        · cases said
        · simp
      · rw [afterKeyword?_eq_some.mpr ⟨word, whole, read⟩] at found
        cases found
  | some rest =>
      have opens : (trimLeft rest).head? = some '(' ↔ ∃ word blanks more,
          text = word ++ (blanks ++ '(' :: more) ∧ word.map fold = "exclude".toList ∧
            AllBlank blanks := by
        rw [head?_trimLeft_iff]
        constructor
        · intro split
          rcases split with ⟨blanks, more, rfl, blank⟩
          rcases afterKeyword?_eq_some.mp found with ⟨word, whole, read⟩
          exact ⟨word, blanks, more, whole, read, blank⟩
        · intro split
          rcases split with ⟨word, blanks, more, whole, read, blank⟩
          rw [afterKeyword?_eq_some.mpr ⟨word, whole, read⟩] at found
          exact ⟨blanks, more, (Option.some.inj found).symm, blank⟩
      rw [Option.map_some, Option.getD_some, afterExclude, Bool.or_eq_true, decide_eq_true_eq,
        opens, or_comm, wholeWordsAt, afterPhrase?, found]
      · rfl
      · simp

theorem isKeyword_of_mem_constraintWords {keyword : List Char}
    (listed : keyword ∈ constraintWords) : IsKeyword keyword := by
  have all : AreKeywords constraintWords := by decide
  exact ⟨(all keyword listed).1, (all keyword listed).2⟩

theorem isKeyword_of_mem_constraintPairs {pair : List Char × List Char}
    (listed : pair ∈ constraintPairs) : IsKeyword pair.1 ∧ IsKeyword pair.2 := by
  have all : AreKeywords (constraintPairs.flatMap fun pair => [pair.1, pair.2]) := by decide
  have first := all pair.1 (List.mem_flatMap.mpr ⟨pair, listed, by simp⟩)
  have second := all pair.2 (List.mem_flatMap.mpr ⟨pair, listed, by simp⟩)
  exact ⟨⟨first.1, first.2⟩, ⟨second.1, second.2⟩⟩

theorem startsConstraint_iff_wholeWordsAt {text : List Char} :
    startsConstraint text = true ↔
      (∃ keyword ∈ constraintWords, wholeWordsAt [keyword] none text = true) ∨
        (∃ pair ∈ constraintPairs, wholeWordsAt [pair.1, pair.2] none text = true) ∨
        ∃ word blanks rest, text = word ++ (blanks ++ '(' :: rest) ∧
          word.map fold = "exclude".toList ∧ AllBlank blanks := by
  rw [startsConstraint, Bool.or_eq_true, excludes_iff, List.any_eq_true]
  simp only [constraintPhrases, constraintWords, constraintPairs, List.mem_cons, List.not_mem_nil,
    or_false, exists_eq_or_imp, exists_eq_left]
  exact iff_of_eq (by ac_rfl)

theorem startsConstraint_iff {text : List Char} :
    startsConstraint text = true ↔ ∃ word blanks second rest,
      text = word ++ (blanks ++ (second ++ rest)) ∧ ConstraintStart word blanks second ∧
        (second = ['('] ∨ isWordAt rest.head? = false) := by
  rw [startsConstraint_iff_wholeWordsAt]
  constructor
  · intro starts
    rcases starts with ⟨keyword, listed, whole⟩ | ⟨pair, listed, whole⟩ |
      ⟨word, blanks, rest, split, read, blank⟩
    · rcases wholeWordsAt_singleton_iff.mp whole with ⟨_, word, rest, split, rfl, ends⟩
      exact ⟨word, [], [], rest, split, .word listed, .inr ends⟩
    · rcases (wholeWordsAt_eq_true_iff (isKeyword_of_mem_constraintPairs listed).2).mp whole with
        ⟨_, _, rest, split, ⟨word, blanks, second, rfl, read, nonempty, blank, read'⟩, ends⟩
      refine ⟨word, blanks, second, rest, by simpa using split, .pair ?_ nonempty blank, .inr ends⟩
      rw [read, read']
      exact listed
    · exact ⟨word, blanks, ['('], rest, split, .parenthesis read blank, .inl rfl⟩
  · intro starts
    rcases starts with ⟨word, blanks, second, rest, split, start, ends⟩
    cases start with
    | word listed =>
        have ends : isWordAt rest.head? = false := ends.resolve_left (by simp)
        exact .inl
          ⟨_, listed, wholeWordsAt_singleton_iff.mpr ⟨rfl, word, rest, split, rfl, ends⟩⟩
    | pair listed nonempty blank =>
        have keywords := isKeyword_of_mem_constraintPairs listed
        have ends : isWordAt rest.head? = false := by
          refine ends.resolve_left ?_
          rintro rfl
          have marks := keywords.2.lower (fold '(') (List.mem_singleton_self _)
          cases marks
        refine .inr (.inl ⟨_, listed, (wholeWordsAt_eq_true_iff keywords.2).mpr ⟨rfl,
          word ++ (blanks ++ second), rest, by simpa using split, ?_, ends⟩⟩)
        exact ⟨word, blanks, second, rfl, rfl, nonempty, blank, rfl⟩
    | parenthesis read blank => exact .inr (.inr ⟨word, blanks, rest, split, read, blank⟩)

/-! ## What may follow -/

def SetOff (text : List Char) : Prop := ∀ character ∈ text.head?, isBlank character = true

theorem SetOff.isWordAt_head? {tail : List Char} (setOff : SetOff tail) :
    isWordAt tail.head? = false := by
  cases tail with
  | nil => rfl
  | cons character tail => exact isWord_eq_false_of_isBlank (setOff character rfl)

namespace ConstraintStart

variable {word blanks second : List Char}

theorem isKeyword (start : ConstraintStart word blanks second) : IsKeyword (word.map fold) := by
  cases start with
  | word listed => exact isKeyword_of_mem_constraintWords listed
  | pair listed _ _ => exact (isKeyword_of_mem_constraintPairs listed).1
  | parenthesis read _ =>
      have listed : ("exclude".toList, "using".toList) ∈ constraintPairs := by decide
      rw [read]
      exact (isKeyword_of_mem_constraintPairs listed).1

theorem allBlank (start : ConstraintStart word blanks second) : AllBlank blanks := by
  cases start with
  | word _ => exact allBlank_nil
  | pair _ _ blank => exact blank
  | parenthesis _ blank => exact blank

theorem isWord_word (start : ConstraintStart word blanks second) :
    ∀ character ∈ word, isWord character = true :=
  isWord_of_read rfl start.isKeyword.lower

theorem isWord_second (start : ConstraintStart word blanks second) :
    (∀ character ∈ second, isWord character = true) ∨ second = ['('] := by
  cases start with
  | word _ => exact .inl (by simp)
  | pair listed _ _ =>
      exact .inl (isWord_of_read rfl (isKeyword_of_mem_constraintPairs listed).2.lower)
  | parenthesis _ _ => exact .inr rfl

theorem visible_second (start : ConstraintStart word blanks second) :
    ∀ character ∈ second, isBlank character = false := by
  cases start with
  | word _ => simp
  | pair listed _ _ =>
      exact fun _ => visible_of_fold rfl (isKeyword_of_mem_constraintPairs listed).2.lower
  | parenthesis _ _ =>
      intro character member
      rw [List.mem_singleton.mp member]
      decide

theorem alone_or_exists (start : ConstraintStart word blanks second) :
    (blanks = [] ∧ second = []) ∨ ∃ character, character ∈ second := by
  cases start with
  | word _ => exact .inl ⟨rfl, rfl⟩
  | pair listed _ _ =>
      refine .inr (List.exists_mem_of_ne_nil _ ?_)
      rintro rfl
      exact (isKeyword_of_mem_constraintPairs listed).2.nonempty rfl
  | parenthesis _ _ => exact .inr ⟨'(', List.mem_singleton_self _⟩

/-- Where a start is followed by a text that no word goes on with, it stands in front of that text,
or the text in front is its first word. -/
theorem exists_front_or_gap {text tail rest : List Char}
    (start : ConstraintStart word blanks second) (stops : isWordAt tail.head? = false)
    (whole : text ++ tail = word ++ (blanks ++ (second ++ rest))) :
    (∃ front, text = word ++ (blanks ++ (second ++ front)) ∧ rest = front ++ tail) ∨
      ∃ gap, text = word ++ gap ∧ AllBlank gap ∧ ∃ character ∈ second, character ∈ tail := by
  have stops' := stops_of_isWordAt stops
  rcases exists_more_of_stop stops' start.isWord_word whole with ⟨more, rfl, behind⟩
  rcases List.append_eq_append_iff.mp behind with ⟨part, rfl, parts⟩ | ⟨part, gap, parts⟩
  · rcases start.isWord_second with isWords | rfl
    · rcases exists_more_of_stop stops' isWords parts.symm with ⟨front, rfl, rfl⟩
      exact .inl ⟨front, rfl, rfl⟩
    · cases part with
      | nil =>
          refine .inr ⟨blanks, by rw [List.append_nil], start.allBlank, '(', ?_, ?_⟩
          · exact List.mem_singleton_self _
          · rw [List.nil_append] at parts
            exact parts ▸ List.mem_cons_self ..
      | cons character part =>
          rcases List.cons.inj parts with ⟨rfl, rfl⟩
          exact .inl ⟨part, rfl, rfl⟩
  · rcases start.alone_or_exists with ⟨rfl, rfl⟩ | ⟨character, member⟩
    · rcases List.nil_eq_append_iff.mp gap with ⟨rfl, rfl⟩
      exact .inl ⟨[], rfl, parts.symm⟩
    · refine .inr ⟨more, rfl, fun other here => start.allBlank other ?_, character, member, ?_⟩
      · exact gap ▸ List.mem_append_left part here
      · exact parts ▸ List.mem_append_right part (List.mem_append_left rest member)

end ConstraintStart

section

variable {text tail : List Char}

/-- A constraint stays one, whatever follows it but more of a word. -/
theorem startsConstraint_append (stops : isWordAt tail.head? = false)
    (starts : startsConstraint text = true) : startsConstraint (text ++ tail) = true := by
  rcases startsConstraint_iff.mp starts with ⟨word, blanks, second, rest, rfl, start, ends⟩
  exact startsConstraint_iff.mpr ⟨word, blanks, second, rest ++ tail, by simp, start,
    ends.imp_right fun outside => isWordAt_head?_append outside stops⟩

theorem startsConstraint_of_append (stops : isWordAt tail.head? = false)
    (last : ∀ character ∈ text.getLast?, isBlank character = false)
    (starts : startsConstraint (text ++ tail) = true) :
    startsConstraint text = true ∨ (IsKeyword (text.map fold) ∧ ¬ AllBlank tail) := by
  rcases startsConstraint_iff.mp starts with ⟨word, blanks, second, rest, whole, start, ends⟩
  rcases start.exists_front_or_gap stops whole with
    ⟨front, rfl, rfl⟩ | ⟨gap, rfl, blank, character, member, member'⟩
  · refine .inl (startsConstraint_iff.mpr ⟨word, blanks, second, front, rfl, start, ?_⟩)
    refine ends.imp_right fun outside => ?_
    cases front with
    | nil => rfl
    | cons => exact outside
  · right
    cases gap with
    | cons other gap =>
        -- The text would end with one of the blanks between the words.
        exfalso
        have ending := List.getLast?_eq_some_getLast (List.cons_ne_nil other gap)
        have seen := last _ (by rw [List.getLast?_append, ending]; rfl)
        cases seen.symm.trans (blank _ (List.getLast_mem _))
    | nil =>
        rw [List.append_nil]
        refine ⟨start.isKeyword, fun blank => ?_⟩
        cases (start.visible_second character member).symm.trans (blank character member')

end

/-! ## Clauses -/

/-- Nothing stands behind a line comment of the clause. -/
def CommentLast (clause : List Char) : Prop :=
  ∀ before text after, segments clause = before ++ .region .lineComment text :: after → after = []

def codeOf (clause : List Char) : List Segment := (segments clause).takeWhile (!·.isLineComment)

theorem exists_behind_code (clause : List Char) :
    ∃ rest, mask clause = maskOf (codeOf clause) ++ rest ∧ SetOff rest ∧
      (CommentLast clause → AllBlank rest) := by
  have whole : segments clause =
      codeOf clause ++ (segments clause).dropWhile (!·.isLineComment) :=
    List.takeWhile_append_dropWhile.symm
  have masked : mask clause =
      maskOf (codeOf clause) ++ maskOf ((segments clause).dropWhile (!·.isLineComment)) := by
    rw [← maskOf_append, ← whole]
    rfl
  refine ⟨_, masked, ?_⟩
  have stops := List.head?_dropWhile_not (!·.isLineComment) (segments clause)
  have reads := reads_segments clause
  rw [whole] at reads
  cases behind : (segments clause).dropWhile (!·.isLineComment) with
  | nil => exact ⟨by simp [SetOff], fun _ => allBlank_nil⟩
  | cons segment after =>
      rw [behind] at whole stops reads
      have stands := (reads_append.mp reads).2.1
      cases segment with
      | code character => simp [Segment.isLineComment] at stops
      | region kind text =>
          cases kind with
          | blockComment | string | dollarString | quotedIdentifier =>
              simp [Segment.isLineComment] at stops
          | lineComment =>
              rcases List.exists_cons_of_ne_nil stands.text_ne_nil with ⟨first, more, same⟩
              rw [Segment.text_region] at same
              have hidden : (Segment.region .lineComment text).masked = text.map hide := rfl
              rw [maskOf_cons, hidden]
              constructor
              · rw [same]
                rintro _ ⟨⟩
                exact isBlank_hide first
              · intro last
                rw [last _ _ _ whole, maskOf_nil, List.append_nil]
                exact allBlank_map_hide text

theorem exists_around_view (clause : List Char) :
    ∃ before tail, mask clause = before ++ ((ClauseView.ofClause clause).masked ++ tail) ∧
      AllBlank before ∧ SetOff tail ∧ (CommentLast clause → AllBlank tail) := by
  rcases exists_behind_code clause with ⟨rest, masked, setOff, last⟩
  rcases exists_trim (maskOf (codeOf clause)) with ⟨before, after, code, _, blank, blank'⟩
  refine ⟨before, after ++ rest, ?_, blank, ?_, fun ends => ?_⟩
  · rw [masked, code, List.append_assoc, List.append_assoc]
    rfl
  · cases after with
    | nil => exact setOff
    | cons character after =>
        rintro _ ⟨⟩
        exact blank' _ (List.mem_cons_self ..)
  · exact List.forall_mem_append.mpr ⟨blank', last ends⟩

theorem plain_eq {clause : List Char}
    (visible : ∀ character ∈ (ClauseView.ofClause clause).masked, isBlank character = false) :
    (ClauseView.ofClause clause).plain = (ClauseView.ofClause clause).masked := by
  let start := blanksAtStart (maskOf (codeOf clause))
  let stop := start + (ClauseView.ofClause clause).masked.length
  have masked : slice (maskOf (codeOf clause)) start stop =
      (ClauseView.ofClause clause).masked := by
    rcases exists_trim (maskOf (codeOf clause)) with ⟨before, after, code, count, _⟩
    exact slice_eq code count.symm (congrArg (· + _) count.symm)
  have shown := (slice_of_visible (masked.symm ▸ visible)).2
  rw [masked, slice, Nat.add_sub_cancel_left] at shown
  exact shown

theorem columnName?_word {word : List Char}
    (isWords : ∀ character ∈ word, isWord character = true) : columnName? word = none := by
  cases word with
  | nil => rfl
  | cons first rest =>
      have noQuote : first ≠ '"' := by
        rintro rfl
        cases isWords '"' (List.mem_cons_self ..)
      have parts : rest.dropWhile isNamePart = [] := by
        have all : ∀ character ∈ rest, isNamePart character = true := by
          intro character member
          rw [isNamePart, isWords character (List.mem_cons_of_mem _ member), Bool.true_or]
        simpa using (takeWhile_of_stop rest [] all (by simp)).2
      rw [columnName?.eq_3 _ _ noQuote, parts]
      split <;> rfl

section

variable {clause : List Char}

theorem classify_of_nil (nothing : (ClauseView.ofClause clause).masked = []) :
    classify clause = .error .emptyClause := by
  rw [classify, ClauseView.classify, nothing]
  rfl

theorem classify_of_word (read : IsKeyword ((ClauseView.ofClause clause).masked.map fold))
    (other : startsConstraint (ClauseView.ofClause clause).masked = false) :
    classify clause = .error .noNameAndType := by
  have isWords : ∀ character ∈ (ClauseView.ofClause clause).masked, isWord character = true :=
    isWord_of_read rfl read.lower
  have plain := plain_eq fun character member =>
    isBlank_eq_false_of_isWord (isWords character member)
  have nonempty : (ClauseView.ofClause clause).masked ≠ [] := by
    intro nothing
    rw [nothing] at read
    exact read.nonempty rfl
  rw [classify, ClauseView.classify, if_neg (by simpa using nonempty), if_neg (by simp [other]),
    plain, columnName?_word isWords]

/-- Classification asks what the code in front of the first line comment starts with. -/
theorem classify_eq_constraint_iff :
    classify clause = .error .constraint ↔ (ClauseView.ofClause clause).masked ≠ [] ∧
      startsConstraint (ClauseView.ofClause clause).masked = true := by
  rw [classify, ClauseView.classify]
  constructor
  · intro refused
    split at refused
    · cases refused
    · rename_i nonempty
      split at refused
      · rename_i starts
        exact ⟨by simpa using nonempty, starts⟩
      · exfalso
        split at refused
        · cases refused
        · simp only at refused
          split at refused <;> cases refused
  · intro found
    rw [if_neg (by simpa using found.1), if_pos found.2]

theorem trimmed_view (clause : List Char) : Trimmed (ClauseView.ofClause clause).masked :=
  trimmed_trim _

theorem exists_isTableConstraint_eq (nonempty : (ClauseView.ofClause clause).masked ≠ []) :
    ∃ tail, isTableConstraint clause =
        startsConstraint ((ClauseView.ofClause clause).masked ++ tail) ∧
      SetOff tail ∧ (CommentLast clause → AllBlank tail) := by
  rcases exists_around_view clause with ⟨before, tail, masked, blank, setOff, last⟩
  have bare := (trimmed_view clause).bare_append nonempty tail
  refine ⟨tail, ?_, setOff, last⟩
  rw [isTableConstraint, masked, trimLeft_blanks blank bare]

theorem isTableConstraint_of_classify (refused : classify clause = .error .constraint) :
    isTableConstraint clause = true := by
  rcases classify_eq_constraint_iff.mp refused with ⟨nonempty, starts⟩
  rcases exists_isTableConstraint_eq nonempty with ⟨tail, same, setOff, _⟩
  rw [same]
  exact startsConstraint_append setOff.isWordAt_head? starts

theorem exists_refusal_of_isTableConstraint (constraint : isTableConstraint clause = true) :
    ∃ refusal, classify clause = .error refusal := by
  by_cases empty : (ClauseView.ofClause clause).masked = []
  · exact ⟨_, classify_of_nil empty⟩
  · rcases exists_isTableConstraint_eq empty with ⟨tail, same, setOff, _⟩
    rw [same] at constraint
    by_cases starts : startsConstraint (ClauseView.ofClause clause).masked = true
    · exact ⟨_, classify_eq_constraint_iff.mpr ⟨empty, starts⟩⟩
    · rcases startsConstraint_of_append setOff.isWordAt_head? (trimmed_view clause).2
        constraint with found | ⟨read, _⟩
      · exact absurd found starts
      · exact ⟨_, classify_of_word read (Bool.not_eq_true _ |>.mp starts)⟩

theorem classify_of_isTableConstraint (last : CommentLast clause)
    (constraint : isTableConstraint clause = true) : classify clause = .error .constraint := by
  rw [classify_eq_constraint_iff]
  by_cases empty : (ClauseView.ofClause clause).masked = []
  · rcases exists_around_view clause with ⟨before, tail, masked, blank, _, blanks⟩
    have nothing : trimLeft (mask clause) = [] := by
      rw [masked, empty, List.nil_append]
      have trims := trimLeft_blanks (List.forall_mem_append.mpr ⟨blank, blanks last⟩) bare_nil
      rwa [List.append_nil] at trims
    have none : startsConstraint [] = false := by decide
    rw [isTableConstraint, nothing, none] at constraint
    cases constraint
  · rcases exists_isTableConstraint_eq empty with ⟨tail, same, setOff, blanks⟩
    rw [same] at constraint
    refine ⟨empty, ?_⟩
    exact (startsConstraint_of_append setOff.isWordAt_head? (trimmed_view clause).2
      constraint).resolve_right fun word => word.2 (blanks last)

end

/-! ## Clauses of a body -/

/-- Where a part of a text starts behind a comma of its mask, it is cut in the same way by
itself. -/
theorem segments_behind_comma {text front rest : List Char} (whole : text = front ++ rest)
    (nonempty : rest ≠ []) {place : Nat} (starts : front.length = place + 1)
    (comma : (mask text)[place]? = some ',') : ∃ first, segments text = first ++ segments rest := by
  have long := congrArg List.length whole
  rw [List.length_append, ← length_mask] at long
  have room := List.length_pos_iff.mpr nonempty
  rcases List.getElem?_eq_some_iff.mp comma with ⟨short, here⟩
  have masked : maskOf (segments text) =
      (mask text).take place ++ ',' :: (mask text).drop (place + 1) := by
    rw [← here, ← List.drop_eq_getElem_cons short, List.take_append_drop]
    rfl
  have behind : (mask text).drop (place + 1) ≠ [] := by
    rw [← List.length_pos_iff, List.length_drop]
    omega
  rcases exists_code_of_maskOf (reads_segments text) masked (by decide) (.inl behind) with
    ⟨first, second, cut, front', _⟩
  have reads := reads_segments text
  rw [cut] at reads
  have parts : (textOf first ++ [',']) ++ textOf second = front ++ rest := by
    rw [← whole, ← text_segments text, cut, ← textOf, textOf_append, textOf_cons,
      Segment.text_code, List.append_assoc]
  have same : (textOf first ++ [',']).length = front.length := by
    rw [List.length_append, ← length_maskOf, front', List.length_take, starts,
      Nat.min_eq_left (Nat.le_of_lt short), List.length_singleton]
  have again := segments_textOf ((reads_append.mp reads).2.2.congr
    ((Behind.push_fresh _ (by decide)).agrees Behind.start_fresh))
  rw [(List.append_inj parts same).2] at again
  exact ⟨first ++ [.code ','], by rw [cut, again]; simp⟩

/-- Without comments, a clause is read on from where it was cut off as in its body, so no comment is
found in it or behind it. -/
theorem exists_uncommented {body : List Char} {span : ClauseSpan} (member : span ∈ clauseSpans body)
    (hasCode : span.HasCode body) :
    ∃ before after, AllBlank before ∧
      ∀ kind text, .region kind text ∈ segments (before ++ (span.code body ++ after)) →
        kind.isComment = false := by
  rcases exists_around_code member with ⟨front, before, after, back, whole, starts, _, _, blank, _⟩
  have uncommented (kind : RegionKind) (text : List Char)
      (listed : .region kind text ∈ segments (stripComments body)) : kind.isComment = false := by
    rw [segments_stripComments] at listed
    exact uncommented_bareOf listed
  refine ⟨before, after ++ back, blank, fun kind text listed => uncommented kind text ?_⟩
  rcases start_of_mem_spansFrom member with first | ⟨cut, listed', behind⟩
  · have nothing : front = [] := List.eq_nil_of_length_eq_zero (starts.symm.trans first)
    rw [whole, nothing]
    exact listed
  · have code := ClauseSpan.code_ne_nil_iff.mpr hasCode
    have comma := comma_of_mem_cuts listed'
    rw [← mask_stripComments] at comma
    rcases segments_behind_comma whole (by simp [code]) (starts.symm.trans behind) comma with
      ⟨first, divided⟩
    rw [divided]
    exact List.mem_append_right first listed

theorem pushAll_blanks_agrees {blanks : List Char} (blank : AllBlank blanks) :
    Behind.start.Agrees (Behind.start.pushAll blanks) := by
  by_cases nothing : blanks = []
  · subst nothing
    exact .refl _
  · exact Behind.start_fresh.agrees (pushAll_blanks_fresh .start blank nothing)

theorem mem_segments_behind_blanks {before rest : List Char} {run : List Segment}
    (blank : AllBlank before) (reads : Reads .start run ('\n' :: rest)) {segment : Segment}
    (member : segment ∈ run) : segment ∈ segments (before ++ (textOf run ++ '\n' :: rest)) := by
  have whole : Reads .start (before.map .code ++ run) ('\n' :: rest) := by
    refine reads_append.mpr ⟨reads_blanks .start blank _, reads.congr ?_⟩
    rw [textOf_map_code]
    exact pushAll_blanks_agrees blank
  have found := segmentsAfter_of_reads whole
  rw [textOf_append, textOf_map_code, List.append_assoc] at found
  rw [segments, found]
  exact List.mem_append_left _ (List.mem_append_right _ member)

/-- A line comment that something follows would be one in the text that the code was cut from. -/
theorem commentLast_of_uncommented {before code after suffix : List Char} (blank : AllBlank before)
    (uncommented : ∀ kind text, .region kind text ∈ segments (before ++ (code ++ after)) →
      kind.isComment = false) (oneLine : '\n' ∉ suffix) : CommentLast (code ++ suffix) := by
  intro first comment later cut
  by_contra nonempty
  have reads := reads_segments (code ++ suffix)
  have whole := text_segments (code ++ suffix)
  rw [cut] at reads whole
  have stands := (reads_append.mp reads).2.1
  have shown := (reads_append.mp reads).2.2.textOf_ne_nil nonempty
  have more : textOf later ++ [] ≠ [] := by simpa using shown
  rcases List.exists_cons_of_ne_nil shown with ⟨feed, rest, follows⟩
  have ends := (stands.closed more).mayEndBefore
  rw [follows] at ends
  cases ends feed rfl
  have split : (textOf first ++ comment) ++ '\n' :: rest = code ++ suffix := by
    rw [← whole, ← textOf, textOf_append, textOf_cons, Segment.text_region, follows,
      List.append_assoc]
  rcases List.append_eq_append_iff.mp split with ⟨part, code', inside⟩ | ⟨part, _, outside⟩
  · rcases List.cons_eq_append_iff.mp inside with ⟨_, outside⟩ | ⟨part, rfl, _⟩
    · rw [outside] at oneLine
      exact oneLine (List.mem_cons_self ..)
    · have front : Reads .start (first ++ [.region .lineComment comment])
          ('\n' :: (part ++ after)) := by
        have alone := (reads_append.mp (List.append_cons first _ later ▸ reads)).1
        refine alone.followedBy (quiet_cons (by decide) _) fun kind text last => ⟨more, ?_⟩
        rw [List.getLast?_concat] at last
        cases last
        rintro _ ⟨⟩
        rfl
      have text : textOf (first ++ [.region .lineComment comment]) ++ '\n' :: (part ++ after) =
          code ++ after := by
        rw [code']
        simp
      have found := mem_segments_behind_blanks blank front
        (List.mem_append_right first (List.mem_singleton_self _))
      rw [text] at found
      cases uncommented .lineComment comment found
  · rw [outside] at oneLine
    exact oneLine (by simp)

theorem commentLast_of_mem_clauses {body : List Char} {clause : Clause}
    (member : clause ∈ clauses body) : CommentLast clause.text := by
  rcases exists_span_of_mem_clauses member with ⟨span, spanned, hasCode, rfl⟩
  rcases exists_uncommented spanned hasCode with ⟨before, after, blank, uncommented⟩
  have oneLine := oneLine_of_ownedTexts spanned
  have last (suffix : List Char) (oneLine : '\n' ∉ suffix) :=
    commentLast_of_uncommented blank uncommented oneLine
  rw [ClauseSpan.clause]
  simp only
  split
  · have plain := last [] (by simp)
    rwa [List.append_nil] at plain
  · rw [List.append_assoc]
    exact last _ (by simp [oneLine])

/-- The two tests never contradict each other: a constraint is never read as a column, and what
classification takes for a constraint is one. On the clauses of a body they are the same test. -/
theorem constraint_tests_agree :
    (∀ clause, isTableConstraint clause = true → ∃ refusal, classify clause = .error refusal) ∧
      (∀ clause, classify clause = .error .constraint → isTableConstraint clause = true) ∧
      ∀ body, ∀ clause ∈ clauses body,
        classify clause.text = .error .constraint ↔ isTableConstraint clause.text = true :=
  ⟨fun _ => exists_refusal_of_isTableConstraint, fun _ => isTableConstraint_of_classify,
    fun _ _ member => ⟨isTableConstraint_of_classify,
      classify_of_isTableConstraint (commentLast_of_mem_clauses member)⟩⟩

/-- With a comment between its words, a constraint is no column, but classification does not say so:
in a body the comment would have been moved behind it. -/
theorem constraint_with_comment_inside :
    let clause := "PRIMARY -- x\n KEY (a)".toList
    let moved := "EXCLUDE     \n         (a) -- x".toList
    (isTableConstraint clause = true ∧ ∃ refusal, classify clause = .error refusal) ∧
      classify clause = .error .noNameAndType ∧
      ⟨moved, 0⟩ ∈ clauses "EXCLUDE -- x\n /* y */ (a), 'z".toList ∧
      classify moved = .error .constraint := by
  intro clause moved
  have constraint : isTableConstraint clause = true := by decide +kernel
  have constraint' : isTableConstraint moved = true := by decide +kernel
  have member : ⟨moved, 0⟩ ∈ clauses "EXCLUDE -- x\n /* y */ (a), 'z".toList := by decide +kernel
  have agree := constraint_tests_agree
  exact ⟨⟨constraint, agree.1 clause constraint⟩, by decide +kernel, member,
    (agree.2.2 _ _ member).mpr constraint'⟩

end TableSchema.Sql
