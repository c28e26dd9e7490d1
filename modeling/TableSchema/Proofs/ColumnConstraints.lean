import TableSchema.Proofs.ColumnTypes
import TableSchema.Proofs.ConstraintTests
import TableSchema.Proofs.PlainColumns

/-! # Constraints of columns

A clause says the name and the type of its column in front of the first word that starts a
constraint of the column. Cutting the clause behind such a word changes neither: the scan of what
stands in front is the same, and so are the tests and searches that classification makes there.
-/

namespace TableSchema

namespace Text

/-! ## Searches in front of a text -/

section

variable {here : Option Char → List Char → Bool} {previous : Option Char} {text : List Char}

theorem exists_findPlace?_le {before after : List Char} (nonempty : after ≠ [])
    (holds : here (before.getLast?.or previous) after = true) :
    ∃ place, findPlace? here previous (before ++ after) = some place ∧ place ≤ before.length := by
  induction before generalizing previous with
  | nil =>
      rcases List.exists_cons_of_ne_nil nonempty with ⟨first, rest, rfl⟩
      exact ⟨0, if_pos holds, Nat.le_refl _⟩
  | cons character before induction =>
      rw [List.cons_append, findPlace?]
      split
      · exact ⟨0, rfl, Nat.zero_le _⟩
      · rw [getLast?_cons_or] at holds
        rcases induction holds with ⟨place, found, early⟩
        exact ⟨place + 1, by rw [found]; rfl, Nat.succ_le_succ early⟩

/-- What is found in a text is found first, whatever follows the text. -/
theorem findPlace?_append {tail : List Char} {place : Nat}
    (blind : ∀ previous text, here previous (text ++ tail) = here previous text)
    (found : findPlace? here previous text = some place) :
    findPlace? here previous (text ++ tail) = some place := by
  induction text generalizing previous place with
  | nil => cases found
  | cons character rest induction =>
      rw [findPlace?] at found
      rw [List.cons_append, findPlace?, ← List.cons_append, blind]
      split at found
      · rename_i holds
        rw [if_pos holds, found]
      · rename_i fails
        rcases Option.map_eq_some_iff.mp found with ⟨later, found', rfl⟩
        rw [if_neg fails, induction found']
        rfl

end

theorem getLast?_drop_or {text : List Char} {start : Nat} (positive : 0 < start)
    (inside : start ≤ text.length) (tail : List Char) :
    (text.drop start).getLast?.or (text ++ tail)[start - 1]? = text.getLast? := by
  have front : (text.take start).getLast? = (text ++ tail)[start - 1]? := by
    rw [List.getLast?_eq_getElem?, List.length_take_of_le inside,
      List.getElem?_take_of_lt (by omega), List.getElem?_append_left (by omega)]
  rw [← front, ← List.getLast?_append, List.take_append_drop]

end Text

namespace Sql

open Text

theorem wholeWordsAt_append {keyword tail : List Char}
    (lower : ∀ letter ∈ keyword, letter.isLower = true) (stops : isWordAt tail.head? = false)
    (previous : Option Char) (text : List Char) :
    wholeWordsAt [keyword] previous (text ++ tail) = wholeWordsAt [keyword] previous text := by
  rw [Bool.eq_iff_iff, wholeWordsAt_singleton_iff, wholeWordsAt_singleton_iff]
  refine and_congr_right fun _ => ?_
  constructor
  · rintro ⟨word, rest, whole, read, ends⟩
    rcases exists_more_of_stop (stops_of_isWordAt stops) (isWord_of_read read lower) whole with
      ⟨more, rfl, rfl⟩
    refine ⟨word, more, rfl, read, ?_⟩
    cases more with
    | nil => rfl
    | cons => exact ends
  · rintro ⟨word, rest, rfl, read, ends⟩
    exact ⟨word, rest ++ tail, List.append_assoc .., read, isWordAt_head?_append ends stops⟩

theorem typeEndsAt_append {tail : List Char} (stops : isWordAt tail.head? = false)
    (previous : Option Char) (text : List Char) :
    typeEndsAt previous (text ++ tail) = typeEndsAt previous text := by
  rw [Bool.eq_iff_iff, typeEndsAt, typeEndsAt, List.any_eq_true, List.any_eq_true]
  refine exists_congr fun keyword => and_congr_right fun listed => ?_
  rw [wholeWordsAt_append (isLower_of_mem_typeEnds keyword listed).2 stops]

/-! ## Names -/

theorem columnName?_append {front tail written rest : List Char}
    (found : columnName? (front ++ tail) = some (written, rest))
    (behind : tail.length ≤ rest.length) :
    ∃ between, rest = between ++ tail ∧ between.length < front.length ∧
      ∀ other, Bare (between ++ other) →
        columnName? (front ++ other) = some (written, between ++ other) := by
  rcases columnName?_eq_some.mp found with ⟨name, blanks, whole, nonempty, blank, _⟩
  rw [← List.append_assoc] at whole
  rcases List.append_eq_append_iff.mp whole with ⟨part, ends, tail'⟩ | ⟨between, rfl, rfl⟩
  · have none : part = [] := by
      have long := congrArg List.length tail'
      rw [List.length_append] at long
      exact List.length_eq_zero_iff.mp (by omega)
    rw [none, List.append_nil] at ends
    rw [none, List.nil_append] at tail'
    refine ⟨[], tail'.symm, ?_, fun other bare => ?_⟩
    · rw [← ends, List.length_append]
      exact Nat.add_pos_right _ (List.length_pos_iff.mpr nonempty)
    · exact columnName?_eq_some.mpr
        ⟨name, blanks, by rw [← ends, List.append_assoc]; rfl, nonempty, blank, bare⟩
  · refine ⟨between, rfl, ?_, fun other bare => ?_⟩
    · rw [List.length_append, List.length_append]
      have long := List.length_pos_iff.mpr nonempty
      omega
    · exact columnName?_eq_some.mpr
        ⟨name, blanks, by simp only [List.append_assoc], nonempty, blank, bare⟩

theorem bare_of_columnName? {text written rest : List Char}
    (found : columnName? text = some (written, rest)) : Bare text := by
  rcases columnName?_eq_some.mp found with ⟨plain | ⟨name, rfl⟩, blanks, rfl, _⟩
  · cases written with
    | nil => cases plain
    | cons first name => exact bare_cons (visible_of_isPlainName plain (List.mem_cons_self ..)) _
  · exact bare_cons (by decide) _

/-! ## Words in code -/

section

variable {behind : Behind} {segments : List Segment} {after : List Char}

theorem mem_regionMarks_of_head? {kind : RegionKind} {text : List Char}
    (stands : (Segment.region kind text).StandsAt behind after) {character : Char}
    (first : (Segment.region kind text).masked.head? = some character) :
    character ∈ regionMarks := by
  rw [Segment.masked] at first
  split at first
  · exact mem_regionMarks_of_mem_hidden (List.mem_of_mem_head? first)
  · rename_i literal
    rcases opening_of_literal stands (Bool.not_eq_true _ |>.mp literal) with
      ⟨delimiter, rest, marked, rfl⟩
    cases rest with
    | nil =>
        cases first
        exact hide_mem_regionMarks delimiter
    | cons =>
        cases first
        exact delimiter_mem_regionMarks marked

theorem Reads.exists_word (reads : Reads behind segments after) {word rest : List Char}
    (structural : ∀ character ∈ word, character ∉ regionMarks)
    (masked : maskOf segments = word ++ rest) : ∃ later, segments = word.map .code ++ later := by
  induction word generalizing behind segments with
  | nil => exact ⟨segments, rfl⟩
  | cons character word induction =>
      cases segments with
      | nil => cases masked
      | cons segment segments =>
          rw [maskOf_cons] at masked
          cases segment with
          | code other =>
              rcases List.cons.inj masked with ⟨rfl, behind⟩
              rcases induction reads.2
                (fun other member => structural other (List.mem_cons_of_mem _ member)) behind with
                ⟨later, rfl⟩
              exact ⟨later, rfl⟩
          | region kind text =>
              have nonempty : (Segment.region kind text).masked ≠ [] := by
                rw [← List.length_pos_iff, Segment.length_masked, List.length_pos_iff]
                exact reads.1.text_ne_nil
              rcases List.exists_cons_of_ne_nil nonempty with ⟨first, inside, shown⟩
              rw [shown] at masked
              refine absurd (mem_regionMarks_of_head? reads.1 ?_)
                (structural character (List.mem_cons_self ..))
              rw [shown, ← (List.cons.inj masked).1]
              rfl

theorem Reads.head?_maskOf (reads : Reads behind segments after) (more : after ≠ [])
    {character : Char} (shown : (strippedOf segments).head? = some character)
    (visible : isBlank character = false) : (maskOf segments).head? = some character := by
  cases segments with
  | nil => cases shown
  | cons segment segments =>
      rw [strippedOf_cons] at shown
      rw [maskOf_cons]
      cases segment with
      | code other => exact shown
      | region kind text =>
          rcases List.exists_cons_of_ne_nil reads.1.text_ne_nil with ⟨first, rest, same⟩
          rw [Segment.text_region] at same
          cases comment : kind.isComment with
          | true =>
              rw [Segment.stripped, if_pos comment, same] at shown
              cases shown
              rw [isBlank_hide] at visible
              cases visible
          | false =>
              have closed := reads.1.closed (List.append_ne_nil_of_right_ne_nil _ more)
              rcases closed.delimited comment with ⟨delimiter, inside, _, rfl⟩
              rw [Segment.stripped, if_neg (by simp [comment])] at shown
              rw [Segment.masked, if_neg (by simp [comment]), hideInside_of_delimited]
              exact shown

end

/-! ## Clauses that are cut behind a word -/

theorem two_le_length_of_mem_typeEnds : ∀ keyword ∈ typeEnds, 2 ≤ keyword.length := by decide

theorem isWord_of_mem_typeEnds {word : List Char} (listed : word.map fold ∈ typeEnds) :
    word ≠ [] ∧ ∀ character ∈ word, isWord character = true := by
  have keyword := isLower_of_mem_typeEnds _ listed
  exact ⟨fun none => keyword.1 (by rw [none]; rfl), isWord_of_read rfl keyword.2⟩

theorem exists_code_of_wholeWordsAt {clause keyword : List Char} (listed : keyword ∈ typeEnds)
    {place : Nat}
    (here : wholeWordsAt [keyword] ((mask clause).take place).getLast?
      ((mask clause).drop place) = true) :
    ∃ first second, ∃ word : List Char, segments clause = first ++ word.map .code ++ second ∧
      word.map fold = keyword ∧ (textOf first).length = place ∧
      isWordAt (maskOf first).getLast? = false ∧ isWordAt (maskOf second).head? = false := by
  rcases wholeWordsAt_singleton_iff.mp here with ⟨outside, word, rest, behind, rfl, ends⟩
  have structural (character : Char) (member : character ∈ word) : character ∉ regionMarks :=
    not_mem_regionMarks_of_isWord ((isWord_of_mem_typeEnds listed).2 character member)
  have long := two_le_length_of_mem_typeEnds _ listed
  rw [List.length_map] at long
  match word, long with
  | letter :: next :: word, _ =>
      have whole : maskOf (segments clause) =
          (mask clause).take place ++ letter :: (next :: word ++ rest) := by
        have parts := List.take_append_drop place (mask clause)
        rw [behind] at parts
        exact parts.symm
      -- The first letter is code, since more follows it; and code goes on to the end of the word.
      rcases exists_code_of_maskOf (reads_segments clause) whole
        (structural letter (List.mem_cons_self ..)) (.inl (by simp)) with
        ⟨first, later, cut, masked, masked'⟩
      have reads := reads_segments clause
      rw [cut] at reads
      rcases (reads_append.mp reads).2.2.exists_word
        (fun character member => structural character (List.mem_cons_of_mem _ member)) masked' with
        ⟨second, rfl⟩
      rw [maskOf_append, maskOf_map_code, List.append_cancel_left_eq] at masked'
      refine ⟨first, second, letter :: next :: word, by rw [cut]; simp, rfl, ?_,
        masked ▸ outside, masked' ▸ ends⟩
      have inside : place < (mask clause).length := by
        by_contra beyond
        rw [List.drop_eq_nil_of_le (by omega)] at behind
        cases behind
      rw [← length_maskOf, masked, List.length_take_of_le (by omega)]

theorem segments_take {clause word : List Char} {first second : List Segment}
    (cut : segments clause = first ++ word.map .code ++ second) (nonempty : word ≠ []) :
    segments (clause.take ((textOf first).length + word.length)) = first ++ word.map .code := by
  have reads := reads_segments clause
  rw [cut] at reads
  have alone : Reads .start (first ++ word.map .code) [] := by
    refine (reads_append.mp reads).1.followedBy quiet_nil fun kind text last => ?_
    rcases List.exists_cons_of_ne_nil nonempty with ⟨letter, rest, rfl⟩
    rw [List.getLast?_append_of_ne_nil _ (by simp), List.getLast?_map] at last
    rcases Option.map_eq_some_iff.mp last with ⟨_, _, other⟩
    cases other
  have whole : clause = textOf (first ++ word.map .code) ++ textOf second := by
    rw [← textOf_append, ← cut]
    exact (text_segments clause).symm
  have length :
      (textOf (first ++ word.map .code)).length = (textOf first).length + word.length := by
    rw [textOf_append, textOf_map_code, List.length_append]
  rw [← length]
  nth_rewrite 1 [whole]
  rw [List.take_left, segments_textOf alone]

theorem isLineComment_eq_false_of_scan {clause : List Char} {first second : List Segment}
    (cut : segments clause = first ++ second)
    (uncommented : ∀ region ∈ scan clause, region.kind = .lineComment →
      (textOf first).length ≤ region.start) :
    ∀ segment ∈ first, segment.isLineComment = false := by
  intro segment member
  rcases List.append_of_mem member with ⟨before, after, rfl⟩
  cases segment with
  | code => rfl
  | region kind text =>
      cases kind with
      | blockComment | string | dollarString | quotedIdentifier => rfl
      | lineComment =>
          have reads := reads_segments clause
          rw [cut, List.append_assoc] at reads
          have nonempty := List.length_pos_iff.mpr (reads_append.mp reads).2.1.text_ne_nil
          have late := uncommented
            ⟨.lineComment, (textOf before).length, (textOf before).length + text.length⟩
            (by rw [scan, cut, regionsFrom_append, regionsFrom_append]; simp [regionsFrom]) rfl
          rw [textOf_append, textOf_cons, List.length_append, List.length_append] at late
          simp only [Segment.text_region] at nonempty late
          omega

/-- What classification sees of a clause starts with what it sees of its first segments, if they
hold no line comment and there are no blanks around them. -/
theorem ClauseView.exists_behind {clause : List Char} {run more : List Segment}
    (cut : segments clause = run ++ more)
    (uncommented : ∀ segment ∈ run, segment.isLineComment = false)
    (trimmed : Trimmed (maskOf run)) (nonempty : maskOf run ≠ []) :
    ∃ tail rest, (ofClause clause).masked = maskOf run ++ tail ∧
      (ofClause clause).plain = strippedOf run ++ rest ∧ tail <+: maskOf more := by
  have code : codeOf clause = run ++ more.takeWhile (!·.isLineComment) := by
    rw [codeOf, cut, List.takeWhile_append_of_pos fun segment member => by
      rw [uncommented segment member]; rfl]
  have masked : (ofClause clause).masked = trim (maskOf (codeOf clause)) := rfl
  have plain : (ofClause clause).plain =
      ((strippedOf (codeOf clause)).drop (blanksAtStart (maskOf (codeOf clause)))).take
        (ofClause clause).masked.length := rfl
  rcases exists_trim (maskOf (codeOf clause)) with ⟨front, back, whole, count, blank, blank'⟩
  rw [← masked] at whole
  rw [← count] at plain
  rw [code, maskOf_append] at whole
  rcases List.exists_cons_of_ne_nil nonempty with ⟨start, inside, starts⟩
  have first : (maskOf run).head? = some start := by rw [starts]; rfl
  have last := List.getLast?_eq_some_getLast nonempty
  rcases exists_between_blanks blank blank' first last (trimmed.1 _ first) (trimmed.2 _ last)
    (whole.symm.trans (List.nil_append _).symm) with ⟨before, tail, kept, none, behind⟩
  rcases List.append_eq_nil_iff.mp none.symm with ⟨rfl, rfl⟩
  rw [List.nil_append] at kept
  rw [code, kept, List.length_nil, List.drop_zero, List.length_append, length_maskOf,
    ← length_strippedOf, strippedOf_append, List.take_length_add_append] at plain
  have seen := List.prefix_append tail back
  rw [← behind] at seen
  have parts := congrArg maskOf
    (List.takeWhile_append_dropWhile (p := (!·.isLineComment)) (l := more))
  rw [maskOf_append] at parts
  exact ⟨tail, _, kept, plain, parts ▸ seen.trans (List.prefix_append ..)⟩

/-! ## Where a type ends -/

/-- What is seen of a clause up to a word that ends the type of its column: `between` stands between
the name and the word. -/
structure TypeEnding where
  shown : List Char
  plain : List Char
  word : List Char
  written : List Char
  between : List Char
  aligned : shown.length = plain.length
  listed : word.map fold ∈ typeEnds
  outside : isWordAt shown.getLast? = false
  short : between.length < plain.length
  bare : Bare (between ++ word)
  named : ∀ other, Bare (between ++ other) →
    columnName? (plain ++ other) = some (written, between ++ other)

namespace TypeEnding

def view (ending : TypeEnding) : ClauseView where
  masked := ending.shown ++ ending.word
  plain := ending.plain ++ ending.word
  comment := none

def start (ending : TypeEnding) : Nat := ending.plain.length - ending.between.length

structure StartsView (ending : TypeEnding) (view : ClauseView) (tail rest : List Char) : Prop where
  masked : view.masked = ending.view.masked ++ tail
  plain : view.plain = ending.view.plain ++ rest
  stops : isWordAt tail.head? = false

variable {ending : TypeEnding} {view : ClauseView} {tail rest : List Char}

theorem startsView_self (ending : TypeEnding) : ending.StartsView ending.view [] [] :=
  ⟨(List.append_nil _).symm, (List.append_nil _).symm, rfl⟩

theorem word_ne_nil (ending : TypeEnding) : ending.word ≠ [] :=
  (isWord_of_mem_typeEnds ending.listed).1

theorem masked_ne_nil (ending : TypeEnding) : ending.view.masked ≠ [] :=
  List.append_ne_nil_of_right_ne_nil _ ending.word_ne_nil

theorem shown_ne_nil (ending : TypeEnding) : ending.shown ≠ [] := by
  rw [← List.length_pos_iff, ending.aligned]
  exact Nat.zero_lt_of_lt ending.short

theorem startsConstraint_eq (starts : ending.StartsView view tail rest) :
    startsConstraint view.masked = startsConstraint ending.view.masked := by
  rw [starts.masked, Bool.eq_iff_iff]
  refine ⟨fun constraint => ?_, startsConstraint_append starts.stops⟩
  have isWords := (isWord_of_mem_typeEnds ending.listed).2
  have last : ∀ character ∈ ending.view.masked.getLast?, isBlank character = false := by
    intro character last
    change (ending.shown ++ ending.word).getLast? = some character at last
    rw [List.getLast?_append_of_ne_nil _ ending.word_ne_nil] at last
    exact isBlank_eq_false_of_isWord (isWords character (List.mem_of_getLast? last))
  refine (startsConstraint_of_append starts.stops last constraint).resolve_right ?_
  rintro ⟨isKeyword, _⟩
  have final := List.getLast?_eq_some_getLast ending.shown_ne_nil
  have outside := ending.outside
  rw [final, isWordAt, isWord_of_read rfl isKeyword.lower _
    (List.mem_append_left _ (List.getLast_mem ending.shown_ne_nil))] at outside
  cases outside

theorem start_le (ending : TypeEnding) :
    0 < ending.start ∧ ending.start + ending.between.length = ending.shown.length := by
  have short := ending.short
  rw [start, ending.aligned]
  omega

/-- The type ends at the word or in front of it. -/
theorem exists_place (ending : TypeEnding) :
    ∃ place, findPlace? typeEndsAt ending.view.masked[ending.start - 1]?
        (ending.view.masked.drop ending.start) = some place ∧ place ≤ ending.between.length := by
  have bounds := ending.start_le
  have inside : ending.start ≤ ending.shown.length := by omega
  have holds : typeEndsAt ((ending.shown.drop ending.start).getLast?.or
      ending.view.masked[ending.start - 1]?) ending.word = true := by
    rw [view, getLast?_drop_or bounds.1 inside, typeEndsAt, List.any_eq_true]
    exact ⟨_, ending.listed, wholeWordsAt_singleton_iff.mpr
      ⟨ending.outside, ending.word, [], (List.append_nil _).symm, rfl, rfl⟩⟩
  rcases exists_findPlace?_le ending.word_ne_nil holds with ⟨place, found, early⟩
  refine ⟨place, ?_, ?_⟩
  · rw [← found]
    simp only [view, List.drop_append_of_le_length inside]
  · rw [List.length_drop] at early
    omega

def rawType (ending : TypeEnding) : List Char :=
  trim (ending.between.take ((findPlace? typeEndsAt ending.view.masked[ending.start - 1]?
    (ending.view.masked.drop ending.start)).getD 0))

theorem rawTypeIn_eq (starts : ending.StartsView view tail rest) :
    view.rawTypeIn (ending.between ++ (ending.word ++ rest)) = ending.rawType := by
  have bounds := ending.start_le
  have length : ending.view.masked.length = ending.shown.length + ending.word.length :=
    List.length_append
  have typeStart :
      view.plain.length - (ending.between ++ (ending.word ++ rest)).length = ending.start := by
    rw [starts.plain, TypeEnding.view, start]
    simp only [List.length_append]
    omega
  rcases ending.exists_place with ⟨place, found, early⟩
  have found' := findPlace?_append (typeEndsAt_append starts.stops) found
  simp only [ClauseView.rawTypeIn, typeStart, rawType]
  rw [starts.masked, List.drop_append_of_le_length (by omega),
    List.getElem?_append_left (by omega), found', found, Option.getD_some, Option.getD_some,
    List.take_append_of_le_length early]

theorem nameAndRawType?_eq (starts : ending.StartsView view tail rest) :
    view.nameAndRawType? = some (unquote ending.written, ending.rawType) := by
  have nonempty : ending.between ++ ending.word ≠ [] :=
    List.append_ne_nil_of_right_ne_nil _ ending.word_ne_nil
  have named := ending.named (ending.word ++ rest)
    (by rw [← List.append_assoc]; exact ending.bare.append nonempty rest)
  rw [ClauseView.nameAndRawType?, starts.plain, TypeEnding.view, List.append_assoc, named,
    Option.map_some]
  simp only [rawTypeIn_eq starts]

theorem nameAndLabel_eq (starts : ending.StartsView view tail rest) :
    view.nameAndLabel = ending.view.nameAndLabel := by
  have nonempty : view.masked ≠ [] := by
    rw [starts.masked]
    exact List.append_ne_nil_of_left_ne_nil ending.masked_ne_nil _
  rw [ClauseView.nameAndLabel_eq, ClauseView.nameAndLabel_eq, startsConstraint_eq starts,
    nameAndRawType?_eq starts, nameAndRawType?_eq ending.startsView_self,
    List.isEmpty_eq_false_iff.mpr nonempty, List.isEmpty_eq_false_iff.mpr ending.masked_ne_nil]

theorem exists_of_nameAndLabel (starts : ending.StartsView view tail rest) {name label : String}
    (read : view.nameAndLabel = .ok (name, label)) :
    name.toList = unquote ending.written ∧ ∃ length, length ≤ ending.between.length ∧
      label.toList = typeLabel (trim (ending.between.take length)) := by
  rcases ClauseView.exists_of_nameAndLabel read with ⟨rawType, given, shown⟩
  rw [nameAndRawType?_eq starts] at given
  rcases Prod.mk.inj (Option.some.inj given) with ⟨named, rfl⟩
  rcases ending.exists_place with ⟨place, found, early⟩
  refine ⟨named.symm, place, early, ?_⟩
  rw [shown, TypeEnding.rawType, found, Option.getD_some]

theorem exists_startsView {clause : List Char} {run more : List Segment}
    (seen : ending.view = ⟨maskOf run, strippedOf run, none⟩)
    (cut : segments clause = run ++ more)
    (uncommented : ∀ segment ∈ run, segment.isLineComment = false)
    (trimmed : Trimmed (maskOf run)) (ends : isWordAt (maskOf more).head? = false) :
    ∃ tail rest, ending.StartsView (ClauseView.ofClause clause) tail rest := by
  have masked : ending.view.masked = maskOf run := congrArg ClauseView.masked seen
  have plain : ending.view.plain = strippedOf run := congrArg ClauseView.plain seen
  rcases ClauseView.exists_behind cut uncommented trimmed (masked ▸ ending.masked_ne_nil) with
    ⟨tail, rest, masked', plain', start⟩
  refine ⟨tail, rest, by rw [masked', masked], by rw [plain', plain], ?_⟩
  cases tail with
  | nil => rfl
  | cons =>
      rcases start with ⟨_, same⟩
      rwa [← same] at ends

end TypeEnding

section

variable {clause word written rest : List Char} {first second : List Segment}

theorem trimmed_of_columnName? (cut : segments clause = first ++ word.map .code ++ second)
    (listed : word.map fold ∈ typeEnds) (nonempty : strippedOf first ≠ [])
    (named : columnName? (strippedOf first ++ (word ++ strippedOf second)) = some (written, rest)) :
    Trimmed (maskOf (first ++ word.map .code)) := by
  rcases isWord_of_mem_typeEnds listed with ⟨nonempty', isWords⟩
  rw [maskOf_append, maskOf_map_code]
  constructor
  · rcases List.exists_cons_of_ne_nil nonempty with ⟨start, inside, starts⟩
    have visible := bare_of_columnName? named start (by rw [starts]; rfl)
    have reads := reads_segments clause
    rw [cut] at reads
    have shown := (reads_append.mp (reads_append.mp reads).1).1.head?_maskOf
      (by simp [nonempty']) (by rw [starts]; rfl) visible
    intro character found
    rw [List.head?_append, shown] at found
    cases found
    exact visible
  · intro character last
    rw [List.getLast?_append_of_ne_nil _ nonempty'] at last
    exact isBlank_eq_false_of_isWord (isWords character (List.mem_of_getLast? last))

theorem stripComments_eq_of_cut (cut : segments clause = first ++ word.map .code ++ second) :
    stripComments clause = strippedOf first ++ (word ++ strippedOf second) := by
  change strippedOf (segments clause) = _
  rw [cut, strippedOf_append, strippedOf_append, strippedOf_map_code, List.append_assoc]

theorem exists_typeEnding (cut : segments clause = first ++ word.map .code ++ second)
    (listed : word.map fold ∈ typeEnds) (outside : isWordAt (maskOf first).getLast? = false)
    (named : columnName? (stripComments clause) = some (written, rest))
    (behind : clause.length - rest.length ≤ (textOf first).length) :
    ∃ ending : TypeEnding, ending.view =
        ⟨maskOf (first ++ word.map .code), strippedOf (first ++ word.map .code), none⟩ ∧
      Trimmed (maskOf (first ++ word.map .code)) ∧ ending.written = written ∧
      ending.between <+: rest ∧
      clause.length - rest.length + ending.between.length = (textOf first).length := by
  have length := length_stripComments clause
  rw [stripComments_eq_of_cut cut, List.length_append, length_strippedOf] at length
  rw [stripComments_eq_of_cut cut] at named
  rcases columnName?_append named (by omega) with ⟨between, rfl, short, named'⟩
  have bare : Bare (between ++ word) := by
    rcases columnName?_eq_some.mp named with ⟨_, _, _, _, _, bare⟩
    rw [← List.append_assoc] at bare
    exact bare.of_append
  refine ⟨⟨maskOf first, strippedOf first, word, written, between, ?_, listed, outside, short,
    bare, named'⟩, ?_, ?_, rfl, List.prefix_append .., ?_⟩
  · rw [length_maskOf, length_strippedOf]
  · rw [maskOf_append, strippedOf_append, maskOf_map_code, strippedOf_map_code]
    rfl
  · exact trimmed_of_columnName? cut listed (List.ne_nil_of_length_pos (by omega)) named
  · rw [length_strippedOf] at short
    rw [List.length_append]
    simp only
    omega

end

/-- A clause that names a column may be cut behind any word that ends a type and stands behind the
name, in code and in front of all line comments: it is refused for the same reason or gives the
column the same name and the same type. What follows the name up to that word is all that the type
is read from. -/
theorem constraints_leave_name_and_type {clause written rest keyword : List Char} {place : Nat}
    (named : columnName? (stripComments clause) = some (written, rest))
    (behind : clause.length - rest.length ≤ place) (listed : keyword ∈ typeEnds)
    (here : wholeWordsAt [keyword] ((mask clause).take place).getLast?
      ((mask clause).drop place) = true)
    (uncommented : ∀ region ∈ scan clause, region.kind = .lineComment → place ≤ region.start) :
    nameAndLabel clause = nameAndLabel (clause.take (place + keyword.length)) ∧
      ∀ name label, nameAndLabel clause = .ok (name, label) →
        name.toList = unquote written ∧ ∃ length, clause.length - rest.length + length ≤ place ∧
          label.toList = typeLabel (trim (rest.take length)) := by
  rcases exists_code_of_wholeWordsAt listed here with
    ⟨first, second, word, cut, rfl, rfl, outside, ends⟩
  have nonempty := (isWord_of_mem_typeEnds listed).1
  have uncommented' : ∀ segment ∈ first ++ word.map .code, segment.isLineComment = false := by
    refine List.forall_mem_append.mpr ⟨?_, fun segment member => ?_⟩
    · exact isLineComment_eq_false_of_scan (cut.trans (List.append_assoc ..)) uncommented
    · rcases List.mem_map.mp member with ⟨_, _, rfl⟩
      rfl
  rcases exists_typeEnding cut listed outside named behind with
    ⟨ending, seen, trimmed, rfl, ⟨more, whole⟩, reaches⟩
  rcases ending.exists_startsView seen cut uncommented' trimmed ends with ⟨_, _, starts⟩
  refine ⟨?_, fun name label read => ?_⟩
  · have cut' := (segments_take cut nonempty).trans (List.append_nil _).symm
    rcases ending.exists_startsView seen cut' uncommented' trimmed rfl with ⟨_, _, starts'⟩
    rw [List.length_map, nameAndLabel, nameAndLabel, ending.nameAndLabel_eq starts,
      ending.nameAndLabel_eq starts']
  · rcases ending.exists_of_nameAndLabel starts read with ⟨isName, length, early, shown⟩
    refine ⟨isName, length, by omega, ?_⟩
    rw [shown, ← whole, List.take_append_of_le_length early]

theorem default_with_cast_leaves_type :
    let clause := "\"at\" timestamp DEFAULT 'not null'::text CHECK (at > 0) -- when".toList
    nameAndLabel clause = nameAndLabel "\"at\" timestamp DEFAULT".toList ∧
      nameAndLabel clause = .ok ("at", "TIMESTAMP") ∧
      ∃ length, 5 + length ≤ 15 ∧ "TIMESTAMP".toList = typeLabel (trim
        ("timestamp DEFAULT 'not null'::text CHECK (at > 0)        ".toList.take length)) := by
  have named : columnName? (stripComments
      "\"at\" timestamp DEFAULT 'not null'::text CHECK (at > 0) -- when".toList) =
      some ("\"at\"".toList,
        "timestamp DEFAULT 'not null'::text CHECK (at > 0)        ".toList) := by
    decide +kernel
  have read : nameAndLabel
      "\"at\" timestamp DEFAULT 'not null'::text CHECK (at > 0) -- when".toList =
      .ok ("at", "TIMESTAMP") := by
    decide +kernel
  have both := @constraints_leave_name_and_type _ _ _ "default".toList 15 named (by decide +kernel)
    (by decide) (by decide +kernel) (by decide +kernel)
  exact ⟨both.1, read, (both.2 _ _ read).2⟩

end Sql

end TableSchema
