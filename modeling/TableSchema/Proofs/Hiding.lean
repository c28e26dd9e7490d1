import TableSchema.Proofs.ClauseSpans
import TableSchema.Proofs.CommentFree
import TableSchema.Proofs.HeaderAccount

/-! # What a mask hides

Of a comment a mask shows nothing, and of a literal its two delimiters. Only a literal that the end
of the text cuts off has no second delimiter: its last character is shown instead, whatever it is.
-/

namespace TableSchema.Sql

open Text

def RegionKind.delimiter? : RegionKind → Option Char
  | .lineComment | .blockComment => none
  | .string => some '\''
  | .quotedIdentifier => some '"'
  | .dollarString => some '$'

namespace Region

/-- At the place the mask shows a space, a line feed of the text, or a delimiter of the region. -/
def HiddenAt (text : List Char) (region : Region) (place : Nat) : Prop :=
  (mask text)[place]? = some ' ' ∨
    ((mask text)[place]? = some '\n' ∧ text[place]? = some '\n') ∨
    ((mask text)[place]? = region.kind.delimiter? ∧
      (place = region.start ∨ place + 1 = region.stop))

instance (text : List Char) (region : Region) (place : Nat) :
    Decidable (region.HiddenAt text place) :=
  inferInstanceAs (Decidable (_ ∨ _))

/-- The region is a literal that nothing in the text closes. -/
def CutOff (text : List Char) (region : Region) : Prop :=
  region.kind.isLiteral = true ∧
    ¬ ClosedToken (text.take region.start) region.kind (slice text region.start region.stop) []

/-- The place is the last one of a text that cuts the region off, and what stands there could not
be shown of a literal. -/
structure LeaksAt (text : List Char) (region : Region) (place : Nat) : Prop where
  cutOff : region.CutOff text
  inner : region.start < place
  last : place + 1 = text.length
  visible : text[place]? ∉ [some ' ', some '\n', region.kind.delimiter?]

def Keeps (region : Region) (place : Nat) : Prop :=
  region.kind.isLiteral = true ∧ region.start + 1 < region.stop ∧
    (place = region.start ∨ place + 1 = region.stop)

instance (region : Region) (place : Nat) : Decidable (region.Keeps place) :=
  inferInstanceAs (Decidable (_ ∧ _))

end Region

/-! ## Delimiters -/

section

variable {before token after : List Char} {kind : RegionKind}

theorem Opens.head?_eq {text : List Char} (opens : Opens before kind text)
    (literal : kind.isLiteral = true) : text.head? = kind.delimiter? := by
  cases opens with
  | lineComment | blockComment => cases literal
  | string | quotedIdentifier => rfl
  | dollarString isTag =>
      rcases isTag with ⟨name, rfl, _⟩
      rfl

theorem ClosedToken.getLast?_eq (closed : ClosedToken before kind token after)
    (literal : kind.isLiteral = true) : token.getLast? = kind.delimiter? := by
  cases closed with
  | lineComment | blockComment => cases literal
  | string => rw [← List.cons_append, List.getLast?_concat]; rfl
  | quotedIdentifier => rw [← List.cons_append, List.getLast?_concat]; rfl
  | dollarString isTag =>
      rcases isTag with ⟨name, rfl, _⟩
      rw [← List.append_assoc, ← List.cons_append, ← List.append_assoc, List.getLast?_concat]
      rfl

theorem ClosedToken.alone (closed : ClosedToken before kind token after)
    (literal : kind.isLiteral = true) : ClosedToken before kind token [] := by
  cases closed with
  | lineComment | blockComment => cases literal
  | string quoted => exact .string quoted (by simp)
  | quotedIdentifier quoted => exact .quotedIdentifier quoted (by simp)
  | dollarString isTag free first => exact .dollarString isTag free first

end

/-! ## What is shown of a region -/

theorem exists_split_of_mem_scan {text : List Char} {region : Region}
    (member : region ∈ scan text) :
    ∃ before token after, segments text = before ++ .region region.kind token :: after ∧
      text = textOf before ++ (token ++ textOf after) ∧
      region.start = (textOf before).length ∧ region.stop = region.start + token.length := by
  rcases exists_split_of_mem_regionsFrom member with ⟨before, token, after, cut, starts, stops⟩
  refine ⟨before, token, after, cut, ?_, starts.trans (Nat.zero_add _), stops⟩
  rw [← text_segments text, cut]
  exact textOf_append _ _

theorem isToken_of_reads {before after : List Segment} {kind : RegionKind} {token rest : List Char}
    (reads : Reads .start (before ++ .region kind token :: after) rest) :
    IsToken (textOf before) kind token (textOf after ++ rest) := by
  have stands := (reads_append.mp reads).2.1
  exact (regionAt?_eq_some_iff.mp stands).2

section

variable {text : List Char} {region : Region} {place : Nat}

theorem isTokenOf_of_mem_scan (member : region ∈ scan text) : region.IsTokenOf text := by
  rcases exists_split_of_mem_scan member with ⟨before, token, after, cut, whole, starts, stops⟩
  have isToken := isToken_of_reads (cut ▸ reads_segments text)
  rw [List.append_nil] at isToken
  rw [Region.IsTokenOf, stops, starts, whole, slice_append, List.take_left, ← List.drop_drop,
    List.drop_left, List.drop_left]
  exact isToken

theorem exists_token (member : region ∈ scan text) (covers : region.Covers place) :
    ∃ token, region.stop = region.start + token.length ∧
      ∀ view : Segment → List Char, (∀ segment, (view segment).length = segment.text.length) →
        ((segments text).flatMap view)[place]? =
          (view (.region region.kind token))[place - region.start]? := by
  rcases exists_split_of_mem_scan member with ⟨before, token, after, cut, _, starts, stops⟩
  rcases covers with ⟨late, early⟩
  refine ⟨token, stops, fun view same => ?_⟩
  have length : (before.flatMap view).length = (textOf before).length := by
    rw [textOf, List.length_flatMap, List.length_flatMap,
      List.map_congr_left fun segment _ => same segment]
  rw [cut, List.flatMap_append, List.flatMap_cons, List.getElem?_append_right (by omega), length,
    starts, List.getElem?_append_left]
  rw [same, Segment.text_region]
  omega

/-- The mask hides a region but for the places that it keeps. -/
theorem getElem?_mask (member : region ∈ scan text) (covers : region.Covers place) :
    (mask text)[place]? =
      if region.Keeps place then text[place]? else text[place]?.map hide := by
  rcases exists_token member covers with ⟨token, stops, here⟩
  rcases covers with ⟨late, early⟩
  have shown := here _ fun segment => (rfl : segment.text.length = _)
  rw [text_segments] at shown
  rw [mask, here _ Segment.length_masked, shown, Segment.masked, Segment.text]
  cases comment : region.kind.isComment with
  | true =>
      rw [if_pos rfl, if_neg (by simp [Region.Keeps, RegionKind.isLiteral, comment]),
        List.getElem?_map]
  | false =>
      rw [if_neg (by simp), getElem?_hideInside]
      refine if_congr ?_ rfl rfl
      simp only [Region.Keeps, RegionKind.isLiteral, comment, Bool.not_false, true_and]
      omega

theorem stop_of_cutOff (member : region ∈ scan text) (cutOff : region.CutOff text) :
    region.stop = text.length := by
  rcases isTokenOf_of_mem_scan member with closed | ⟨nothing, _⟩
  · exact absurd (closed.alone cutOff.1) cutOff.2
  · exact Nat.le_antisymm (bounds_of_mem_scan member).2 (List.drop_eq_nil_iff.mp nothing)

theorem getElem?_start (member : region ∈ scan text) (literal : region.kind.isLiteral = true)
    (nonempty : region.start < region.stop) : text[region.start]? = region.kind.delimiter? := by
  have opens := (isTokenOf_of_mem_scan member).opens (Nat.le_of_lt nonempty)
  rw [← opens.head?_eq literal, List.head?_drop]

theorem getElem?_last (member : region ∈ scan text) (literal : region.kind.isLiteral = true)
    (whole : ¬ region.CutOff text) (stops : place + 1 = region.stop)
    (inner : region.start ≤ place) : text[place]? = region.kind.delimiter? := by
  have within := (bounds_of_mem_scan member).2
  have closed := not_not.mp fun unclosed => whole ⟨literal, unclosed⟩
  have long : (slice text region.start region.stop).length = region.stop - region.start := by
    rw [slice, List.length_take, List.length_drop]
    omega
  rw [← closed.getLast?_eq literal, List.getLast?_eq_getElem?, long, getElem?_slice,
    if_pos (by omega)]
  congr 1
  omega

theorem hiddenAt_of_hidden {character : Char}
    (shown : (mask text)[place]? = some (hide character)) (here : text[place]? = some character) :
    region.HiddenAt text place := by
  rw [Region.HiddenAt, shown, here]
  unfold hide
  split
  · rename_i feed
    exact .inr (.inl ⟨rfl, congrArg some feed⟩)
  · exact .inl rfl

/-- Every place of a region is hidden, unless the region is cut off there. -/
theorem hiddenAt_iff (member : region ∈ scan text) (covers : region.Covers place) :
    region.HiddenAt text place ↔ ¬ region.LeaksAt text place := by
  have within := (bounds_of_mem_scan member).2
  have shown := getElem?_mask member covers
  have nonempty : region.start < region.stop := Nat.lt_of_le_of_lt covers.1 covers.2
  by_cases keeps : region.Keeps place
  · rw [if_pos keeps] at shown
    rcases keeps with ⟨literal, long, rfl | stops⟩
    · rw [getElem?_start member literal nonempty] at shown
      exact iff_of_true (.inr (.inr ⟨shown, .inl rfl⟩)) fun leaks => Nat.lt_irrefl _ leaks.inner
    · by_cases cutOff : region.CutOff text
      · have leaks : region.LeaksAt text place ↔
            text[place]? ∉ [some ' ', some '\n', region.kind.delimiter?] :=
          ⟨Region.LeaksAt.visible, fun visible =>
            ⟨cutOff, by omega, stops.trans (stop_of_cutOff member cutOff), visible⟩⟩
        rw [Region.HiddenAt, shown, leaks, not_not]
        simp [stops]
      · rw [getElem?_last member literal cutOff stops covers.1] at shown
        exact iff_of_true (.inr (.inr ⟨shown, .inr stops⟩)) fun leaks => cutOff leaks.cutOff
  · rw [if_neg keeps] at shown
    have short : place < text.length := Nat.lt_of_lt_of_le covers.2 within
    rw [List.getElem?_eq_getElem short] at shown
    refine iff_of_true (hiddenAt_of_hidden shown (List.getElem?_eq_getElem short)) fun leaks => ?_
    have stops := (stop_of_cutOff member leaks.cutOff).trans leaks.last.symm
    exact keeps ⟨leaks.cutOff.1, by have := leaks.inner; omega, .inr stops.symm⟩

theorem inCode_or_leaksAt {character : Char} (shown : (mask text)[place]? = some character)
    (structural : character ∉ regionMarks) :
    InCode text place ∨ ∃ region ∈ scan text, region.Covers place ∧ region.LeaksAt text place := by
  refine or_iff_not_imp_left.mpr fun inRegion => ?_
  simp only [InCode, not_forall, not_not] at inRegion
  rcases inRegion with ⟨region, member, covers⟩
  refine ⟨region, member, covers, by_contra fun sealed => structural ?_⟩
  have hidden := (hiddenAt_iff member covers).mpr sealed
  rw [Region.HiddenAt, shown] at hidden
  rcases hidden with blank | ⟨feed, _⟩ | ⟨delimiter, _⟩
  · cases blank
    decide
  · cases feed
    decide
  · cases kind : region.kind <;> rw [kind] at delimiter <;> cases delimiter <;> decide

end

/-! ## Statements -/

theorem not_cutOff_of_reads {text : List Char} (closed : Reads .start (segments text) ['\n'])
    {region : Region} (member : region ∈ scan text) : ¬ region.CutOff text := by
  rintro ⟨literal, unclosed⟩
  rcases exists_split_of_mem_scan member with ⟨before, token, after, cut, whole, starts, stops⟩
  rw [stops, starts, whole, slice_append, List.take_left] at unclosed
  rcases isToken_of_reads (cut ▸ closed) with isClosed | ⟨nothing, _⟩
  · exact unclosed (isClosed.alone literal)
  · simp at nothing

theorem IsStatementOf.exists_front {sql : List Char} {span : StatementSpan} {parts : HeaderMatch}
    {body blanks rest : List Char} (isStatement : IsStatementOf sql span parts body blanks rest) :
    ∃ front, mask sql = front ++ (blanks ++ ';' :: rest) ∧ front.length = span.closing + 1 := by
  refine ⟨(mask sql).take span.start ++ (parts.whole ++ (body ++ [')'])), ?_, ?_⟩
  · have whole := List.take_append_drop span.start (mask sql)
    rw [isStatement.stands.text, parts.text_eq_whole] at whole
    exact whole.symm.trans (by simp)
  · rw [List.length_append, isStatement.stands.length_take, List.length_append, parts.length_whole,
      List.length_append, isStatement.closing, isStatement.opening]
    simp only [List.length_singleton]
    omega

theorem visible_of_start {text : List Char} {region : Region} (member : region ∈ scan text)
    (literal : region.kind.isLiteral = true) (long : region.start + 1 < region.stop) :
    ∃ delimiter, (mask text)[region.start]? = some delimiter ∧ isBlank delimiter = false := by
  have shown := getElem?_mask member ⟨Nat.le_refl _, Nat.lt_of_succ_lt long⟩
  rw [if_pos ⟨literal, long, .inl rfl⟩, getElem?_start member literal (Nat.lt_of_succ_lt long)]
    at shown
  rw [shown]
  generalize region.kind = kind at literal ⊢
  cases kind with
  | lineComment | blockComment => cases literal
  | string | quotedIdentifier | dollarString => exact ⟨_, rfl, by decide⟩

/-- Up to the semicolon of a complete statement the mask shows nothing of a region that could be
structure. -/
theorem IsStatementOf.inCode {sql : List Char} {span : StatementSpan} {parts : HeaderMatch}
    {body blanks rest : List Char} (isStatement : IsStatementOf sql span parts body blanks rest)
    {place : Nat} (early : place ≤ span.semicolon) {character : Char}
    (shown : (mask sql)[place]? = some character) (structural : character ∉ regionMarks) :
    InCode sql place := by
  rcases inCode_or_leaksAt shown structural with code | ⟨region, member, covers, leaks⟩
  · exact code
  -- The region would have to start between the closing parenthesis and the semicolon, where the
  -- mask is blank.
  exfalso
  rcases isStatement.exists_front with ⟨front, masked, closes⟩
  have long := congrArg List.length masked
  rw [length_mask, List.length_append, List.length_append, List.length_cons, closes] at long
  have last := leaks.last
  have inner := leaks.inner
  have semicolon := isStatement.semicolon
  have stops := covers.2
  have behind : span.closing < region.start := by
    by_contra before
    exact isStatement.parentheses.2 region member ⟨by omega, by omega⟩
  rcases visible_of_start member leaks.cutOff.1 (by omega) with ⟨delimiter, here, visible⟩
  rw [masked, List.getElem?_append_right (by omega), List.getElem?_append_left (by omega)] at here
  rw [isStatement.blank delimiter (List.mem_of_getElem? here)] at visible
  cases visible

theorem not_cutOff_of_mem_statementSpans {sql : List Char} {span : StatementSpan}
    (member : span ∈ statementSpans sql) {region : Region}
    (member' : region ∈ scan (span.body sql)) : ¬ region.CutOff (span.body sql) := by
  have listed : span.statement sql ∈ statements sql := by
    rw [statements_eq_spans]
    exact List.mem_map_of_mem member
  have closed := reads_body listed
  rw [StatementPlace.statement, String.toList_ofList] at closed
  exact not_cutOff_of_reads closed member'

/-- A mask hides every place of every region, unless the end of the text cuts a literal off there:
then the last character is shown although it is no delimiter. So what a mask shows as structure,
and where a text is cut, is code but for that one place, which is never in a complete statement. -/
theorem mask_hides_unless_cut_off (text : List Char) :
    (∀ region ∈ scan text, ∀ place, region.Covers place →
      (region.HiddenAt text place ↔ ¬ region.LeaksAt text place)) ∧
    (∀ place character, (mask text)[place]? = some character → character ∉ regionMarks →
      InCode text place ∨ ∃ region ∈ scan text, region.Covers place ∧ region.LeaksAt text place) ∧
    (∀ cut ∈ cuts text,
      InCode text cut ∨ ∃ region ∈ scan text, region.Covers cut ∧ region.LeaksAt text cut) ∧
    ∀ span ∈ statementSpans text,
      (∀ place character, place ≤ span.semicolon → (mask text)[place]? = some character →
        character ∉ regionMarks → InCode text place) ∧
      (∀ region ∈ scan (span.body text), ∀ place, region.Covers place →
        region.HiddenAt (span.body text) place) ∧
      ∀ cut ∈ cuts (span.body text), InCode (span.body text) cut := by
  refine ⟨fun region member place covers => hiddenAt_iff member covers,
    fun place character => inCode_or_leaksAt,
    fun cut member => inCode_or_leaksAt (comma_of_mem_cuts member) (by decide), ?_⟩
  intro span member
  have whole (region : Region) (member' : region ∈ scan (span.body text)) :=
    not_cutOff_of_mem_statementSpans member member'
  refine ⟨fun place character early => ?_, fun region member' place covers => ?_,
    fun cut member' => ?_⟩
  · rcases exists_isStatementOf member with ⟨parts, body, blanks, rest, isStatement⟩
    exact isStatement.inCode early
  · exact (hiddenAt_iff member' covers).mpr fun leaks => whole region member' leaks.cutOff
  · rcases inCode_or_leaksAt (comma_of_mem_cuts member') (by decide) with
      code | ⟨region, listed, _, leaks⟩
    · exact code
    · exact absurd leaks.cutOff (whole region listed)

/-- Behind a statement with commas, parentheses and semicolons in its literals, a string that is
never closed leaks its last character. -/
theorem comma_leaks_behind_statement :
    let sql := "create table t (a text default '),(;', b int); 'x,".toList
    (⟨.string, 47, 50⟩ : Region).LeaksAt sql 49 ∧ cuts sql = [49] ∧
      ∃ span ∈ statementSpans sql, cuts (span.body sql) = [21] ∧ InCode (span.body sql) 21 := by
  intro sql
  have member : (⟨.string, 47, 50⟩ : Region) ∈ scan sql := by decide +kernel
  have spanned : ⟨⟨13, 14, 15, 44⟩, 0, 45⟩ ∈ statementSpans sql := by decide +kernel
  have cut : cuts (slice sql 16 44) = [21] := by decide +kernel
  have hides := mask_hides_unless_cut_off sql
  refine ⟨?_, by decide +kernel, _, spanned, cut, ?_⟩
  · by_contra sealed
    have hidden := (hides.1 _ member 49 ⟨by decide, by decide⟩).mpr sealed
    revert hidden
    decide +kernel
  · refine (hides.2.2.2 _ spanned).2.2 21 ?_
    change 21 ∈ cuts (slice sql 16 44)
    rw [cut]
    exact List.mem_cons_self ..

/-- The comma inside a string that is never closed cuts the text, and the parenthesis inside one is
taken for the end of the body. -/
theorem cut_off_literal_is_shown :
    let text := "a 'x,".toList
    let region : Region := ⟨.string, 2, 5⟩
    region ∈ scan text ∧ region.Covers 4 ∧ ¬ region.HiddenAt text 4 ∧ cuts text = [4] ∧
      findings "create table t (a text default ')".toList = [.unterminated "t" 1] :=
  ⟨by decide +kernel, ⟨by decide, by decide⟩, by decide +kernel, by decide +kernel,
    by decide +kernel⟩

end TableSchema.Sql
