import TableSchema.Proofs.ClauseAccount
import TableSchema.Proofs.CutClauses

/-! # Where reports point

What is reported about a clause carries the line where its code starts in the script. What is
reported about a header carries the line where the header starts, and of an empty table the line of
its parenthesis.
-/

namespace TableSchema

open Sql Text

namespace Sql

/-! ## Places in a body and in its script -/

theorem slice_slice {start stop start' stop' : Nat} (inside : start + stop' ≤ stop)
    (text : List Char) :
    slice (slice text start stop) start' stop' = slice text (start + start') (start + stop') := by
  have short : stop' - start' ≤ stop - start - start' := by omega
  have long : start + stop' - (start + start') = stop' - start' := by omega
  rw [slice, slice, slice, List.drop_take, List.drop_drop, List.take_take, Nat.min_eq_left short,
    long]

theorem lineAt_behind {text : List Char} {place : Nat} {character : Char}
    (here : text[place]? = some character) (other : character ≠ '\n') (distance : Nat) :
    lineAt text (place + 1 + distance) =
      lineAt text place + newlines ((text.drop (place + 1)).take distance) := by
  have alone : [character].count '\n' = 0 := by simp [other]
  rw [lineAt, lineAt, newlines, newlines, newlines, List.take_add, List.count_append,
    List.take_add_one, here, Option.toList_some, List.count_append, alone]
  omega

theorem statementPlaces_eq (sql : List Char) :
    statementPlaces sql = (statementSpans sql).map (·.toStatementPlace) := by
  rw [statementPlaces, statementSpans, List.map_filterMap]
  congr 1
  funext place
  simp only [HeaderPlace.statement?, HeaderPlace.span?]
  cases place.ending <;> rfl

namespace StatementSpan

def piece (statement : StatementSpan) (sql : List Char) (span : ClauseSpan) : List Char :=
  slice (stripComments sql) (statement.opening + 1 + span.start) (statement.opening + 1 + span.stop)

def position (statement : StatementSpan) (sql : List Char) (span : ClauseSpan) : Nat :=
  statement.opening + 1 + span.start + blanksAtStart (statement.piece sql span)

end StatementSpan

section

variable {sql : List Char} {statement : StatementSpan} {span : ClauseSpan}

theorem standsAlone_of_mem_statementSpans (member : statement ∈ statementSpans sql) :
    sql[statement.opening]? = some '(' ∧ sql[statement.closing]? = some ')' ∧
      StandsAlone sql (statement.opening + 1) statement.closing := by
  apply (statements_stand_alone sql).2 statement.toStatementPlace
  rw [statementPlaces_eq]
  exact List.mem_map_of_mem member

theorem closing_eq (member : statement ∈ statementSpans sql) :
    statement.closing = statement.opening + 1 + (statement.body sql).length := by
  have short := (List.getElem?_eq_some_iff.mp (standsAlone_of_mem_statementSpans member).2.1).1
  rcases exists_isStatementOf member with ⟨parts, body, blanks, rest, isStatement⟩
  have behind := isStatement.closing
  rw [StatementPlace.body, slice, List.length_take, List.length_drop]
  omega

theorem slice_stripComments_body (member : statement ∈ statementSpans sql) {start stop : Nat}
    (short : stop ≤ (statement.body sql).length) :
    slice (stripComments (statement.body sql)) start stop =
      slice (stripComments sql) (statement.opening + 1 + start) (statement.opening + 1 + stop) := by
  have closing := closing_eq member
  rw [StatementPlace.body, (standsAlone_of_mem_statementSpans member).2.2.stripped]
  exact slice_slice (by omega) _

theorem piece_eq (member : statement ∈ statementSpans sql)
    (listed : span ∈ clauseSpans (statement.body sql)) :
    statement.piece sql span = span.slice (stripComments (statement.body sql)) :=
  (slice_stripComments_body member (bounds_of_mem_clauseSpans listed).2).symm

theorem position_eq (member : statement ∈ statementSpans sql)
    (listed : span ∈ clauseSpans (statement.body sql)) :
    statement.position sql span = statement.opening + 1 + span.offset (statement.body sql) := by
  rw [StatementSpan.position, piece_eq member listed, Nat.add_assoc]
  rfl

theorem take_body (member : statement ∈ statementSpans sql) {count : Nat}
    (short : count ≤ (statement.body sql).length) :
    (statement.body sql).take count = (sql.drop (statement.opening + 1)).take count := by
  have closing := closing_eq member
  have inside : count ≤ statement.closing - (statement.opening + 1) := by omega
  rw [StatementPlace.body, slice, List.take_take, Nat.min_eq_left inside]

theorem lineAt_position (member : statement ∈ statementSpans sql)
    (listed : span ∈ clauseSpans (statement.body sql))
    (short : span.offset (statement.body sql) ≤ (statement.body sql).length) :
    lineAt sql (statement.position sql span) = lineAt sql statement.opening +
      newlines ((statement.body sql).take (span.offset (statement.body sql))) := by
  rw [take_body member short, position_eq member listed]
  exact lineAt_behind (standsAlone_of_mem_statementSpans member).1 (by decide) _

theorem slice_position (member : statement ∈ statementSpans sql)
    (listed : span ∈ clauseSpans (statement.body sql)) :
    slice (stripComments sql) (statement.position sql span)
        (statement.position sql span + (span.code (statement.body sql)).length) =
      span.code (statement.body sql) := by
  have bounds := bounds_of_mem_clauseSpans listed
  rcases exists_around_code listed with ⟨_, _, after, _, _, _, _, stops, _⟩
  rw [position_eq member listed, Nat.add_assoc (statement.opening + 1),
    ← slice_stripComments_body member (by omega), slice_offset listed]

theorem visible_at_position (member : statement ∈ statementSpans sql)
    (listed : span ∈ clauseSpans (statement.body sql))
    (hasCode : span.HasCode (statement.body sql)) :
    ∃ character, (stripComments sql)[statement.position sql span]? = some character ∧
      isBlank character = false := by
  have stands := slice_position member listed
  have trimmed : Trimmed (span.code (statement.body sql)) := trimmed_trim _
  have shown := ClauseSpan.code_ne_nil_iff.mpr hasCode
  rcases List.exists_cons_of_ne_nil shown with ⟨first, rest, code⟩
  have here := getElem?_slice (stripComments sql) (statement.position sql span)
    (statement.position sql span + (span.code (statement.body sql)).length) 0
  rw [stands, if_pos (by rw [code, List.length_cons]; omega), code, Nat.add_zero] at here
  exact ⟨first, here.symm, trimmed.1 first (by rw [code]; rfl)⟩

end

end Sql

/-! ## Reports about clauses -/

/-- The report points at a clause of the statement: its line is that of the place in the script
where the code of the clause starts, and its text is that code, followed at most by what comments
say. -/
structure Diagnostic.PointsAtClause (diagnostic : Diagnostic) (sql : List Char)
    (statement : StatementSpan) (span : ClauseSpan) : Prop where
  table : diagnostic.table = (statement.statement sql).name
  line : diagnostic.line = lineAt sql (statement.position sql span)
  inside : statement.opening < statement.position sql span ∧
    statement.position sql span < statement.closing
  visible : ∃ character, sql[statement.position sql span]? = some character ∧
    isBlank character = false
  uncommented : ∀ region ∈ scan sql, region.kind.isComment = true →
    ¬ region.Covers (statement.position sql span)
  stands : slice (stripComments sql) (statement.position sql span)
    (statement.position sql span + (trim (statement.piece sql span)).length) =
      trim (statement.piece sql span)
  text : diagnostic.clause? = some (String.ofList (trim (statement.piece sql span))) ∨
    diagnostic.clause? = some (String.ofList (trim (statement.piece sql span) ++ " -- ".toList ++
      joinWords (ownedTexts (statement.body sql) span)))

theorem pointsAtClause_of_refuses {sql : List Char} {statement : StatementSpan}
    (member : statement ∈ statementSpans sql) {clause : Clause}
    (listed : clause ∈ clauses (statement.body sql)) {refusal : Refusal} {diagnostic : Diagnostic}
    (refuses : Refuses (statement.statement sql) clause refusal diagnostic) :
    ∃ span ∈ clauseSpans (statement.body sql), diagnostic.PointsAtClause sql statement span := by
  rcases exists_span_of_mem_clauses listed with ⟨span, spanned, hasCode, rfl⟩
  have bounds := bounds_of_mem_clauseSpans spanned
  have offset := offset_inside spanned hasCode
  have place := position_eq member spanned
  have closing := closing_eq member
  have piece : trim (statement.piece sql span) = span.code (statement.body sql) := by
    rw [piece_eq member spanned]
    rfl
  rcases visible_at_position member spanned hasCode with ⟨character, here, visible⟩
  rcases getElem?_of_stripComments here visible with ⟨inText, uncommented⟩
  refine ⟨span, spanned, refuses.table, ?_, ⟨by omega, by omega⟩, ⟨character, inText, visible⟩,
    uncommented, piece ▸ slice_position member spanned, ?_⟩
  · rw [refuses.line, lineAt_position member spanned (by omega)]
    change lineAt sql _ + newlines ((String.ofList (statement.body sql)).toList.take _) = _
    rw [String.toList_ofList]
    rfl
  · rw [refuses.text, piece, ClauseSpan.clause]
    simp only
    split
    · exact .inl rfl
    · exact .inr rfl

/-! ## Reports about statements -/

/-- The report points at a header: its line is that of the word CREATE, which is no part of a
comment or a literal. -/
structure Diagnostic.PointsAtHeader (diagnostic : Diagnostic) (sql : List Char)
    (parts : HeaderMatch) (position : Nat) : Prop where
  table : diagnostic.table = parts.tableName sql position
  line : diagnostic.line = lineAt sql position
  create : (slice sql position (position + 6)).map fold = "create".toList
  inCode : ∀ place, position ≤ place → place < position + 6 → InCode sql place

structure Diagnostic.PointsAtOpening (diagnostic : Diagnostic) (sql : List Char)
    (statement : StatementSpan) : Prop where
  table : diagnostic.table = (statement.statement sql).name
  line : diagnostic.line = lineAt sql statement.opening
  opening : sql[statement.opening]? = some '('

theorem exists_create {words : List Char}
    (phrase : IsPhrase createPhrase words ∨ IsPhrase (createPhrase ++ existencePhrase) words) :
    ∃ word rest, words = word ++ rest ∧ word.map fold = "create".toList := by
  rcases phrase with phrase | phrase
  · cases phrase with
    | cons read _ _ _ => exact ⟨_, _, rfl, read⟩
  · cases phrase with
    | cons read _ _ _ => exact ⟨_, _, rfl, read⟩

theorem Sql.HeaderMatch.StandsAt.create {parts : HeaderMatch} {sql rest : List Char}
    {position : Nat} (stands : parts.StandsAt (mask sql) position rest) :
    (slice sql position (position + 6)).map fold = "create".toList ∧
      ∀ place, position ≤ place → place < position + 6 → InCode sql place := by
  rcases exists_create stands.fits.words with ⟨word, more, words, read⟩
  have long : word.length = 6 := by simpa using congrArg List.length read
  have visible : ∀ character ∈ word, isBlank character = false :=
    fun character => visible_of_fold read (words_createPhrase _ (List.mem_cons_self ..)).2
  have masked : slice (maskOf (segments sql)) position (position + 6) = word := by
    have text := stands.text
    rw [HeaderMatch.text, words, List.append_assoc] at text
    rw [slice, Nat.add_sub_cancel_left, ← long]
    change ((mask sql).drop position).take word.length = word
    rw [text, List.take_left]
  have shown := (slice_of_visible (masked.symm ▸ visible)).1
  rw [masked, textOf, text_segments] at shown
  refine ⟨by rw [shown, read], fun place late early => ?_⟩
  have here : parts.words[place - position]? = some word[place - position] := by
    rw [words, List.getElem?_append_left (by omega), List.getElem?_eq_getElem]
  have code := stands.keywords here (visible _ (List.getElem_mem _))
  rwa [Nat.add_sub_cancel' late] at code

theorem pointsAtHeader_of_mem {sql : List Char} {diagnostic : Diagnostic}
    (member : diagnostic ∈ statementDiagnostics sql) :
    ∃ position parts rest, HeaderMatch.StandsAt parts (mask sql) position rest ∧
      diagnostic.PointsAtHeader sql parts position := by
  rw [Sql.statementDiagnostics_eq] at member
  rcases List.mem_filterMap.mp member with ⟨place, listed, reported⟩
  rcases exists_standsAt_of_mem_headers listed with ⟨parts, rest, stands, same⟩
  have name : place.name sql = parts.tableName sql place.start := by
    rw [same]
    rfl
  have about : diagnostic.table = parts.tableName sql place.start ∧
      diagnostic.line = lineAt sql place.start := by
    rw [HeaderPlace.diagnostic?_eq, name] at reported
    split at reported
    · cases reported
      exact ⟨rfl, rfl⟩
    · cases reported
      exact ⟨rfl, rfl⟩
    · cases reported
  exact ⟨place.start, parts, rest, stands, about.1, about.2, stands.create.1, stands.create.2⟩

/-! ## Scripts -/

/-- Every report carries the line of what it is about: a report about a clause that of the place
where the clause starts in the script, a report about a header that of its word CREATE, and a report
about an empty table that of the parenthesis that opens its body. -/
theorem reports_point_at_source (sql : String) :
    ∀ diagnostic ∈ (parse sql).diagnostics,
      (diagnostic.OfClause → ∃ statement ∈ statementSpans sql.toList,
        ∃ span ∈ clauseSpans (statement.body sql.toList),
          diagnostic.PointsAtClause sql.toList statement span) ∧
      (diagnostic.OfHeader → ∃ position parts rest,
        HeaderMatch.StandsAt parts (mask sql.toList) position rest ∧
          diagnostic.PointsAtHeader sql.toList parts position) ∧
      (diagnostic.kind = .emptyTable → ∃ statement ∈ statementSpans sql.toList,
        diagnostic.PointsAtOpening sql.toList statement) := by
  intro diagnostic member
  have tallies := tallies_readStatement (statements sql.toList)
  rcases List.mem_append.mp member with reported | reported
  · have ofHeader := ofHeader_of_mem_statementDiagnostics reported
    refine ⟨fun ofClause => ?_, fun _ => pointsAtHeader_of_mem reported, fun empty => ?_⟩
    · rcases ofHeader with kind | kind <;> simp [Diagnostic.OfClause, kind] at ofClause
    · rcases ofHeader with kind | kind <;> cases kind.symm.trans empty
  · have notOfHeader := tallies.not_ofHeader diagnostic reported
    rcases tallies.exists_statement reported with ⟨statement, listed, about⟩
    rw [statements_eq_spans] at listed
    rcases List.mem_map.mp listed with ⟨span, spanned, rfl⟩
    rcases about with ⟨clause, inBody, refusal, refuses⟩ | rfl
    · rw [StatementPlace.statement, String.toList_ofList] at inBody
      refine ⟨fun _ => ⟨span, spanned, pointsAtClause_of_refuses spanned inBody refuses⟩,
        fun ofHeader => absurd ofHeader notOfHeader, fun empty => ?_⟩
      rcases refuses.ofClause with kind | kind <;> cases kind.symm.trans empty
    · refine ⟨fun ofClause => ?_, fun ofHeader => absurd ofHeader notOfHeader, fun _ =>
        ⟨span, spanned, rfl, rfl, (standsAlone_of_mem_statementSpans spanned).1⟩⟩
      rcases ofClause with kind | kind <;> cases kind

/-- A constraint behind a comment of two lines, with a string of two lines in it. -/
theorem constraint_behind_comments :
    let sql := "--\ncreate table t (id int, -- (\n/* ,\n*/  CHECK (a > 'x\n'), -- why\n b);"
    let report : Diagnostic := .refusedClause .constraint "t" "CHECK (a > 'x\n') -- why" 4
    (parse sql).diagnostics = [report, .refusedClause .noNameAndType "t" "b" 6] ∧
      ∃ statement ∈ statementSpans sql.toList, ∃ span ∈ clauseSpans (statement.body sql.toList),
        report.PointsAtClause sql.toList statement span := by
  intro sql report
  have reported : (parse sql).diagnostics = [report, .refusedClause .noNameAndType "t" "b" 6] := by
    decide +kernel
  have member : report ∈ (parse sql).diagnostics := by
    rw [reported]
    exact List.mem_cons_self ..
  exact ⟨reported, (reports_point_at_source sql report member).1 (.inl rfl)⟩

end TableSchema
