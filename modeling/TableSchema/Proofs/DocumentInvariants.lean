import TableSchema.Proofs.Descriptions
import TableSchema.Proofs.Labels
import TableSchema.Report

/-! # What holds of every parsed document

Every table of a parsed document has columns, and every column has a name and a type. So a parsed
document can be shown in every format.
-/

namespace TableSchema

open Sql Text

/-! ## Labels -/

namespace Sql

theorem upperChar_ne_nil (character : Char) : upperChar character ≠ [] := by
  have nonempty : ∀ entry ∈ upperExpansions, entry.2 ≠ [] := by decide
  unfold upperChar
  split
  · simp
  · split
    · rename_i codes found
      rcases List.lookup_eq_some_iff.mp found with ⟨before, after, listed, _⟩
      simpa using nonempty (character.toNat, codes) (listed ▸ by simp)
    · simp

theorem exists_wordsFrom {word : List Char} (nonempty : word ≠ []) (text : List Char) :
    ∃ more words, wordsFrom word text = (word ++ more) :: words := by
  induction text generalizing word with
  | nil => exact ⟨[], [], by simp [wordsFrom, nonempty]⟩
  | cons character text induction =>
      rw [wordsFrom]
      split
      · exact ⟨[], wordsFrom [] text, by simp [nonempty]⟩
      · rcases induction (List.append_ne_nil_of_left_ne_nil nonempty [character]) with
          ⟨more, words, found⟩
        exact ⟨character :: more, words, by rw [found]; simp⟩

theorem exists_collapse {character : Char} (visible : isBlank character = false)
    (text : List Char) : ∃ rest, collapse (character :: text) = character :: rest := by
  rcases exists_wordsFrom (List.cons_ne_nil character []) text with ⟨more, words, found⟩
  have first : Text.words (character :: text) = ([character] ++ more) :: words := by
    rw [Text.words, wordsFrom, visible]
    exact found
  rw [collapse, first]
  cases words with
  | nil => exact ⟨more, rfl⟩
  | cons word words => exact ⟨more ++ ' ' :: joinWords (word :: words), rfl⟩

theorem typeLabel_ne_nil {rawType : List Char} (starts : startsType rawType = true) :
    typeLabel rawType ≠ [] := by
  rcases typeLabel_cases rawType with ⟨digits, _, label⟩ | ⟨entry, listed, label⟩ | label
  · rw [label]
    simp
  · have nonempty : ∀ entry ∈ wellKnown, entry.2.toList ≠ [] := by decide
    rw [label]
    exact nonempty entry listed
  · cases rawType with
    | nil => cases starts
    | cons character rest =>
        rw [startsType, Bool.or_eq_true, beq_iff_eq] at starts
        have visible : isBlank character = false := by
          rcases starts with starts | rfl
          · rw [isNameStart, Bool.and_eq_true] at starts
            exact isBlank_eq_false_of_isWord starts.1
          · decide
        have outside : character ≠ '(' := by
          rintro rfl
          revert starts
          decide
        rcases exists_collapse visible rest with ⟨more, collapsed⟩
        have kept : withoutParameters 0 (character :: more) =
            character :: withoutParameters 0 more := by
          rw [withoutParameters, if_neg fun opens => outside opens.1]
        rcases exists_collapse visible (withoutParameters 0 more) with ⟨shown, again⟩
        rw [label, collapsed, kept, again, upper, List.flatMap_cons]
        exact List.append_ne_nil_of_left_ne_nil (upperChar_ne_nil character) _

end Sql

/-! ## Columns -/

/-- What a column needs to be shown: a name and a type, and a description that says something if
there is one. -/
structure Field.Sound (field : Field) : Prop where
  name : field.name ≠ ""
  typeLabel : field.typeLabel ≠ ""
  description : ∀ text ∈ field.description, text ≠ "" ∧ Trimmed text.toList
  /-- A column called "id" is the primary key. -/
  identity : field.name = "id" → field.required = true ∧ field.description ≠ none

namespace Sql

theorem ClauseView.of_classify {view : ClauseView} {field : Field}
    (read : view.classify = .ok field) : field.name ≠ "" ∧ field.typeLabel ≠ "" ∧
      (field.name = "id" ∨ SaysPrimaryKey view.masked → field.required = true) := by
  unfold classify at read
  split at read
  · cases read
  · split at read
    · cases read
    · split at read
      · cases read
      · simp only at read
        split at read
        · cases read
        · rename_i said
          cases read
          simp only [Bool.or_eq_true, Bool.not_eq_true', not_or, Bool.not_eq_false,
            List.isEmpty_iff] at said
          refine ⟨?_, ?_, fun key => ?_⟩
          · rw [ne_eq, String.ofList_eq_empty_iff]
            exact said.1
          · rw [ne_eq, String.ofList_eq_empty_iff]
            exact typeLabel_ne_nil said.2
          · rw [ofList_eq_id_iff, ← saysPrimaryKey_iff] at key
            simp [key]

/-- A description is not empty, and blanks around it are left out. -/
theorem ClauseSpan.shown_of_description? {span : ClauseSpan} {body : List Char} {name text : String}
    (said : text ∈ span.description? body name) : text ≠ "" ∧ Trimmed text.toList := by
  unfold description? at said
  split at said
  · rename_i owned
    have joined := trimmed_joinWords fun text (listed : text ∈ ownedTexts body span) =>
      shown_of_mem_ownedTexts listed
    cases said
    rw [String.toList_ofList]
    exact ⟨fun same => joined.2 owned (String.ofList_eq_empty_iff.mp same), joined.1⟩
  · split at said
    · cases said
      refine ⟨by decide, bare_cons (by decide) _, ?_⟩
      rintro _ ⟨⟩
      decide
    · cases said

theorem ClauseSpan.description?_ne_none {span : ClauseSpan} {body : List Char} {name : String}
    (key : name = "id" ∨ SaysPrimaryKey (span.slice (mask body))) :
    span.description? body name ≠ none := by
  unfold description?
  rw [if_pos key]
  split <;> simp

theorem ClauseSpan.field?_sound {body : List Char} (closed : Reads .start (segments body) ['\n'])
    {span : ClauseSpan} (member : span ∈ clauseSpans body) {field : Field}
    (read : span.field? body = some field) :
    field.Sound ∧ (SaysPrimaryKey (span.slice (mask body)) →
      field.required = true ∧ field.description ≠ none) := by
  rcases exists_core_of_mem_clauseSpans closed member with ⟨core, legible, trimmed, code, key⟩
  rcases Option.map_eq_some_iff.mp read with ⟨plain, classified, rfl⟩
  rw [code, classify, legible.ofClause_eq trimmed] at classified
  cases view : (ClauseView.mk (maskOf core) (textOf core) none).classify with
  | error refusal =>
      rw [view] at classified
      cases classified
  | ok other =>
      rw [view] at classified
      cases classified
      rcases ClauseView.of_classify view with ⟨name, typeLabel, required⟩
      rw [← key] at required
      refine ⟨⟨name, typeLabel, fun text => shown_of_description?, fun identity => ?_⟩,
        fun phrase => ?_⟩
      · exact ⟨required (.inl identity), description?_ne_none (.inl identity)⟩
      · exact ⟨required (.inr phrase), description?_ne_none (.inr phrase)⟩

end Sql

/-! ## Tables -/

theorem exists_statement_of_mem_tables {sql : String} {table : Table}
    (member : table ∈ (parse sql).document.tables) :
    ∃ statement ∈ statements sql.toList, table.name = statement.name ∧
      table.fields = fieldsOf statement.body.toList ∧ table.fields ≠ [] := by
  rw [tables_eq_statements] at member
  rcases List.mem_filterMap.mp member with ⟨statement, listed, given⟩
  unfold Statement.table? at given
  simp only at given
  split at given
  · cases given
  · rename_i nonempty
    cases given
    exact ⟨statement, listed, rfl, rfl, by simpa using nonempty⟩

theorem Field.sound_of_mem_tables {sql : String} {table : Table}
    (member : table ∈ (parse sql).document.tables) {field : Field}
    (listed : field ∈ table.fields) : field.Sound := by
  rcases exists_statement_of_mem_tables member with ⟨statement, inScript, _, fields, _⟩
  rw [fields] at listed
  rcases List.mem_filterMap.mp listed with ⟨span, spanned, read⟩
  exact (ClauseSpan.field?_sound (reads_body inScript) spanned read).1

/-! ## Showing documents -/

theorem getLast?_joinLines {lines : List (List Char)} (nonempty : lines ≠ []) :
    (joinLines (lines ++ [[]])).getLast? = some '\n' := by
  induction lines with
  | nil => exact absurd rfl nonempty
  | cons line lines induction =>
      cases lines with
      | nil => simp [joinLines, List.intercalate]
      | cons next lines =>
          have later := induction (List.cons_ne_nil _ _)
          have step : joinLines (line :: next :: lines ++ [[]]) =
              line ++ '\n' :: joinLines (next :: lines ++ [[]]) := by
            simp [joinLines, List.intercalate]
          rw [step, List.getLast?_append, List.getLast?_cons, later]
          rfl

theorem Table.exists_listingLines {table : Table} (nonempty : table.fields ≠ []) :
    ∃ lines, table.listingLines = .ok (lines ++ [[]]) ∧ lines ≠ [] := by
  unfold listingLines
  cases width : (table.fields.map (·.name.length)).max? with
  | none =>
      rw [List.max?_eq_none_iff, List.map_eq_nil_iff] at width
      exact absurd width nonempty
  | some width => exact ⟨_, rfl, by simp⟩

theorem exists_mapM_listingLines {tables : List Table}
    (nonempty : ∀ table ∈ tables, table.fields ≠ []) :
    ∃ lines, tables.mapM Table.listingLines = .ok lines ∧
      (tables ≠ [] → ∃ front, lines.flatten = front ++ [[]] ∧ front ≠ []) := by
  induction tables with
  | nil => exact ⟨[], rfl, fun more => absurd rfl more⟩
  | cons table tables induction =>
      rcases List.forall_mem_cons.mp nonempty with ⟨here, later⟩
      rcases table.exists_listingLines here with ⟨front, shown, visible⟩
      rcases induction later with ⟨lines, listed, ends⟩
      refine ⟨(front ++ [[]]) :: lines, ?_, fun _ => ?_⟩
      · rw [List.mapM_cons, shown, listed]
        rfl
      · cases tables with
        | nil =>
            cases listed
            exact ⟨front, by simp, visible⟩
        | cons next tables =>
            rcases ends (List.cons_ne_nil _ _) with ⟨more, flat, _⟩
            exact ⟨front ++ [[]] ++ more, by simp [flat], by simp⟩

theorem Document.exists_listing {document : Document}
    (nonempty : ∀ table ∈ document.tables, table.fields ≠ []) :
    ∃ text, document.listing = .ok text ∧ text.toList.getLast? = some '\n' := by
  unfold listing
  by_cases empty : document.tables = []
  · exact ⟨"No tables found.\n", if_pos (by simp [isEmpty, empty]), by decide⟩
  · rcases exists_mapM_listingLines nonempty with ⟨lines, listed, ends⟩
    rcases ends empty with ⟨front, flat, shown⟩
    refine ⟨String.ofList (joinLines lines.flatten), ?_, ?_⟩
    · rw [if_neg (by simpa [isEmpty] using empty), listed]
      rfl
    · rw [String.toList_ofList, flat]
      exact getLast?_joinLines shown

theorem Document.exists_render_of_exportAs {document : Document} {format text : String}
    {dialect : Option String} {translator : Translator} (other : format ≠ "tables")
    (exported : document.exportAs format dialect translator = .ok text) :
    ∃ shown, document.render format dialect translator = .ok shown ∧
      shown.toList.getLast? = some '\n' := by
  have rendered : document.render format dialect translator =
      .ok (if text.toList.getLast? = some '\n' then text else text ++ "\n") := by
    rw [render, if_neg other, exported]
    rfl
  refine ⟨_, rendered, ?_⟩
  split
  · assumption
  · rw [String.toList_append]
    exact List.getLast?_concat

/-- In every format for the terminal, and without a dialect, a document whose tables have columns is
shown, with a line feed at its end. -/
theorem Document.exists_render {document : Document}
    (nonempty : ∀ table ∈ document.tables, table.fields ≠ []) {format : String}
    {dialect : Option String}
    (shown : format ∈ ["tables", "json", "csv"] ∨
      format = "sql" ∧ (dialect = none ∨ dialect = some "")) (translator : Translator) :
    ∃ text, document.render format dialect translator = .ok text ∧
      text.toList.getLast? = some '\n' := by
  simp only [List.mem_cons, List.not_mem_nil, or_false] at shown
  rcases shown with (rfl | rfl | rfl) | ⟨rfl, rfl | rfl⟩
  · rw [render, if_pos rfl]
    exact document.exists_listing nonempty
  · exact exists_render_of_exportAs (by decide) rfl
  · exact exists_render_of_exportAs (by decide) rfl
  · exact exists_render_of_exportAs (by decide) rfl
  · exact exists_render_of_exportAs (by decide) rfl

/-- Every table of a parsed document holds columns, each with a name and a type, and a column that
is called "id" or says that it is the primary key is required and described. So the document can be
listed, and shown in every format, with a line feed at its end. -/
theorem parsed_documents_are_sound (sql : String) :
    (∀ table ∈ (parse sql).document.tables, table.fields ≠ [] ∧
      (∀ field ∈ table.fields, field.Sound) ∧
      ∃ statement ∈ statements sql.toList, table.name = statement.name ∧
        table.fields = fieldsOf statement.body.toList ∧
        ∀ span ∈ clauseSpans statement.body.toList, ∀ field,
          span.field? statement.body.toList = some field →
            SaysPrimaryKey (span.slice (mask statement.body.toList)) →
              field.required = true ∧ field.description ≠ none) ∧
    (∃ listing, (parse sql).document.listing = .ok listing) ∧
    ∀ format dialect, (format ∈ ["tables", "json", "csv"] ∨
        format = "sql" ∧ (dialect = none ∨ dialect = some "")) → ∀ translator,
      ∃ text, (parse sql).document.render format dialect translator = .ok text ∧
        text.toList.getLast? = some '\n' := by
  have nonempty (table : Table) (member : table ∈ (parse sql).document.tables) :
      table.fields ≠ [] := by
    rcases exists_statement_of_mem_tables member with ⟨_, _, _, _, nonempty⟩
    exact nonempty
  refine ⟨fun table member => ?_, ?_,
    fun format dialect shown => Document.exists_render nonempty shown⟩
  · rcases exists_statement_of_mem_tables member with ⟨statement, inScript, name, fields, shown⟩
    refine ⟨shown, fun field => Field.sound_of_mem_tables member, statement, inScript, name, fields,
      fun span spanned field read => ?_⟩
    exact (ClauseSpan.field?_sound (reads_body inScript) spanned read).2
  · rcases Document.exists_listing nonempty with ⟨listing, listed, _⟩
    exact ⟨listing, listed⟩

/-- A column without a name, one with parameters for a type, and a primary key with an empty type
name and an empty comment. -/
theorem tricky_document_is_sound :
    let sql := "create table t (\"\" x, a (3), b \"\"(3) primary /**/ key --\n);"
    (parse sql).document.tables = [⟨"t", [⟨"b", "\"\"", true, some "Primary key"⟩]⟩] ∧
      Field.Sound ⟨"b", "\"\"", true, some "Primary key"⟩ ∧
      ∃ text, (parse sql).document.render "tables" none Dialect.translator = .ok text ∧
        text.toList.getLast? = some '\n' := by
  intro sql
  have tables : (parse sql).document.tables =
      [⟨"t", [⟨"b", "\"\"", true, some "Primary key"⟩]⟩] := by decide +kernel
  have sound := parsed_documents_are_sound sql
  have here := (sound.1 ⟨"t", [⟨"b", "\"\"", true, some "Primary key"⟩]⟩ (by simp [tables])).2.1
  exact ⟨tables, here _ (List.mem_cons_self ..), sound.2.2 "tables" none (.inl (by simp)) _⟩

end TableSchema
