import TableSchema.Parsing
import TableSchema.Proofs.StrippedClauses

/-! # Comments and structure

Comments describe columns and otherwise say nothing: a script without its comments has the same
tables with the same columns, and leaves the same out.
-/

namespace TableSchema

open Sql Text

/-! ## Documents and diagnostics without what comments say -/

def Table.undescribed (table : Table) : Table :=
  { table with fields := table.fields.map Field.undescribed }

def Document.undescribed (document : Document) : Document :=
  ⟨document.tables.map Table.undescribed⟩

/-- The same diagnostic, but that a comment may stand behind the clause. -/
structure Diagnostic.Extends (diagnostic plain : Diagnostic) : Prop where
  kind : diagnostic.kind = plain.kind
  message : diagnostic.message = plain.message
  table : diagnostic.table = plain.table
  line : diagnostic.line = plain.line
  clause : diagnostic.clause? = plain.clause? ∨
    ∃ comment, diagnostic.clause? = plain.clause?.map (· ++ " -- " ++ comment)

theorem Diagnostic.Extends.refl (diagnostic : Diagnostic) : diagnostic.Extends diagnostic :=
  ⟨rfl, rfl, rfl, rfl, .inl rfl⟩

abbrev PartExtends : Field ⊕ Diagnostic → Field ⊕ Diagnostic → Prop :=
  Sum.LiftRel (fun field plain => field.undescribed = plain.undescribed) Diagnostic.Extends

/-! ## Clauses -/

theorem readClause_extends (statement : Statement) {clause plain : Clause}
    (extend : clause.Extends plain) :
    PartExtends (readClause statement clause) (readClause statement.withoutComments plain) := by
  have outlines := extend.outline
  unfold outline at outlines
  have line : newlines (statement.withoutComments.body.toList.take plain.offset) =
      newlines (statement.body.toList.take clause.offset) := by
    rw [Statement.withoutComments, String.toList_ofList, newlines_take_stripComments, extend.offset]
  unfold readClause
  cases read : classify clause.text with
  | ok field =>
      cases readPlain : classify plain.text with
      | ok field' =>
          rw [read, readPlain] at outlines
          exact .inl (Except.ok.inj outlines)
      | error refusal =>
          rw [read, readPlain] at outlines
          cases outlines
  | error refusal =>
      cases readPlain : classify plain.text with
      | ok field' =>
          rw [read, readPlain] at outlines
          cases outlines
      | error refusal' =>
          rw [read, readPlain] at outlines
          cases outlines
          simp only [line]
          refine .inr ⟨?_, rfl, rfl, rfl, ?_⟩
          · cases refusal <;> rfl
          · rcases extend.text with same | ⟨comment, same⟩
            · left
              rw [same]
              rfl
            · right
              refine ⟨String.ofList comment, ?_⟩
              rw [same, commented]
              change some (String.ofList _) = some (String.ofList _ ++ " -- " ++ String.ofList _)
              rw [String.ofList_append, String.ofList_append, String.ofList_toList]

/-! ## Statements -/

theorem fields_of_parts {parts plain : List (Field ⊕ Diagnostic)}
    (extend : List.Forall₂ PartExtends parts plain) :
    (parts.filterMap Sum.getLeft?).map Field.undescribed =
      (plain.filterMap Sum.getLeft?).map Field.undescribed := by
  induction extend with
  | nil => rfl
  | cons here _ induction =>
      cases here with
      | inl same => simpa [same] using induction
      | inr => exact induction

theorem refused_of_parts {parts plain : List (Field ⊕ Diagnostic)}
    (extend : List.Forall₂ PartExtends parts plain) :
    List.Forall₂ Diagnostic.Extends (parts.filterMap Sum.getRight?)
      (plain.filterMap Sum.getRight?) := by
  induction extend with
  | nil => exact .nil
  | cons here _ induction =>
      cases here with
      | inl => exact induction
      | inr related => exact .cons related induction

theorem readStatement_extends {statement : Statement}
    (closed : Reads .start (segments statement.body.toList) ['\n']) :
    (readStatement statement).1.map Table.undescribed =
        (readStatement statement.withoutComments).1.map Table.undescribed ∧
      List.Forall₂ Diagnostic.Extends (readStatement statement).2
        (readStatement statement.withoutComments).2 := by
  have parts : List.Forall₂ PartExtends ((clauses statement.body.toList).map (readClause statement))
      ((clauses statement.withoutComments.body.toList).map
        (readClause statement.withoutComments)) := by
    rw [List.forall₂_map_left_iff, List.forall₂_map_right_iff, Statement.withoutComments,
      String.toList_ofList]
    exact (clauses_extend closed).imp fun _ _ => readClause_extends statement
  have fields := fields_of_parts parts
  have refused := refused_of_parts parts
  have empty := congrArg List.isEmpty fields
  simp only [List.isEmpty_map] at empty
  have name : statement.withoutComments.name = statement.name := rfl
  have line : statement.withoutComments.line = statement.line := rfl
  unfold readStatement
  simp only [empty, name, line]
  split
  · exact ⟨rfl, List.rel_append refused (.cons (Diagnostic.Extends.refl _) .nil)⟩
  · simp only [Option.map_some, Table.undescribed, fields]
    exact ⟨trivial, refused⟩

theorem reads_body {sql : List Char} {statement : Statement} (member : statement ∈ statements sql) :
    Reads .start (segments statement.body.toList) ['\n'] := by
  rw [statements_eq] at member
  rcases List.mem_map.mp member with ⟨place, listed, rfl⟩
  rcases exists_segments_of_mem_statementPlaces listed with
    ⟨before, inside, after, cut, opening, closing⟩
  have reads {other : List Char} (quiet : Quiet other)
      (ends : RegionKind.lineComment.MayEndBefore other) : Reads .start inside other :=
    reads_inside (by decide) cut quiet ends
  have part := slice_view cut fun segment => (rfl : segment.text.length = _)
  rw [text_segments, ← closing, ← opening] at part
  change slice sql (place.opening + 1) place.closing = textOf inside at part
  rw [StatementPlace.statement, StatementPlace.body, String.toList_ofList, part,
    segments_textOf (reads quiet_nil (by simp [RegionKind.MayEndBefore]))]
  exact reads (quiet_cons (by decide) []) (by simp [RegionKind.MayEndBefore])

/-! ## Scripts -/

theorem statementDiagnostics_stripComments (sql : List Char) :
    statementDiagnostics (stripComments sql) = statementDiagnostics sql := by
  rw [statementDiagnostics, findings_stripComments, List.filterMap_map, statementDiagnostics]
  congr 1
  funext finding
  cases finding <;> rfl

theorem tables_extend {statements : List Statement}
    (closed : ∀ statement ∈ statements, Reads .start (segments statement.body.toList) ['\n']) :
    ((statements.map readStatement).filterMap (·.1)).map Table.undescribed =
      (((statements.map Statement.withoutComments).map readStatement).filterMap (·.1)).map
        Table.undescribed := by
  rw [List.map_filterMap, List.map_filterMap, List.map_map, List.filterMap_map, List.filterMap_map]
  apply List.filterMap_congr
  intro statement member
  simp only [Function.comp_apply]
  exact (readStatement_extends (closed statement member)).1

theorem diagnostics_extend {statements : List Statement}
    (closed : ∀ statement ∈ statements, Reads .start (segments statement.body.toList) ['\n']) :
    List.Forall₂ Diagnostic.Extends ((statements.map readStatement).flatMap (·.2))
      (((statements.map Statement.withoutComments).map readStatement).flatMap (·.2)) := by
  induction statements with
  | nil => exact .nil
  | cons statement statements induction =>
      have here := (readStatement_extends (closed statement (List.mem_cons_self ..))).2
      exact List.rel_append here
        (induction fun other member => closed other (List.mem_cons_of_mem _ member))

/-- A script without its comments says the same of all tables and columns, and leaves the same out
for the same reasons. -/
theorem parse_stripComments (sql : String) :
    (parse sql).document.undescribed =
        (parse (String.ofList (stripComments sql.toList))).document.undescribed ∧
      List.Forall₂ Diagnostic.Extends (parse sql).diagnostics
        (parse (String.ofList (stripComments sql.toList))).diagnostics := by
  have closed (statement : Statement) (member : statement ∈ statements sql.toList) :=
    reads_body member
  rw [parse, parse, String.toList_ofList, parseChars, parseChars, statements_stripComments,
    statementDiagnostics_stripComments]
  constructor
  · exact congrArg Document.mk (tables_extend closed)
  · exact List.rel_append (List.forall₂_same.mpr fun diagnostic _ => .refl diagnostic)
      (diagnostics_extend closed)

end TableSchema
