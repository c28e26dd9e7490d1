import TableSchema.Proofs.Descriptions
import TableSchema.Proofs.ReportedPlaces
import TableSchema.Report

/-! # Lines of check reports

A check report is meant to have a line for each diagnostic and one for the summary. Names and
clauses are written into it as they stand in the script, so it has as many further lines as these
hold line feeds, and it keeps to its form exactly if they hold none.
-/

namespace TableSchema

open Sql Text

/-! ## Lines -/

namespace Text

def linesOf (text : List Char) : List (List Char) := text.splitOn '\n'

theorem linesOf_of_not_mem {text : List Char} (oneLine : '\n' ∉ text) : linesOf text = [text] :=
  List.splitOn_eq_singleton oneLine

theorem length_linesOf (text : List Char) : (linesOf text).length = newlines text + 1 := by
  induction text with
  | nil => rfl
  | cons character text induction =>
      rw [linesOf, List.splitOn_cons_eq_if_modifyHead]
      by_cases feed : character = '\n'
      · subst feed
        rw [if_pos (by decide), List.length_cons, ← linesOf, induction, newlines, newlines,
          List.count_cons_self]
      · rw [if_neg (by simpa using feed), List.length_modifyHead, ← linesOf, induction, newlines,
          newlines, List.count_cons_of_ne feed]

end Text

theorem linesOf_joinLines {parts : List (List Char)} (nonempty : parts ≠ []) :
    linesOf (joinLines parts) = parts.flatMap linesOf := by
  induction parts with
  | nil => exact absurd rfl nonempty
  | cons part parts induction =>
      cases parts with
      | nil => simp [joinLines]
      | cons next parts =>
          have later := induction (by simp)
          rw [joinLines, List.intercalate_cons_cons, List.append_assoc, List.singleton_append,
            linesOf, List.splitOn_append_cons_self]
          rw [joinLines, linesOf] at later
          rw [later]
          rfl

/-- Parts that are written on lines of their own have as many lines more than there are parts as
they have line feeds. -/
theorem length_flatMap_linesOf (parts : List (List Char)) :
    (parts.flatMap linesOf).length = parts.length + newlines parts.flatten := by
  induction parts with
  | nil => rfl
  | cons part parts induction =>
      rw [List.flatMap_cons, List.length_append, induction, length_linesOf, List.length_cons,
        List.flatten_cons, newlines, newlines, newlines, List.count_append]
      omega

theorem newlines_flatten_eq_zero_iff {parts : List (List Char)} :
    newlines parts.flatten = 0 ↔ ∀ part ∈ parts, '\n' ∉ part := by
  rw [newlines, List.count_eq_zero, List.mem_flatten]
  simp only [not_exists, not_and]

theorem flatMap_linesOf_eq_iff {parts : List (List Char)} :
    parts.flatMap linesOf = parts ↔ ∀ part ∈ parts, '\n' ∉ part := by
  constructor
  · intro same
    have length := congrArg List.length same
    rw [length_flatMap_linesOf] at length
    exact newlines_flatten_eq_zero_iff.mp (by omega)
  · intro oneLine
    calc parts.flatMap linesOf
        = parts.flatMap fun part => [part] :=
          List.flatMap_congr fun part member => linesOf_of_not_mem (oneLine part member)
      _ = parts := List.flatMap_singleton' parts

/-! ## Entries -/

theorem lineFeed_not_mem_toString (number : Nat) : '\n' ∉ (toString number).toList := by
  intro member
  rw [Nat.toString_eq_repr, Nat.toList_repr] at member
  exact absurd (Nat.isDigit_of_mem_toDigits (by decide) (by decide) member) (by decide)

namespace Diagnostic

def location (diagnostic : Diagnostic) : List Char := s!"line {diagnostic.line}".toList

/-- Neither the name of the table nor the clause goes over the end of a line. -/
def FitsOnLine (diagnostic : Diagnostic) : Prop :=
  '\n' ∉ diagnostic.table.toList ∧ ∀ clause ∈ diagnostic.clause?, '\n' ∉ clause.toList

theorem location_prefix (diagnostic : Diagnostic) :
    diagnostic.location <+: diagnostic.reportEntry := by
  have whole : diagnostic.location = "line ".toList ++ (toString diagnostic.line).toList :=
    String.toList_append
  simp only [whole, reportEntry, String.toList_append, List.append_assoc]
  exact (List.prefix_append_right_inj _).mpr (List.prefix_append ..)

theorem lineFeed_not_mem_message {diagnostic : Diagnostic}
    (named : '\n' ∉ diagnostic.table.toList) : '\n' ∉ diagnostic.message.toList := by
  have around {name before behind : String} (named : '\n' ∉ name.toList)
      (fixed : '\n' ∉ before.toList ∧ '\n' ∉ behind.toList) :
      '\n' ∉ (before ++ name ++ behind).toList := by
    simp only [String.toList_append, List.mem_append, not_or]
    exact ⟨⟨fixed.1, named⟩, fixed.2⟩
  cases diagnostic with
  | refusedClause refusal =>
      change '\n' ∉ refusal.message.toList
      cases refusal <;> decide
  | unbalancedParentheses | unterminatedStatement | emptyTable => exact around named (by decide)

theorem lineFeed_not_mem_kind (kind : DiagnosticKind) : '\n' ∉ kind.name.toList := by
  cases kind <;> decide

theorem lineFeed_not_mem_reportEntry_iff (diagnostic : Diagnostic) :
    '\n' ∉ diagnostic.reportEntry ↔ diagnostic.FitsOnLine := by
  have named : '\n' ∉ (if diagnostic.table.isEmpty then "" else s!" [{diagnostic.table}]").toList ↔
      '\n' ∉ diagnostic.table.toList := by
    by_cases empty : diagnostic.table = ""
    · simp [empty]
    · simp only [String.isEmpty_iff, empty, if_false, String.toList_append, List.mem_append, not_or]
      exact ⟨fun parts => parts.1.2, fun table => ⟨⟨by decide, table⟩, by decide⟩⟩
  have number := lineFeed_not_mem_toString diagnostic.line
  have kind := lineFeed_not_mem_kind diagnostic.kind
  have line : '\n' ∉ "line ".toList := by decide
  have dash : '\n' ∉ " - ".toList := by decide
  have blank : '\n' ∉ " ".toList := by decide
  simp only [reportEntry, FitsOnLine, String.toList_append, List.mem_append, not_or]
  refine and_congr ⟨?_, fun table => ?_⟩ ?_
  · rintro ⟨⟨⟨⟨⟨⟨_, _⟩, table⟩, _⟩, _⟩, _⟩, _⟩
    exact named.mp table
  · exact ⟨⟨⟨⟨⟨⟨line, number⟩, named.mpr table⟩, blank⟩, kind⟩, dash⟩,
      lineFeed_not_mem_message table⟩
  · have itself (text : String) : toString text = text := rfl
    cases diagnostic.clause? with
    | none => simp [itself]
    | some clause =>
        by_cases empty : clause = ""
        · simp [itself, empty]
        · simp only [itself, String.isEmpty_iff, empty, if_false, String.toList_append,
            List.mem_append, not_or, Option.mem_def, Option.some.injEq, forall_eq']
          exact ⟨fun parts => parts.2, fun clause => ⟨by decide, clause⟩⟩

end Diagnostic

/-! ## Lines of diagnostics -/

/-- A diagnostic is about a header, or about a statement that is complete: it refuses one of its
clauses, or it says that there is no column among them. -/
theorem exists_origin {sql : String} {diagnostic : Diagnostic}
    (member : diagnostic ∈ (parse sql).diagnostics) :
    diagnostic ∈ statementDiagnostics sql.toList ∨
      ∃ span ∈ statementSpans sql.toList, let statement := span.statement sql.toList
        (∃ clause ∈ clauses (span.body sql.toList), ∃ refusal,
          Refuses statement clause refusal diagnostic) ∨
        diagnostic = .emptyTable statement.name statement.line := by
  refine (List.mem_append.mp member).imp_right fun reported => ?_
  have tallies := tallies_readStatement (statements sql.toList)
  rcases tallies.exists_statement reported with ⟨statement, listed, about⟩
  rw [statements_eq_spans] at listed
  rcases List.mem_map.mp listed with ⟨span, spanned, rfl⟩
  rw [StatementPlace.statement, String.toList_ofList] at about
  exact ⟨span, spanned, about⟩

theorem line_pos {sql : String} {diagnostic : Diagnostic}
    (member : diagnostic ∈ (parse sql).diagnostics) : 1 ≤ diagnostic.line := by
  have pos (text : List Char) (place : Nat) : 1 ≤ lineAt text place := Nat.le_add_left ..
  rcases exists_origin member with reported | ⟨span, _, ⟨clause, _, _, refuses⟩ | rfl⟩
  · rcases pointsAtHeader_of_mem reported with ⟨position, _, _, _, points⟩
    exact points.line ▸ pos _ _
  · rw [refuses.line]
    exact Nat.le_add_right_of_le (pos _ _)
  · exact pos _ _

theorem exists_pointsAtClause {sql : String} {diagnostic : Diagnostic}
    (member : diagnostic ∈ (parse sql).diagnostics) (ofClause : diagnostic.OfClause) :
    ∃ statement ∈ statementSpans sql.toList, ∃ span ∈ clauseSpans (statement.body sql.toList),
      diagnostic.PointsAtClause sql.toList statement span := by
  rcases exists_origin member with
    reported | ⟨statement, listed, ⟨clause, inBody, _, refuses⟩ | rfl⟩
  · rcases ofHeader_of_mem_statementDiagnostics reported with kind | kind <;>
      simp [Diagnostic.OfClause, kind] at ofClause
  · exact ⟨statement, listed, pointsAtClause_of_refuses listed inBody refuses⟩
  · rcases ofClause with kind | kind <;> cases kind

/-- The clause that a diagnostic is about has a line feed exactly if its code has one: comments
behind it have none. -/
theorem Diagnostic.PointsAtClause.lineFeed_iff {diagnostic : Diagnostic} {sql : List Char}
    {statement : StatementSpan} {span : ClauseSpan}
    (points : diagnostic.PointsAtClause sql statement span)
    (listed : span ∈ clauseSpans (statement.body sql)) :
    (∀ clause ∈ diagnostic.clause?, '\n' ∉ clause.toList) ↔
      '\n' ∉ trim (statement.piece sql span) := by
  have comments := oneLine_of_ownedTexts listed
  have dashes : '\n' ∉ " -- ".toList := by decide
  rcases points.text with text | text
  · simp [text]
  · simp only [text, Option.mem_def, Option.some.injEq, forall_eq', String.toList_ofList,
      List.mem_append, comments, dashes, or_false]

/-! ## Reports -/

theorem lineFeed_not_mem_summary (result : ParseResult) : '\n' ∉ result.summary := by
  have words : '\n' ∉ " table(s), ".toList ∧ '\n' ∉ " field(s), ".toList ∧
      '\n' ∉ " diagnostic(s)".toList := by decide
  simp only [ParseResult.summary, String.toList_append, List.mem_append, not_or]
  exact ⟨⟨⟨⟨⟨lineFeed_not_mem_toString _, words.1⟩, lineFeed_not_mem_toString _⟩, words.2.1⟩,
    lineFeed_not_mem_toString _⟩, words.2.2⟩

def ParseResult.reportEntries (result : ParseResult) : List (List Char) :=
  result.diagnostics.map Diagnostic.reportEntry

theorem linesOf_report (result : ParseResult) :
    linesOf result.report.toList = result.reportEntries.flatMap linesOf ++ [result.summary] := by
  rw [ParseResult.reportEntries, ParseResult.report, String.toList_ofList,
    linesOf_joinLines (by simp), List.flatMap_append, List.flatMap_singleton,
    linesOf_of_not_mem (lineFeed_not_mem_summary result)]

/-- The lines of a check report are those of its entries, in order, and the summary. Each entry
starts with its location. There is one line for each diagnostic exactly if no name and no clause
among them has a line feed, and a clause has one exactly if its code has, from its first character
to its last. -/
theorem report_has_line_each_iff (sql : String) :
    linesOf (parse sql).report.toList =
        (parse sql).reportEntries.flatMap linesOf ++ [(parse sql).summary] ∧
    (∀ diagnostic ∈ (parse sql).diagnostics,
      1 ≤ diagnostic.line ∧ diagnostic.location <+: diagnostic.reportEntry) ∧
    (linesOf (parse sql).report.toList = (parse sql).reportEntries ++ [(parse sql).summary] ↔
      ∀ diagnostic ∈ (parse sql).diagnostics, diagnostic.FitsOnLine) ∧
    ((linesOf (parse sql).report.toList).length = (parse sql).diagnostics.length + 1 ↔
      ∀ diagnostic ∈ (parse sql).diagnostics, diagnostic.FitsOnLine) ∧
    (∀ diagnostic ∈ (parse sql).diagnostics, diagnostic.OfClause →
      ∃ statement ∈ statementSpans sql.toList,
        ∃ span ∈ clauseSpans (statement.body sql.toList),
          diagnostic.PointsAtClause sql.toList statement span ∧
            (diagnostic.FitsOnLine ↔ '\n' ∉ diagnostic.table.toList ∧
              '\n' ∉ trim (statement.piece sql.toList span))) := by
  have oneLine : (∀ entry ∈ (parse sql).reportEntries, '\n' ∉ entry) ↔
      ∀ diagnostic ∈ (parse sql).diagnostics, diagnostic.FitsOnLine := by
    simp only [ParseResult.reportEntries, List.forall_mem_map,
      Diagnostic.lineFeed_not_mem_reportEntry_iff]
  have lines := linesOf_report (parse sql)
  refine ⟨lines, fun diagnostic member => ⟨line_pos member, diagnostic.location_prefix⟩, ?_, ?_, ?_⟩
  · rw [lines, List.append_left_inj, flatMap_linesOf_eq_iff, oneLine]
  · have count : (parse sql).reportEntries.length = (parse sql).diagnostics.length :=
      List.length_map ..
    rw [lines, List.length_append, length_flatMap_linesOf, List.length_singleton, count, ← oneLine,
      ← newlines_flatten_eq_zero_iff]
    omega
  · intro diagnostic member ofClause
    rcases exists_pointsAtClause member ofClause with ⟨statement, listed, span, spanned, points⟩
    exact ⟨statement, listed, span, spanned, points, and_congr_right fun _ =>
      points.lineFeed_iff spanned⟩

/-- A constraint on two lines takes two lines of the report. -/
theorem constraint_takes_two_lines :
    let sql := "CREATE TABLE t (a int, CHECK (\n a > 0));"
    linesOf (parse sql).report.toList = [
        "line 1 [t] constraint - table-level constraint: CHECK (".toList, " a > 0)".toList,
        "1 table(s), 1 field(s), 1 diagnostic(s)".toList] ∧
      (linesOf (parse sql).report.toList).length ≠ (parse sql).diagnostics.length + 1 := by
  decide +kernel

end TableSchema
