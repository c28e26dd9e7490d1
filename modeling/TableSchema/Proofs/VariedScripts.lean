import TableSchema.Proofs.VariedClauses

/-! # What variations of scripts say

Variations of a script have the same tables, whose fields agree, and leave the same out for the same
reasons, as long as the same comments belong to their clauses.
-/

namespace TableSchema

open Sql Text

variable {lines strings : Prop}

/-! ## Agreement -/

structure Table.Agrees (types : Prop) (table table' : Table) : Prop where
  name : table.name = table'.name
  fields : List.Forall₂ (Field.Agrees types) table.fields table'.fields

/-- Diagnostics that agree but perhaps for the text of the clause, and for the line if lines do not
matter. -/
structure Diagnostic.Agrees (lines : Prop) (diagnostic diagnostic' : Diagnostic) : Prop where
  kind : diagnostic.kind = diagnostic'.kind
  message : diagnostic.message = diagnostic'.message
  table : diagnostic.table = diagnostic'.table
  line : lines → diagnostic.line = diagnostic'.line

structure ParseResult.Agrees (lines types : Prop) (result result' : ParseResult) : Prop where
  tables : List.Forall₂ (Table.Agrees types) result.document.tables result'.document.tables
  diagnostics : List.Forall₂ (Diagnostic.Agrees lines) result.diagnostics result'.diagnostics

theorem Field.Agrees.eq {types : Prop} {field field' : Field} (agrees : field.Agrees types field')
    (holds : types) : field = field' := by
  cases field
  cases field'
  cases agrees.name
  cases agrees.required
  cases agrees.description
  cases agrees.typeLabel holds
  rfl

theorem eq_of_forall₂ {α : Type} {relation : α → α → Prop} {first second : List α}
    (equal : ∀ element element', relation element element' → element = element')
    (related : List.Forall₂ relation first second) : first = second := by
  have same := related.imp equal
  rwa [List.forall₂_eq_eq_eq] at same

theorem Table.Agrees.eq {types : Prop} {table table' : Table} (agrees : table.Agrees types table')
    (holds : types) : table = table' := by
  cases table
  cases table'
  cases agrees.name
  cases eq_of_forall₂ (fun _ _ same => Field.Agrees.eq same holds) agrees.fields
  rfl

theorem ParseResult.Agrees.document_eq {types : Prop} {result result' : ParseResult}
    (agrees : result.Agrees lines types result') (holds : types) :
    result.document = result'.document :=
  congrArg Document.mk (eq_of_forall₂ (fun _ _ same => Table.Agrees.eq same holds) agrees.tables)

/-! ## Statements -/

abbrev PartAgrees (lines types : Prop) : Field ⊕ Diagnostic → Field ⊕ Diagnostic → Prop :=
  Sum.LiftRel (Field.Agrees types) (Diagnostic.Agrees lines)

theorem readClause_varied {statement statement' : Statement}
    (varies : statement.Varies lines strings statement') {clause clause' : Clause}
    (same : clause.Varies lines strings statement.body.toList statement'.body.toList clause') :
    PartAgrees lines (¬ strings) (readClause statement clause) (readClause statement' clause') := by
  have read := same.read
  unfold readClause
  generalize classify clause.text = found at read ⊢
  generalize classify clause'.text = found' at read ⊢
  cases read with
  | column agrees => exact .inl agrees
  | refused refusal =>
      refine .inr ⟨?_, rfl, varies.name, fun matter => ?_⟩
      · cases refusal <;> rfl
      · exact congrArg₂ (· + ·) (varies.line matter) (same.line matter)

theorem rel_fields {types : Prop} {parts parts' : List (Field ⊕ Diagnostic)}
    (agree : List.Forall₂ (PartAgrees lines types) parts parts') :
    List.Forall₂ (Field.Agrees types) (parts.filterMap Sum.getLeft?)
      (parts'.filterMap Sum.getLeft?) := by
  refine List.rel_filterMap ?_ agree
  rintro _ _ (same | _)
  · exact .some same
  · exact .none

theorem rel_refused {types : Prop} {parts parts' : List (Field ⊕ Diagnostic)}
    (agree : List.Forall₂ (PartAgrees lines types) parts parts') :
    List.Forall₂ (Diagnostic.Agrees lines) (parts.filterMap Sum.getRight?)
      (parts'.filterMap Sum.getRight?) := by
  refine List.rel_filterMap ?_ agree
  rintro _ _ (_ | same)
  · exact .none
  · exact .some same

structure StatementsAgree (lines types : Prop) (read read' : Option Table × List Diagnostic) :
    Prop where
  table : Option.Rel (Table.Agrees types) read.1 read'.1
  diagnostics : List.Forall₂ (Diagnostic.Agrees lines) read.2 read'.2

theorem readStatement_varied {statement statement' : Statement}
    (closed : Reads .start (segments statement.body.toList) ['\n'])
    (closed' : Reads .start (segments statement'.body.toList) ['\n'])
    (varies : statement.Varies lines strings statement')
    (owned : ownedComments statement.body.toList = ownedComments statement'.body.toList) :
    StatementsAgree lines (¬ strings) (readStatement statement) (readStatement statement') := by
  have parts : List.Forall₂ (PartAgrees lines (¬ strings))
      ((clauses statement.body.toList).map (readClause statement))
      ((clauses statement'.body.toList).map (readClause statement')) := by
    rw [List.forall₂_map_left_iff, List.forall₂_map_right_iff]
    exact (clauses_varied closed closed' varies.body owned).imp fun _ _ => readClause_varied varies
  unfold readStatement
  generalize (clauses statement.body.toList).map (readClause statement) = read at parts ⊢
  generalize (clauses statement'.body.toList).map (readClause statement') = read' at parts ⊢
  have fields := rel_fields parts
  have refused := rel_refused parts
  have empty : (read.filterMap Sum.getLeft?).isEmpty = (read'.filterMap Sum.getLeft?).isEmpty := by
    rw [Bool.eq_iff_iff, List.isEmpty_iff_length_eq_zero, List.isEmpty_iff_length_eq_zero,
      fields.length_eq]
  simp only [empty]
  split
  · have same : (Diagnostic.emptyTable statement.name statement.line).Agrees lines
        (.emptyTable statement'.name statement'.line) := by
      rw [varies.name]
      exact ⟨rfl, rfl, rfl, varies.line⟩
    exact ⟨.none, List.rel_append refused (.cons same .nil)⟩
  · exact ⟨.some ⟨varies.name, fields⟩, refused⟩

/-! ## Scripts -/

variable {sql sql' : List Char}

theorem statementDiagnostics_varied (same : Varied lines strings (segments sql) (segments sql')) :
    List.Forall₂ (Diagnostic.Agrees lines) (statementDiagnostics sql)
      (statementDiagnostics sql') := by
  refine List.rel_filterMap ?_ (findings_varied same)
  rintro _ _ (_ | ⟨_, line⟩ | ⟨_, line⟩)
  · exact .none
  · exact .some ⟨rfl, rfl, rfl, line⟩
  · exact .some ⟨rfl, rfl, rfl, line⟩

/-- Variations of a script say the same, as far as the contents of strings do not matter to types. -/
theorem parseChars_varied (same : Varied lines strings (segments sql) (segments sql'))
    (owned : ∀ statement ∈ statements sql, ∀ statement' ∈ statements sql',
      statement.Varies lines strings statement' →
        ownedComments statement.body.toList = ownedComments statement'.body.toList) :
    (parseChars sql).Agrees lines (¬ strings) (parseChars sql') := by
  have both := (List.forall₂_and_left _ _).mpr ⟨fun _ member => member, statements_varied same⟩
  have flipped := (List.forall₂_and_left _ _).mpr ⟨fun _ member => member, both.flip⟩
  have read : List.Forall₂ (StatementsAgree lines (¬ strings)) ((statements sql).map readStatement)
      ((statements sql').map readStatement) := by
    rw [List.forall₂_map_left_iff, List.forall₂_map_right_iff]
    exact flipped.flip.imp fun statement statement' related =>
      readStatement_varied (reads_body related.2.1) (reads_body related.1) related.2.2
        (owned statement related.2.1 statement' related.1 related.2.2)
  exact ⟨List.rel_filterMap (fun _ _ agrees => agrees.table) read,
    List.rel_append (statementDiagnostics_varied same)
      (List.rel_flatMap read fun _ _ agrees => agrees.diagnostics)⟩

theorem parseChars_varied_of_lines (same : Varied True strings (segments sql) (segments sql')) :
    (parseChars sql).Agrees True (¬ strings) (parseChars sql') :=
  parseChars_varied same fun _ _ _ _ varies => ownedComments_varied varies.body

end TableSchema
