import TableSchema.Parsing

/-! # Every clause is accounted for

A clause comes to a field or to a report, and a statement to a table or to a report, never to both
and never to neither. Fields, tables and reports keep the order of what they come from, so the
numbers add up.
-/

namespace TableSchema

open Sql Text

namespace Diagnostic

def OfClause (diagnostic : Diagnostic) : Prop :=
  diagnostic.kind = .constraint ∨ diagnostic.kind = .unrecognizedClause

def OfHeader (diagnostic : Diagnostic) : Prop :=
  diagnostic.kind = .unbalancedParentheses ∨ diagnostic.kind = .unterminatedStatement

instance (diagnostic : Diagnostic) : Decidable diagnostic.OfClause :=
  inferInstanceAs (Decidable (_ ∨ _))

end Diagnostic

/-! ## Clauses -/

structure Refuses (statement : Statement) (clause : Clause) (refusal : Refusal)
    (diagnostic : Diagnostic) : Prop where
  ofClause : diagnostic.OfClause
  message : diagnostic.message = refusal.message
  table : diagnostic.table = statement.name
  text : diagnostic.clause? = some (String.ofList clause.text)
  line : diagnostic.line = statement.line + newlines (statement.body.toList.take clause.offset)

/-- What the clauses of a statement come to, one after the other: each is a field or is refused. -/
inductive ReadsAs (statement : Statement) :
    List Clause → List Field → List Diagnostic → Prop
  | nil : ReadsAs statement [] [] []
  | field {clause : Clause} {field : Field} {clauses : List Clause} {fields : List Field}
      {refused : List Diagnostic} (read : classify clause.text = .ok field)
      (later : ReadsAs statement clauses fields refused) :
      ReadsAs statement (clause :: clauses) (field :: fields) refused
  | refused {clause : Clause} {refusal : Refusal} {diagnostic : Diagnostic}
      {clauses : List Clause} {fields : List Field} {refused : List Diagnostic}
      (read : classify clause.text = .error refusal)
      (refuses : Refuses statement clause refusal diagnostic)
      (later : ReadsAs statement clauses fields refused) :
      ReadsAs statement (clause :: clauses) fields (diagnostic :: refused)

namespace ReadsAs

variable {statement : Statement} {clauses : List Clause} {fields : List Field}
  {refused : List Diagnostic}

theorem length_add (reads : ReadsAs statement clauses fields refused) :
    fields.length + refused.length = clauses.length := by
  induction reads with
  | nil => rfl
  | field _ _ induction | refused _ _ _ induction =>
      simp only [List.length_cons]
      omega

theorem ofClause (reads : ReadsAs statement clauses fields refused) :
    ∀ diagnostic ∈ refused, diagnostic.OfClause := by
  induction reads with
  | nil => simp
  | field _ _ induction => exact induction
  | refused _ refuses _ induction => exact List.forall_mem_cons.mpr ⟨refuses.ofClause, induction⟩

theorem exists_clause (reads : ReadsAs statement clauses fields refused) {diagnostic : Diagnostic}
    (member : diagnostic ∈ refused) :
    ∃ clause ∈ clauses, ∃ refusal, Refuses statement clause refusal diagnostic := by
  induction reads with
  | nil => cases member
  | field _ _ induction =>
      rcases induction member with ⟨clause, listed, refuses⟩
      exact ⟨clause, List.mem_cons_of_mem _ listed, refuses⟩
  | refused _ refuses _ induction =>
      rcases List.mem_cons.mp member with rfl | member
      · exact ⟨_, List.mem_cons_self .., _, refuses⟩
      · rcases induction member with ⟨clause, listed, refuses⟩
        exact ⟨clause, List.mem_cons_of_mem _ listed, refuses⟩

end ReadsAs

theorem refuses_refusedClause (refusal : Refusal) (statement : Statement) (clause : Clause) :
    Refuses statement clause refusal
      (.refusedClause refusal statement.name (String.ofList clause.text)
        (statement.line + newlines (statement.body.toList.take clause.offset))) :=
  ⟨by cases refusal <;> simp [Diagnostic.OfClause, Diagnostic.kind], rfl, rfl, rfl, rfl⟩

/-- The clauses are read as they are put into a table. -/
theorem readsAs_readClause (statement : Statement) (clauses : List Clause) :
    ReadsAs statement clauses ((clauses.map (readClause statement)).filterMap Sum.getLeft?)
      ((clauses.map (readClause statement)).filterMap Sum.getRight?) := by
  induction clauses with
  | nil => exact .nil
  | cons clause clauses induction =>
      cases read : classify clause.text with
      | ok field =>
          have here : readClause statement clause = .inl field := by rw [readClause, read]
          simp only [List.map_cons, here, List.filterMap_cons, Sum.getLeft?_inl, Sum.getRight?_inl]
          exact .field read induction
      | error refusal =>
          have here : readClause statement clause = .inr (.refusedClause refusal statement.name
              (String.ofList clause.text)
              (statement.line + newlines (statement.body.toList.take clause.offset))) := by
            rw [readClause, read]
          simp only [List.map_cons, here, List.filterMap_cons, Sum.getLeft?_inr, Sum.getRight?_inr]
          exact .refused read (refuses_refusedClause refusal statement clause) induction

/-! ## Statements -/

/-- What the statements of a script come to, one after the other: each is a table of all its fields,
or is reported to have none, behind the reports about its clauses. -/
inductive Tallies : List Statement → List Table → List Diagnostic → Prop
  | nil : Tallies [] [] []
  | table {statement : Statement} {statements : List Statement} {fields : List Field}
      {tables : List Table} {refused reported : List Diagnostic}
      (read : ReadsAs statement (clauses statement.body.toList) fields refused)
      (nonempty : fields ≠ []) (later : Tallies statements tables reported) :
      Tallies (statement :: statements) (⟨statement.name, fields⟩ :: tables) (refused ++ reported)
  | empty {statement : Statement} {statements : List Statement} {tables : List Table}
      {refused reported : List Diagnostic}
      (read : ReadsAs statement (clauses statement.body.toList) [] refused)
      (later : Tallies statements tables reported) :
      Tallies (statement :: statements) tables
        (refused ++ .emptyTable statement.name statement.line :: reported)

def countKind (kind : DiagnosticKind) (reported : List Diagnostic) : Nat :=
  reported.countP (·.kind = kind)

theorem countKind_append (kind : DiagnosticKind) (first second : List Diagnostic) :
    countKind kind (first ++ second) = countKind kind first + countKind kind second :=
  List.countP_append

theorem countKind_cons (kind : DiagnosticKind) (diagnostic : Diagnostic)
    (reported : List Diagnostic) : countKind kind (diagnostic :: reported) =
      countKind kind reported + if diagnostic.kind = kind then 1 else 0 := by
  simp [countKind, List.countP_cons]

theorem countKind_eq_zero {kind : DiagnosticKind} {reported : List Diagnostic}
    (other : ∀ diagnostic ∈ reported, diagnostic.kind ≠ kind) : countKind kind reported = 0 := by
  rw [countKind, List.countP_eq_zero]
  simpa using other

theorem countKind_ofClause {refused : List Diagnostic}
    (ofClause : ∀ diagnostic ∈ refused, diagnostic.OfClause) :
    countKind .constraint refused + countKind .unrecognizedClause refused = refused.length ∧
      countKind .emptyTable refused = 0 := by
  induction refused with
  | nil => exact ⟨rfl, rfl⟩
  | cons diagnostic refused induction =>
      rcases List.forall_mem_cons.mp ofClause with ⟨here, later⟩
      rcases induction later with ⟨sum, none⟩
      simp only [countKind_cons, List.length_cons]
      rcases here with kind | kind
      · simp only [kind, reduceCtorEq, if_true, if_false]
        omega
      · simp only [kind, reduceCtorEq, if_true, if_false]
        omega

namespace Tallies

variable {statements : List Statement} {tables : List Table} {reported : List Diagnostic}

theorem clauses_add (tallies : Tallies statements tables reported) :
    (tables.flatMap Table.fields).length + countKind .constraint reported +
        countKind .unrecognizedClause reported =
      (statements.flatMap fun statement => clauses statement.body.toList).length := by
  induction tallies with
  | nil => rfl
  | table read _ _ induction =>
      have counts := (countKind_ofClause read.ofClause).1
      have here := read.length_add
      simp only [List.flatMap_cons, List.length_append, countKind_append]
      omega
  | empty read _ induction =>
      have counts := (countKind_ofClause read.ofClause).1
      have here := read.length_add
      simp only [List.flatMap_cons, List.length_append, countKind_append, countKind_cons,
        Diagnostic.kind, reduceCtorEq, if_false, List.length_nil] at here ⊢
      omega

theorem statements_add (tallies : Tallies statements tables reported) :
    tables.length + countKind .emptyTable reported = statements.length := by
  induction tallies with
  | nil => rfl
  | table read _ _ induction =>
      have none := (countKind_ofClause read.ofClause).2
      simp only [List.length_cons, countKind_append]
      omega
  | empty read _ induction =>
      have none := (countKind_ofClause read.ofClause).2
      simp only [List.length_cons, countKind_append, countKind_cons, Diagnostic.kind, if_true]
      omega

theorem exists_statement (tallies : Tallies statements tables reported) {diagnostic : Diagnostic}
    (member : diagnostic ∈ reported) : ∃ statement ∈ statements,
      (∃ clause ∈ clauses statement.body.toList, ∃ refusal,
        Refuses statement clause refusal diagnostic) ∨
      diagnostic = .emptyTable statement.name statement.line := by
  induction tallies with
  | nil => cases member
  | table read _ _ induction =>
      rcases List.mem_append.mp member with here | later
      · exact ⟨_, List.mem_cons_self .., .inl (read.exists_clause here)⟩
      · rcases induction later with ⟨statement, listed, about⟩
        exact ⟨statement, List.mem_cons_of_mem _ listed, about⟩
  | empty read _ induction =>
      rcases List.mem_append.mp member with here | later
      · exact ⟨_, List.mem_cons_self .., .inl (read.exists_clause here)⟩
      · rcases List.mem_cons.mp later with rfl | later
        · exact ⟨_, List.mem_cons_self .., .inr rfl⟩
        · rcases induction later with ⟨statement, listed, about⟩
          exact ⟨statement, List.mem_cons_of_mem _ listed, about⟩

theorem not_ofHeader (tallies : Tallies statements tables reported) :
    ∀ diagnostic ∈ reported, ¬ diagnostic.OfHeader := by
  have apart {diagnostic : Diagnostic} (ofClause : diagnostic.OfClause) :
      ¬ diagnostic.OfHeader := by
    rcases ofClause with kind | kind <;> simp [Diagnostic.OfHeader, kind]
  induction tallies with
  | nil => simp
  | table read _ _ induction =>
      exact List.forall_mem_append.mpr
        ⟨fun diagnostic member => apart (read.ofClause diagnostic member), induction⟩
  | empty read _ induction =>
      refine List.forall_mem_append.mpr
        ⟨fun diagnostic member => apart (read.ofClause diagnostic member),
          List.forall_mem_cons.mpr ⟨?_, induction⟩⟩
      simp [Diagnostic.OfHeader, Diagnostic.kind]

end Tallies

theorem tallies_readStatement (statements : List Statement) :
    Tallies statements ((statements.map readStatement).filterMap (·.1))
      ((statements.map readStatement).flatMap (·.2)) := by
  induction statements with
  | nil => exact .nil
  | cons statement statements induction =>
      have read := readsAs_readClause statement (clauses statement.body.toList)
      rw [List.map_cons, List.filterMap_cons, List.flatMap_cons, readStatement]
      -- Whether there is a table depends on the list of fields alone.
      generalize ((clauses statement.body.toList).map (readClause statement)).filterMap
        Sum.getLeft? = fields at read ⊢
      cases fields with
      | nil =>
          simp only [List.isEmpty_nil, if_true, List.append_assoc, List.singleton_append]
          exact .empty read induction
      | cons field fields => exact .table read (by simp) induction

/-! ## Scripts -/

theorem ofHeader_of_mem_statementDiagnostics {sql : List Char} {diagnostic : Diagnostic}
    (member : diagnostic ∈ statementDiagnostics sql) : diagnostic.OfHeader := by
  rcases List.mem_filterMap.mp member with ⟨finding, _, reported⟩
  cases finding with
  | statement statement => cases reported
  | unbalanced table line =>
      cases reported
      exact .inl rfl
  | unterminated table line =>
      cases reported
      exact .inr rfl

theorem ParseResult.length_ofKind (result : ParseResult) (kind : DiagnosticKind) :
    (result.ofKind kind).length = countKind kind result.diagnostics :=
  (List.countP_eq_length_filter ..).symm

/-- Everything in the statements of a script is in its tables or reported, and nothing twice. What
is reported about headers comes first. -/
theorem clauses_accounted_for (sql : String) :
    ∃ reported, (parse sql).diagnostics = statementDiagnostics sql.toList ++ reported ∧
      (∀ diagnostic ∈ statementDiagnostics sql.toList, diagnostic.OfHeader) ∧
      (∀ diagnostic ∈ reported, ¬ diagnostic.OfHeader) ∧
      Tallies (statements sql.toList) (parse sql).document.tables reported ∧
      (parse sql).document.fieldCount + ((parse sql).ofKind .constraint).length +
          ((parse sql).ofKind .unrecognizedClause).length =
        ((statements sql.toList).flatMap fun statement => clauses statement.body.toList).length ∧
      (parse sql).document.tables.length + ((parse sql).ofKind .emptyTable).length =
        (statements sql.toList).length := by
  have tallies := tallies_readStatement (statements sql.toList)
  have none {kind : DiagnosticKind} (other : kind ≠ .unbalancedParentheses)
      (other' : kind ≠ .unterminatedStatement) :
      countKind kind (statementDiagnostics sql.toList) = 0 := by
    apply countKind_eq_zero
    rintro diagnostic member rfl
    rcases ofHeader_of_mem_statementDiagnostics member with kind | kind
    · exact other kind
    · exact other' kind
  refine ⟨_, rfl, fun _ => ofHeader_of_mem_statementDiagnostics, tallies.not_ofHeader, tallies,
    ?_, ?_⟩
  · simp only [ParseResult.length_ofKind, parse, parseChars, countKind_append]
    rw [none (by decide) (by decide), none (by decide) (by decide), Nat.zero_add, Nat.zero_add]
    exact tallies.clauses_add
  · simp only [ParseResult.length_ofKind, parse, parseChars, countKind_append]
    rw [none (by decide) (by decide), Nat.zero_add]
    exact tallies.statements_add

end TableSchema
