import TableSchema.Proofs.CommentFree
import TableSchema.Proofs.Labels
import TableSchema.Proofs.Rereading

/-! # The marks of what is read

A column holds no more marks than the piece of the body that it was read from, and so does the body
that is written for all columns of a statement.
-/

namespace TableSchema.Sql

open Text

/-! ## Columns -/

theorem trim_sublist (text : List Char) : (trim text).Sublist text := by
  have right (text : List Char) : (trimRight text).Sublist text := by
    rw [trimRight, ← List.reverse_sublist, List.reverse_reverse]
    exact List.dropWhile_sublist isBlank
  exact (right _).trans (trimLeft_sublist text)

theorem ClauseView.exists_of_classify {view : ClauseView} {field : Field}
    (read : view.classify = .ok field) :
    ∃ written blanks rest rawType, view.plain = written ++ (blanks ++ rest) ∧
      rawType.Sublist rest ∧ field.name = String.ofList (unquote written) ∧
      field.typeLabel = String.ofList (typeLabel rawType) := by
  unfold classify at read
  split at read
  · cases read
  · split at read
    · cases read
    · split at read
      · cases read
      · rename_i written rest found
        simp only at read
        split at read
        · cases read
        · cases read
          rcases columnName?_eq_some.mp found with ⟨_, blanks, whole, _⟩
          exact ⟨written, blanks, rest, _, whole, (trim_sublist _).trans (List.take_sublist ..),
            rfl, rfl⟩

theorem markCount_nullWords (required : Bool) : markCount (nullWords required) = 0 := by
  cases required <;> decide

theorem markCount_columnText (name label : List Char) (required : Bool) :
    markCount (columnText name label required) = markCount name + markCount label := by
  rw [columnText, markCount_append, markCount_other (by decide), markCount_append,
    markCount_nullWords, markCount_quote, Nat.add_zero]

theorem ClauseView.markCount_column_le {view : ClauseView} {field : Field}
    (read : view.classify = .ok field) : markCount field.column ≤ markCount view.plain := by
  rcases exists_of_classify read with ⟨written, blanks, rest, rawType, plain, part, name, label⟩
  have named := markCount_unquote_le written
  have labelled := markCount_typeLabel_le rawType
  have behind := markCount_le_of_sublist part
  rw [Field.column, markCount_columnText, name, label, String.toList_ofList, String.toList_ofList,
    plain, markCount_append, markCount_append]
  omega

def columnOf? (clause : List Char) : Option (List Char) :=
  (classify clause).toOption.map Field.column

theorem columnOf?_eq_outline (clause : List Char) :
    columnOf? clause = (outline clause).toOption.map Field.column := by
  rw [columnOf?, outline]
  cases classify clause <;> rfl

theorem Legible.markCount_columnOf?_le {core : List Segment} (legible : Legible core)
    (trimmed : Trimmed (textOf core)) {column : List Char}
    (read : columnOf? (textOf core) = some column) : markCount column ≤ markCount (textOf core) := by
  rcases Option.map_eq_some_iff.mp read with ⟨field, classified, rfl⟩
  rw [classify, legible.ofClause_eq trimmed] at classified
  cases view : (ClauseView.mk (maskOf core) (textOf core) none).classify with
  | error refusal =>
      rw [view] at classified
      cases classified
  | ok other =>
      rw [view] at classified
      cases classified
      exact ClauseView.markCount_column_le view

/-! ## Pieces -/

theorem markCount_hidden (text : List Char) : markCount (text.map hide) = 0 := by
  apply markCount_eq_zero
  intro character member
  rcases List.mem_map.mp member with ⟨original, _, rfl⟩
  unfold hide
  split <;> decide

theorem marked_of_comment {behind : Behind} {whole text after : List Char} {kind : RegionKind}
    (found : regionAt? behind whole = some (kind, text, after)) (comment : kind.isComment = true) :
    0 < markCount text := by
  cases startsRegion_of_regionAt? found with
  | lineComment rest region =>
      cases region
      rw [markCount_mark (by decide)]
      omega
  | blockComment rest region =>
      rcases opening_of_closedRegion region with ⟨_, inside, rfl⟩
      rw [List.cons_append, markCount_mark (by decide)]
      omega
  | string _ region | quotedIdentifier _ region | dollarString _ _ region =>
      rcases opening_of_closedRegion region with ⟨rfl, _⟩
      cases comment

theorem Reads.markCount_strippedOf {behind : Behind} {segments : List Segment} {after : List Char}
    (reads : Reads behind segments after) :
    markCount (strippedOf segments) ≤ markCount (textOf segments) ∧
      (markCount (textOf segments) ≤ markCount (strippedOf segments) →
        ∀ kind text, .region kind text ∈ segments → kind.isComment = false) := by
  induction segments generalizing behind with
  | nil => exact ⟨Nat.le_refl _, fun _ _ _ member => by cases member⟩
  | cons segment segments induction =>
      rcases induction reads.2 with ⟨bound, uncommented⟩
      rw [strippedOf_cons, textOf_cons, markCount_append, markCount_append]
      cases segment with
      | code character =>
          refine ⟨Nat.add_le_add_left bound _, fun heavy kind text member => ?_⟩
          simp only [Segment.text_code, Segment.stripped_code] at heavy
          rcases List.mem_cons.mp member with same | member
          · cases same
          · exact uncommented (by omega) kind text member
      | region kind text =>
          cases comment : kind.isComment with
          | true =>
              have marked := marked_of_comment reads.1 comment
              rw [Segment.stripped_of_comment comment, markCount_hidden, Segment.text_region]
              exact ⟨by omega, fun heavy => by omega⟩
          | false =>
              rw [Segment.stripped_of_literal comment, Segment.text_region]
              refine ⟨Nat.add_le_add_left bound _, fun heavy kind' text' member => ?_⟩
              rcases List.mem_cons.mp member with same | member
              · cases same
                exact comment
              · exact uncommented (by omega) kind' text' member

theorem markCount_columnOf?_le {run : List Segment} (reads : Reads .start run ['\n'])
    {column : List Char} (read : columnOf? (trim (strippedOf run)) = some column) :
    markCount column ≤ markCount (strippedOf run) := by
  have legible : Legible (bareOf run) :=
    ⟨reads.bare (.inl (Behind.Agrees.refl _)), fun _ _ => uncommented_bareOf⟩
  rcases legible.exists_trimmed with ⟨_, core, _, _, _, _, code, legible, trimmed⟩
  rw [textOf_bareOf] at code
  have part := markCount_le_of_sublist (trim_sublist (strippedOf run))
  rw [code] at read part
  exact Nat.le_trans (legible.markCount_columnOf?_le trimmed read) part

/-! ## Sums -/

def weight : List (List Char) → Nat
  | [] => 0
  | text :: texts => markCount text + 1 + weight texts

@[simp] theorem weight_nil : weight [] = 0 := rfl

@[simp] theorem weight_cons (text : List Char) (texts : List (List Char)) :
    weight (text :: texts) = markCount text + 1 + weight texts := rfl

theorem weight_filterMap_le {α : Type} {made : α → Option (List Char)} {source : α → List Char}
    {elements : List α} (bound : ∀ element ∈ elements, ∀ text ∈ made element,
      markCount text ≤ markCount (source element)) :
    weight (elements.filterMap made) ≤ weight (elements.map source) := by
  induction elements with
  | nil => exact Nat.le_refl _
  | cons element elements induction =>
      have later := induction fun other member => bound other (List.mem_cons_of_mem _ member)
      have here := bound element (List.mem_cons_self ..)
      rw [List.map_cons, weight_cons, List.filterMap_cons]
      cases found : made element with
      | none =>
          simp only
          omega
      | some text =>
          have count := here text found
          simp only [weight_cons]
          omega

/-- Where the sums are the same, every element makes a text that is as heavy as its source. -/
theorem forall₂_of_weight {α : Type} {made : α → Option (List Char)} {source : α → List Char}
    {elements : List α} (bound : ∀ element ∈ elements, ∀ text ∈ made element,
      markCount text ≤ markCount (source element))
    (heavy : weight (elements.map source) ≤ weight (elements.filterMap made)) :
    List.Forall₂ (fun element text => made element = some text ∧
      markCount text = markCount (source element)) elements (elements.filterMap made) := by
  induction elements with
  | nil => exact .nil
  | cons element elements induction =>
      have bound' := fun other member => bound other (List.mem_cons_of_mem element member)
      have later := weight_filterMap_le bound'
      have here := bound element (List.mem_cons_self ..)
      rw [List.map_cons, weight_cons, List.filterMap_cons] at heavy
      rw [List.filterMap_cons]
      cases found : made element with
      | none =>
          simp only [found] at heavy
          omega
      | some text =>
          have count := here text found
          simp only [found, weight_cons] at heavy
          exact .cons ⟨found, by omega⟩ (induction bound' (by omega))

/-! ## Bodies -/

def joinCommas : List (List Char) → List Char
  | [] => []
  | [text] => text
  | text :: texts => text ++ ',' :: joinCommas texts

theorem markCount_joinCommas {texts : List (List Char)} (nonempty : texts ≠ []) :
    markCount (joinCommas texts) + 1 = weight texts := by
  fun_induction joinCommas texts with
  | case1 => exact absurd rfl nonempty
  | case2 text => rw [weight_cons, weight_nil]
  | case3 text texts more induction =>
      have later := induction more
      rw [markCount_append, markCount_mark (by decide), weight_cons]
      omega

theorem Divides.textOf_eq {segments : List Segment} {runs : List (List Segment)}
    (divides : Divides segments runs) :
    runs ≠ [] ∧ textOf segments = joinCommas (runs.map textOf) := by
  induction divides with
  | last => exact ⟨by simp, rfl⟩
  | @more run segments runs _ _ _ induction =>
      rcases List.exists_cons_of_ne_nil induction.1 with ⟨next, others, rfl⟩
      refine ⟨by simp, ?_⟩
      rw [textOf_append, textOf_cons, induction.2]
      rfl

theorem markCount_indented (column : List Char) :
    markCount (indented column) = markCount column := by
  rw [indented, markCount_other (by decide), markCount_other (by decide)]

theorem markCount_body {name : List Char} {columns : List (List Char)} (nonempty : columns ≠ []) :
    markCount (Block.mk name columns).body + 1 = weight columns := by
  change markCount ('\n' :: joinColumns (columns.map indented)) + 1 = _
  rw [markCount_other (by decide)]
  induction columns with
  | nil => exact absurd rfl nonempty
  | cons column columns induction =>
      cases columns with
      | nil =>
          change markCount (indented column ++ ['\n']) + 1 = _
          rw [markCount_append, markCount_indented, markCount_other (by decide)]
          rfl
      | cons next columns =>
          have later := induction (by simp)
          change markCount (indented column ++
            ',' :: '\n' :: joinColumns ((next :: columns).map indented)) + 1 = _
          rw [markCount_append, markCount_indented, markCount_mark (by decide),
            markCount_other (by decide), weight_cons]
          omega

end TableSchema.Sql

namespace TableSchema

open Sql Text

structure ReadsColumns (body : List Char) (columns : List (List Char))
    (runs : List (List Segment)) : Prop where
  divides : Divides (segments body) runs
  reads : ∀ run ∈ runs, Reads .start run ['\n']
  columns : columns = runs.filterMap fun run => columnOf? (trim (strippedOf run))

theorem columns_of_clauses (statement : Statement) (clauses : List Clause) :
    ((clauses.map (readClause statement)).filterMap Sum.getLeft?).map Field.column =
      clauses.filterMap fun clause => columnOf? clause.text := by
  rw [List.filterMap_map, List.map_filterMap]
  apply List.filterMap_congr
  intro clause _
  simp only [Function.comp_apply, readClause, columnOf?]
  cases classify clause.text <;> rfl

theorem columns_of_extends {clauses plain : List Clause}
    (extend : List.Forall₂ Clause.Extends clauses plain) :
    (clauses.filterMap fun clause => columnOf? clause.text) =
      plain.filterMap fun clause => columnOf? clause.text := by
  induction extend with
  | nil => rfl
  | cons here _ induction =>
      rw [List.filterMap_cons, List.filterMap_cons, columnOf?_eq_outline, here.outline,
        ← columnOf?_eq_outline, induction]

theorem columns_of_pieces (pieces : List (Nat × List Char)) :
    (((pieces.zipIdx).filterMap fun (piece, _) => clauseOf? piece []).filterMap
      fun clause => columnOf? clause.text) =
        pieces.filterMap fun piece => columnOf? (trim piece.2) := by
  have held (piece : Nat × List Char) :
      ((clauseOf? piece []).bind fun clause => columnOf? clause.text) =
        columnOf? (trim piece.2) := by
    unfold clauseOf?
    cases code : trim piece.2 with
    | nil => rfl
    | cons first rest => rfl
  rw [List.filterMap_filterMap]
  simp only [held]
  have whole := congrArg (List.filterMap fun piece => columnOf? (trim piece.2))
    (List.zipIdx_map_fst 0 pieces)
  rwa [List.filterMap_map] at whole

theorem exists_runs_of_readStatement {statement : Statement} {table : Table}
    (closed : Reads .start (segments statement.body.toList) ['\n'])
    (read : (readStatement statement).1 = some table) :
    table.name = statement.name ∧ table.fields ≠ [] ∧
      ∃ runs, ReadsColumns statement.body.toList table.block.columns runs := by
  have parts : table.name = statement.name ∧ table.fields ≠ [] ∧ table.fields =
      ((clauses statement.body.toList).map (readClause statement)).filterMap Sum.getLeft? := by
    unfold readStatement at read
    simp only at read
    split at read
    · cases read
    · rename_i nonempty
      cases read
      exact ⟨rfl, by simpa using nonempty, rfl⟩
  rcases exists_division closed Behind.start_fresh 0 with ⟨runs, divides, reads, pieces⟩
  refine ⟨parts.1, parts.2.1, runs, divides, reads, ?_⟩
  rw [Table.block, parts.2.2, columns_of_clauses, columns_of_extends (clauses_extend closed),
    clauses_stripComments, columns_of_pieces]
  change (piecesFrom 0 (strippedOf (segments statement.body.toList))
    (cutsFrom 0 0 (maskOf (segments statement.body.toList)))).filterMap _ = _
  have same := congrArg (List.filterMap fun piece => columnOf? (trim piece)) pieces
  rw [List.filterMap_map, List.filterMap_map] at same
  exact same

end TableSchema
