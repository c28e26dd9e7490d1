import TableSchema.Proofs.Weights

/-! # Columns that are kept

A body that is written for the columns read from it, and read from again, keeps its columns if none
of its marks is lost: each column stands on a line of its own, encloses what it holds and is read as
itself.
-/

namespace TableSchema.Sql

open Text

/-! ## Lines -/

theorem surplus_blanks {blanks : List Char} (blank : AllBlank blanks) : surplus blanks = 0 := by
  apply Balanced.surplus_eq
  apply Balanced.of_not_mem
  · intro member
    cases blank _ member
  · intro member
    cases blank _ member

namespace Legible

variable {core : List Segment}

theorem exists_last (legible : Legible core) {last : Char}
    (ends : (textOf core).getLast? = some last) (plain : last ∉ ['\'', '"', '$']) :
    ∃ front, core = front ++ [.code last] := by
  rcases List.eq_nil_or_concat core with rfl | ⟨front, segment, rfl⟩
  · cases ends
  · rw [List.concat_eq_append] at legible ends ⊢
    rw [textOf_append, textOf_cons, textOf_nil, List.append_nil] at ends
    cases segment with
    | code character =>
        rw [Segment.text_code, List.getLast?_concat] at ends
        cases ends
        exact ⟨front, rfl⟩
    | region kind text =>
        have member : Segment.region kind text ∈ front ++ [.region kind text] := by simp
        rcases legible.reads.delimited (by simp) member (legible.uncommented _ _ member) with
          ⟨delimiter, inside, delimits, rfl⟩
        rw [Segment.text_region, ← List.cons_append, ← List.append_assoc,
          List.getLast?_concat] at ends
        cases ends
        exact absurd delimits plain

theorem enclosed (legible : Legible core) {last : Char}
    (ends : (textOf core).getLast? = some last) (plain : last ∉ ['\'', '"', '$'])
    (balanced : Balanced (maskOf core)) (uncut : cutsFrom 0 0 (maskOf core) = []) :
    Enclosed (textOf core) := by
  constructor
  · intro region member
    rw [scan, legible.segments_textOf] at member
    rcases exists_segment_of_mem_regionsFrom member with ⟨text, listed, _⟩
    refine ⟨by simpa [RegionKind.isLiteral] using legible.uncommented _ _ listed, ?_⟩
    rcases legible.exists_last ends plain with ⟨front, rfl⟩
    rw [regionsFrom_append, regionsFrom, regionsFrom, List.append_nil] at member
    have bounds := bounds_of_mem_regionsFrom member
    rw [textOf_append, List.length_append]
    simp only [textOf_cons, Segment.text_code, textOf_nil, List.append_nil, List.length_singleton]
    omega
  · rw [mask, legible.segments_textOf]
    exact balanced
  · rw [cuts, mask, legible.segments_textOf]
    exact uncut

theorem enclosed_trim {run : List Segment} (legible : Legible run) {last : Char}
    (ends : (trim (textOf run)).getLast? = some last) (plain : last ∉ ['\'', '"', '$'])
    (balanced : Balanced (maskOf run)) (uncut : cutsFrom 0 0 (maskOf run) = []) :
    Enclosed (trim (textOf run)) := by
  rcases legible.exists_trimmed with ⟨before, core, after, rfl, blank, blank', code, legible, _⟩
  rw [code] at ends ⊢
  rw [maskOf_append, maskOf_append, maskOf_map_code, maskOf_map_code] at balanced uncut
  rcases balanced.of_append (surplus_blanks blank) with ⟨_, balanced⟩
  rcases (cutsFrom_append_eq_nil (surplus_blanks blank) _).mp uncut with ⟨_, uncut⟩
  have level : surplus (maskOf core) = 0 := by
    have sum := balanced.surplus_eq
    rwa [surplus_append, surplus_blanks blank', Int.add_zero] at sum
  exact legible.enclosed ends plain (balanced.of_append level).1
    ((cutsFrom_append_eq_nil level _).mp uncut).1

end Legible

structure Carries (run : List Segment) (column : List Char) : Prop where
  read : columnOf? (trim (strippedOf run)) = some column
  count : markCount column = markCount (textOf run)

theorem forall₂_lines {runs : List (List Segment)} {columns : List (List Char)}
    (carry : List.Forall₂ Carries runs columns)
    (written : joinCommas (runs.map textOf) = '\n' :: joinColumns (columns.map indented)) :
    List.Forall₂ (fun run column => Carries run column ∧ ∃ after,
      textOf run = '\n' :: (indented column ++ after) ∧ AllBlank after) runs columns := by
  induction carry with
  | nil => exact .nil
  | @cons run column runs columns here later induction =>
      cases later with
      | nil =>
          refine .cons ⟨here, ['\n'], written, ?_⟩ .nil
          intro character member
          rw [List.mem_singleton.mp member]
          decide
      | cons next others =>
          change textOf run ++ ',' :: joinCommas _ =
            ('\n' :: indented column) ++ ',' :: '\n' :: joinColumns _ at written
          have count : markCount (textOf run) = markCount ('\n' :: indented column) := by
            rw [markCount_other (by decide), markCount_indented, here.count]
          rcases eq_of_markCount (by decide) (by decide) written count with ⟨line, rest⟩
          refine .cons ⟨here, [], ?_, allBlank_nil⟩ (induction rest)
          rw [line, List.append_nil]

theorem Carries.legible {run : List Segment} {column : List Char} (carries : Carries run column)
    (reads : Reads .start run ['\n']) : Legible run := by
  refine ⟨reads, reads.markCount_strippedOf.2 ?_⟩
  rw [← carries.count]
  exact markCount_columnOf?_le reads carries.read

end TableSchema.Sql

namespace TableSchema

open Sql Text

namespace ReadsColumns

variable {body : List Char} {columns : List (List Char)} {runs : List (List Segment)}

theorem bound (reads : ReadsColumns body columns runs) : ∀ run ∈ runs,
    ∀ column ∈ columnOf? (trim (strippedOf run)), markCount column ≤ markCount (textOf run) := by
  intro run member column read
  have reads := reads.reads run member
  exact Nat.le_trans (markCount_columnOf?_le reads read) reads.markCount_strippedOf.1

theorem weight_runs (reads : ReadsColumns body columns runs) :
    weight (runs.map textOf) = markCount body + 1 := by
  rcases reads.divides.textOf_eq with ⟨nonempty, whole⟩
  rw [textOf, text_segments] at whole
  rw [whole, markCount_joinCommas (by simpa using nonempty)]

theorem weight_le (reads : ReadsColumns body columns runs) :
    weight columns ≤ markCount body + 1 := by
  rw [← reads.weight_runs, reads.columns]
  exact weight_filterMap_le reads.bound

/-- Where no mark is lost, every run gives a column. -/
theorem forall₂ (reads : ReadsColumns body columns runs)
    (heavy : markCount body + 1 ≤ weight columns) :
    List.Forall₂ Carries runs columns := by
  rw [← reads.weight_runs, reads.columns] at heavy
  rw [reads.columns]
  apply (forall₂_of_weight reads.bound heavy).imp
  rintro run column ⟨read, count⟩
  exact ⟨read, count⟩

end ReadsColumns

theorem ReadsColumns.kept {block : Block} {runs : List (List Segment)}
    (reads : ReadsColumns block.body block.columns runs) (balanced : Balanced (mask block.body))
    (nonempty : block.columns ≠ [])
    (ends : ∀ column ∈ block.columns, Trimmed column ∧ column.getLast? = some 'L') :
    ∀ column ∈ block.columns, Enclosed column ∧ columnOf? column = some column := by
  have heavy : markCount block.body + 1 ≤ weight block.columns :=
    Nat.le_of_eq (markCount_body nonempty)
  have written : joinCommas (runs.map textOf) = block.body := by
    rw [← reads.divides.textOf_eq.2]
    exact text_segments _
  intro column member
  rcases exists_of_forall₂ (forall₂_lines (reads.forall₂ heavy) written) member with
    ⟨run, listed, carries, after, line, blank⟩
  rcases ends column member with ⟨trimmed, last⟩
  have legible := carries.legible (reads.reads run listed)
  have held : trim (textOf run) = column := by rw [line, trim_line trimmed blank]
  have read := carries.read
  rw [legible.strippedOf_eq, held] at read
  rw [mask] at balanced
  have enclosed := legible.enclosed_trim (by rw [held, last]) (by decide)
    (reads.divides.balanced balanced run listed) (reads.divides.uncut run listed)
  rw [held] at enclosed
  exact ⟨enclosed, read⟩

end TableSchema
