import Mathlib.Data.List.Forall2
import TableSchema.Proofs.Reading
import TableSchema.Proofs.StrippedScripts

/-! # Clauses without comments

A body without its comments has the same clauses at the same places, but for what comments say
behind them.
-/

namespace TableSchema.Sql

open Text

/-! ## What comments say -/

theorem mem_of_mem_trim {text : List Char} {character : Char} (member : character ∈ trim text) :
    character ∈ text := by
  rw [trim, trimRight, List.mem_reverse] at member
  have inside := List.mem_reverse.mp ((List.dropWhile_sublist isBlank).mem member)
  exact (List.dropWhile_sublist isBlank).mem inside

theorem exists_segment_of_mem_regionsFrom {start : Nat} {segments : List Segment} {region : Region}
    (member : region ∈ regionsFrom start segments) :
    ∃ text, .region region.kind text ∈ segments ∧
      slice (textOf segments) (region.start - start) (region.stop - start) = text := by
  rcases exists_split_of_mem_regionsFrom member with ⟨before, text, after, rfl, starts, stops⟩
  refine ⟨text, List.mem_append_right _ (List.mem_cons_self ..), ?_⟩
  rw [textOf_append, textOf_cons]
  exact slice_eq rfl (by omega) (by omega)

theorem exists_region_of_mem {segments : List Segment} {kind : RegionKind} {text : List Char}
    (member : .region kind text ∈ segments) (start : Nat) :
    ∃ region ∈ regionsFrom start segments, region.kind = kind ∧
      slice (textOf segments) (region.start - start) (region.stop - start) = text := by
  rcases List.append_of_mem member with ⟨before, after, rfl⟩
  rw [regionsFrom_append, regionsFrom, textOf_append, textOf_cons]
  refine ⟨_, List.mem_append_right _ (List.mem_cons_self ..), rfl, slice_eq rfl ?_ ?_⟩
  · simp only
    omega
  · simp only
    omega

theorem oneLine_of_regionAt? {behind : Behind} {whole text after : List Char}
    (found : regionAt? behind whole = some (.lineComment, text, after)) : '\n' ∉ text := by
  cases startsRegion_of_regionAt? found with
  | lineComment rest region =>
      cases region
      intro member
      simp only [List.mem_cons, Char.reduceEq, false_or] at member
      have inside := List.mem_takeWhile_imp member
      simp at inside
  | blockComment _ region | string _ region | quotedIdentifier _ region
  | dollarString _ _ region => cases (opening_of_closedRegion region).1

theorem oneLine_of_reads {behind : Behind} {segments : List Segment} {after text : List Char}
    (reads : Reads behind segments after) (member : .region .lineComment text ∈ segments) :
    '\n' ∉ text := by
  induction segments generalizing behind with
  | nil => cases member
  | cons segment segments induction =>
      rcases List.mem_cons.mp member with rfl | member
      · exact oneLine_of_regionAt? reads.1
      · exact induction reads.2 member

theorem oneLine_of_mem_trailingComments {body : List Char} {comment : TrailingComment}
    (member : comment ∈ trailingComments body) : '\n' ∉ comment.text := by
  rcases List.mem_filterMap.mp member with ⟨region, listed, given⟩
  split at given
  · rename_i lineComment
    rcases Option.bind_eq_some_iff.mp given with ⟨codePlace, _, given⟩
    simp only at given
    split at given
    · cases given
    · cases given
      intro inText
      rcases exists_segment_of_mem_regionsFrom listed with ⟨text, inSegments, shown⟩
      rw [textOf, text_segments, Nat.sub_zero, Nat.sub_zero] at shown
      rw [lineComment] at inSegments
      apply oneLine_of_reads (reads_segments body) inSegments
      rw [← shown]
      exact List.mem_of_mem_drop (mem_of_mem_trim inText)
  · cases given

theorem oneLine_of_owned (body : List Char) (index : Nat) :
    '\n' ∉ joinWords (((ownedComments body).filter (·.1 = index)).map (·.2)) := by
  intro member
  rcases mem_of_mem_joinWords member with blank | ⟨word, listed, member⟩
  · cases blank
  · rcases List.mem_map.mp listed with ⟨owned, filtered, rfl⟩
    rcases List.mem_map.mp (List.mem_filter.mp filtered).1 with ⟨comment, trailing, rfl⟩
    exact oneLine_of_mem_trailingComments trailing member

/-! ## Clauses -/

theorem uncommented_of_mem_scan (body : List Char) {region : Region}
    (member : region ∈ scan (stripComments body)) : region.kind.isComment = false := by
  rcases exists_segment_of_mem_regionsFrom member with ⟨text, listed, _⟩
  rw [segments_stripComments] at listed
  exact uncommented_bareOf listed

theorem ownedComments_stripComments (body : List Char) :
    ownedComments (stripComments body) = [] := by
  have none : trailingComments (stripComments body) = [] := by
    rw [trailingComments, List.filterMap_eq_nil_iff]
    intro region member
    have literal := uncommented_of_mem_scan body member
    rw [if_neg]
    intro lineComment
    rw [lineComment] at literal
    cases literal
  rw [ownedComments, none]
  rfl

theorem clauses_stripComments (body : List Char) :
    clauses (stripComments body) =
      ((piecesFrom 0 (stripComments body) (cuts body)).zipIdx).filterMap
        fun (piece, _) => clauseOf? piece [] := by
  rw [clauses, ownedComments_stripComments, stripComments_stripComments, cuts, mask_stripComments]
  rfl

structure Clause.Extends (clause plain : Clause) : Prop where
  offset : clause.offset = plain.offset
  text : clause.text = plain.text ∨ ∃ comment, clause.text = commented plain.text comment
  outline : Sql.outline clause.text = Sql.outline plain.text

theorem clauseOf?_extends {run : List Segment} (reads : Reads .start run ['\n']) (start : Nat)
    {comments : List (List Char)} (oneLine : '\n' ∉ joinWords comments) :
    Option.Rel Clause.Extends (clauseOf? (start, strippedOf run) comments)
      (clauseOf? (start, strippedOf run) []) := by
  have legible : Legible (bareOf run) :=
    ⟨reads.bare (.inl (Behind.Agrees.refl _)), fun _ _ => uncommented_bareOf⟩
  rcases legible.exists_trimmed with ⟨_, core, _, _, _, _, code, legible, trimmed⟩
  rw [textOf_bareOf] at code
  unfold clauseOf?
  simp only [code]
  split
  · exact .none
  · rename_i nonempty
    have nonempty : core ≠ [] := by
      rintro rfl
      exact nonempty rfl
    refine .some ⟨rfl, ?_, ?_⟩
    · cases comments with
      | nil => exact .inl rfl
      | cons comment comments => exact .inr ⟨joinWords (comment :: comments), rfl⟩
    · cases comments with
      | nil => rfl
      | cons comment comments => exact legible.outline_commented trimmed nonempty oneLine

theorem forall₂_filterMap {α β γ : Type} {relation : β → γ → Prop} {left : α → Option β}
    {right : α → Option γ} {elements : List α}
    (related : ∀ element ∈ elements, Option.Rel relation (left element) (right element)) :
    List.Forall₂ relation (elements.filterMap left) (elements.filterMap right) := by
  have same : List.Forall₂ (fun first second => first = second ∧ first ∈ elements) elements elements :=
    List.forall₂_same.mpr fun _ member => ⟨rfl, member⟩
  refine List.rel_filterMap ?_ same
  rintro element _ ⟨rfl, member⟩
  exact related element member

/-- Where nothing is left open at the end of a body, its clauses are those of the body without
comments, with what the comments say behind them. -/
theorem clauses_extend {body : List Char} (closed : Reads .start (segments body) ['\n']) :
    List.Forall₂ Clause.Extends (clauses body) (clauses (stripComments body)) := by
  rw [clauses_stripComments]
  apply forall₂_filterMap
  rintro ⟨piece, index⟩ member
  rcases exists_division closed Behind.start_fresh 0 with ⟨runs, _, reads, pieces⟩
  have listed : piece.2 ∈ runs.map strippedOf := by
    rw [← pieces]
    exact List.mem_map_of_mem (List.fst_mem_of_mem_zipIdx member)
  rcases List.mem_map.mp listed with ⟨run, inRuns, shown⟩
  have same : piece = (piece.1, strippedOf run) := by rw [shown]
  rw [same]
  exact clauseOf?_extends (reads run inRuns) _ (oneLine_of_owned body index)

end TableSchema.Sql
