import TableSchema.Proofs.Respacing
import TableSchema.Proofs.SelfContained

/-! # Segments in front of other blanks

Blanks end whatever is read in front of them. So a segment is cut off in the same way where what
follows it has other blanks, unless it is a line comment.
-/

namespace TableSchema.Sql

open Text

variable {lines : Prop}

theorem isInert_of_isBlank {character : Char} (blank : isBlank character = true) :
    isInert character = true := by
  have unmarked : character ∉ ['-', '*', '$', '\'', '"'] := not_mem_of_holds blank (by decide)
  rw [isInert, isWord_eq_false_of_isBlank blank, List.contains_eq_mem, decide_eq_false unmarked]
  rfl

/-- Texts with other blanks are the same up to the first ones. -/
theorem exists_shared {first second : List Char} (same : Respaced lines first second) :
    first = second ∨ ∃ shared rest other, first = shared ++ rest ∧ second = shared ++ other ∧
      rest ≠ [] ∧ Quiet other := by
  induction same with
  | nil => exact .inl rfl
  | cons character _ induction =>
      rcases induction with rfl | ⟨shared, rest, other, rfl, rfl, nonempty, quiet⟩
      · exact .inl rfl
      · exact .inr ⟨character :: shared, rest, other, rfl, rfl, nonempty, quiet⟩
  | @part part part' rest rest' exchanged _ _ =>
      refine .inr ⟨[], part ++ rest, part' ++ rest', rfl, rfl,
        List.append_ne_nil_of_left_ne_nil exchanged.nonempty_left rest, ?_⟩
      rcases List.exists_cons_of_ne_nil exchanged.nonempty_right with ⟨blank, more, rfl⟩
      exact quiet_cons (isInert_of_isBlank (exchanged.blank_right blank (List.mem_cons_self ..))) _

theorem Segment.StandsAt.respaced {segment : Segment} {behind : Behind} {after after' : List Char}
    (stands : segment.StandsAt behind after) (other : segment.isLineComment = false)
    (same : Respaced lines after after') : segment.StandsAt behind after' := by
  rcases exists_shared same with rfl | ⟨shared, rest, other, rfl, rfl, nonempty, quiet⟩
  · exact stands
  · refine stands.followedBy quiet
      (fun _ _ _ => List.append_ne_nil_of_right_ne_nil shared nonempty) fun _ => ?_
    cases segment with
    | code => trivial
    | region kind text =>
        refine quiet.mayEndBefore ?_
        rintro rfl
        cases other

theorem reads_blanks (behind : Behind) {blanks : List Char} (blank : AllBlank blanks)
    (after : List Char) : Reads behind (blanks.map .code) after :=
  SelfContained.reads_codes
    (fun character member => not_mem_openers_of_isBlank (blank character member)) behind after

theorem pushAll_blanks_fresh (behind : Behind) {blanks : List Char} (blank : AllBlank blanks)
    (nonempty : blanks ≠ []) : (behind.pushAll blanks).Fresh := by
  rcases List.eq_nil_or_concat blanks with rfl | ⟨front, last, rfl⟩
  · exact absurd rfl nonempty
  · rw [List.concat_eq_append] at blank ⊢
    exact behind.pushAll_fresh front (isWord_eq_false_of_isBlank (blank last (by simp)))

end TableSchema.Sql
