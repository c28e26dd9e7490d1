import TableSchema.Proofs.ClauseSpans

/-! # Whose comments are whose

A line comment belongs to the clause of what stands before it on its line. A comment that is alone
on its line belongs to none.
-/

namespace TableSchema.Sql

open Text

/-! ## What stands last on a line -/

/-- At the place stands the last visible character before place `position`, and on its line. -/
def LastOnLine (masked : List Char) (position place : Nat) : Prop :=
  ∃ before character blanks after, masked = before ++ character :: (blanks ++ after) ∧
    place = before.length ∧ position = place + 1 + blanks.length ∧
    isBlank character = false ∧ AllBlank blanks ∧ '\n' ∉ blanks

theorem LastOnLine.lt {masked : List Char} {position place : Nat}
    (last : LastOnLine masked position place) : place < position ∧ position ≤ masked.length := by
  rcases last with ⟨before, character, blanks, after, rfl, rfl, rfl, _⟩
  simp only [List.length_append, List.length_cons]
  omega

theorem lastOnLine?_concat (text : List Char) (character : Char) :
    lastOnLine? (text ++ [character]) =
      if character = '\n' then none
      else if isBlank character then lastOnLine? text else some text.length := by
  unfold lastOnLine?
  rw [List.reverse_append, List.reverse_singleton, List.singleton_append, List.length_append,
    List.length_singleton]
  by_cases feed : character = '\n'
  · simp [feed]
  · rw [if_neg feed, List.takeWhile_cons_of_pos (by simpa using feed)]
    by_cases blank : isBlank character = true
    · rw [if_pos blank]
      simp only [List.takeWhile_cons_of_pos blank, List.length_cons, Nat.add_right_cancel_iff,
        Nat.add_sub_cancel]
      congr 2
      omega
    · rw [if_neg blank]
      simp only [List.takeWhile_cons_of_neg blank, List.length_cons, List.length_nil]
      rw [if_neg (by omega)]
      rfl

/-- At the place stands the last visible character of the line that is open at the end of a text. -/
def LastVisible (text : List Char) (place : Nat) : Prop :=
  ∃ before character blanks, text = before ++ character :: blanks ∧ place = before.length ∧
    isBlank character = false ∧ AllBlank blanks ∧ '\n' ∉ blanks

section

variable {text : List Char} {last : Char} {place : Nat}

theorem not_lastVisible_nil : ¬ LastVisible [] place := by
  rintro ⟨before, character, blanks, whole, _⟩
  cases before <;> cases whole

theorem lastVisible_concat_of_visible (visible : isBlank last = false) :
    LastVisible (text ++ [last]) place ↔ place = text.length := by
  constructor
  · rintro ⟨before, character, blanks, whole, rfl, _, blank, _⟩
    rcases List.eq_nil_or_concat blanks with rfl | ⟨blanks, other, rfl⟩
    · rcases List.append_inj' whole rfl with ⟨rfl, _⟩
      rfl
    · rw [List.concat_eq_append, ← List.cons_append, ← List.append_assoc] at whole
      rcases List.append_inj' whole rfl with ⟨_, ⟨⟩⟩
      rw [blank last (by simp)] at visible
      cases visible
  · rintro rfl
    exact ⟨text, last, [], rfl, rfl, visible, allBlank_nil, by simp⟩

theorem lastVisible_concat_of_blank (blank : isBlank last = true) :
    LastVisible (text ++ [last]) place ↔ last ≠ '\n' ∧ LastVisible text place := by
  constructor
  · rintro ⟨before, character, blanks, whole, rfl, visible, allBlank, oneLine⟩
    rcases List.eq_nil_or_concat blanks with rfl | ⟨blanks, other, rfl⟩
    · rcases List.append_inj' whole rfl with ⟨_, ⟨⟩⟩
      rw [visible] at blank
      cases blank
    · rw [List.concat_eq_append] at whole allBlank oneLine
      rw [← List.cons_append, ← List.append_assoc] at whole
      rcases List.append_inj' whole rfl with ⟨rfl, ⟨⟩⟩
      rw [List.mem_append, List.mem_singleton, not_or] at oneLine
      exact ⟨Ne.symm oneLine.2, before, character, blanks, rfl, rfl, visible,
        (List.forall_mem_append.mp allBlank).1, oneLine.1⟩
  · rintro ⟨feed, before, character, blanks, rfl, rfl, visible, allBlank, oneLine⟩
    refine ⟨before, character, blanks ++ [last], by simp, rfl, visible,
      List.forall_mem_append.mpr ⟨allBlank, by simpa using blank⟩, ?_⟩
    simpa [oneLine] using Ne.symm feed

theorem lastOnLine?_eq_some_iff : lastOnLine? text = some place ↔ LastVisible text place := by
  induction text using List.reverseRecOn with
  | nil => exact iff_of_false (fun found => by cases found) not_lastVisible_nil
  | append_singleton text last induction =>
      rw [lastOnLine?_concat]
      cases blank : isBlank last with
      | false =>
          have feed : last ≠ '\n' := by
            rintro rfl
            cases blank
          rw [if_neg feed, if_neg Bool.false_ne_true, lastVisible_concat_of_visible blank,
            Option.some_inj, eq_comm]
      | true =>
          rw [if_pos rfl, lastVisible_concat_of_blank blank, ← induction]
          by_cases feed : last = '\n' <;> simp [feed]

end

theorem lastOnLine_iff {masked : List Char} {position place : Nat} :
    LastOnLine masked position place ↔
      position ≤ masked.length ∧ lastOnLine? (masked.take position) = some place := by
  rw [lastOnLine?_eq_some_iff]
  constructor
  · intro last
    refine ⟨last.lt.2, ?_⟩
    rcases last with ⟨before, character, blanks, after, rfl, rfl, rfl, rest⟩
    refine ⟨before, character, blanks, ?_, rfl, rest⟩
    have split : before ++ character :: (blanks ++ after) =
        (before ++ character :: blanks) ++ after := by simp
    rw [split, List.take_append_of_le_length (by simp; omega), List.take_of_length_le]
    simp only [List.length_append, List.length_cons]
    omega
  · rintro ⟨inside, before, character, blanks, front, rfl, rest⟩
    refine ⟨before, character, blanks, masked.drop position, ?_, rfl, ?_, rest⟩
    · rw [← List.cons_append, ← List.append_assoc, ← front, List.take_append_drop]
    · have long := congrArg List.length front
      rw [List.length_take, Nat.min_eq_left inside, List.length_append, List.length_cons] at long
      omega

theorem LastOnLine.eq {masked : List Char} {position place place' : Nat}
    (last : LastOnLine masked position place) (last' : LastOnLine masked position place') :
    place = place' :=
  Option.some.inj ((lastOnLine_iff.mp last).2.symm.trans (lastOnLine_iff.mp last').2)

/-! ## Owners -/

/-- The line comment stands on a line behind a character of the clause, or behind the comma that
ends it, with nothing but blanks between. -/
def Owns (body : List Char) (span : ClauseSpan) (comment : Region) : Prop :=
  ∃ place, LastOnLine (mask body) comment.start place ∧ span.Holds place

theorem owns_iff {body : List Char} {span : ClauseSpan} {comment : Region} :
    Owns body span comment ↔ comment.start ≤ body.length ∧
      ∃ place ∈ lastOnLine? ((mask body).take comment.start), span.Holds place := by
  simp only [Owns, lastOnLine_iff, length_mask, and_assoc, exists_and_left, Option.mem_def]

instance (body : List Char) (span : ClauseSpan) (comment : Region) :
    Decidable (Owns body span comment) :=
  decidable_of_iff' _ owns_iff

def lineComments (body : List Char) : List Region :=
  (scan body).filter (·.kind = .lineComment)

/-- A line comment has an owner if something stands before it on its line, and only one. -/
theorem existsUnique_owner_iff {body : List Char} {comment : Region} :
    (∃! span, span ∈ clauseSpans body ∧ Owns body span comment) ↔
      ∃ place, LastOnLine (mask body) comment.start place := by
  constructor
  · rintro ⟨span, ⟨_, place, last, _⟩, _⟩
    exact ⟨place, last⟩
  · rintro ⟨place, last⟩
    have inside := last.lt
    rw [length_mask] at inside
    rcases existsUnique_holds (Nat.le_trans (Nat.le_of_lt inside.1) inside.2) with
      ⟨span, ⟨member, holds⟩, only⟩
    refine ⟨span, ⟨member, place, last, holds⟩, ?_⟩
    rintro other ⟨member', place', last', holds'⟩
    rw [last'.eq last] at holds'
    exact only other ⟨member', holds'⟩

/-- What the comments say that the clause owns, in order. Comments that say nothing are left out. -/
def ownedTexts (body : List Char) (span : ClauseSpan) : List (List Char) :=
  (((lineComments body).filter (Owns body span)).map fun comment =>
    commentText (slice body comment.start comment.stop)).filter (!·.isEmpty)

/-- The comments that are put behind a clause are those that it owns. -/
theorem owned_eq {body : List Char} {span : ClauseSpan} {index : Nat}
    (listed : (clauseSpans body)[index]? = some span) :
    ((ownedComments body).filter (·.1 = index)).map (·.2) = ownedTexts body span := by
  rw [ownedComments, ownedTexts, trailingComments, lineComments]
  have inside (region : Region) (member : region ∈ scan body) : region.start ≤ body.length :=
    Nat.le_trans (bounds_of_mem_scan member).1 (bounds_of_mem_scan member).2
  generalize scan body = regions at inside
  induction regions with
  | nil => rfl
  | cons region regions induction =>
      rcases List.forall_mem_cons.mp inside with ⟨here, later⟩
      have induction := induction later
      by_cases kind : region.kind = .lineComment
      · cases found : lastOnLine? ((mask body).take region.start) with
        | none =>
            have alone : ¬ Owns body span region := by
              rw [owns_iff, found]
              rintro ⟨_, _, ⟨⟩, _⟩
            simp only [List.filterMap_cons, kind, if_true, found, Option.bind_eq_bind,
              Option.bind_none, List.filter_cons, decide_true, alone, decide_false]
            exact induction
        | some place =>
            have owns : Owns body span region ↔ pieceIndex (cuts body) place = index := by
              have last := lastOnLine_iff.mpr ⟨(length_mask body).symm ▸ here, found⟩
              rw [← holds_iff_pieceIndex listed
                (Nat.le_trans (Nat.le_of_lt last.lt.1) here), owns_iff, found]
              simp [here]
            have same : commentText ((body.drop region.start).take (region.stop - region.start)) =
                commentText (slice body region.start region.stop) := rfl
            simp only [List.filterMap_cons, kind, if_true, found, Option.bind_eq_bind,
              Option.bind_some, List.filter_cons, decide_true, same, owns]
            by_cases empty : (commentText (slice body region.start region.stop)).isEmpty = true <;>
              by_cases here : pieceIndex (cuts body) place = index <;>
                simpa [here, empty] using induction
      · simp only [List.filterMap_cons, kind, if_false, List.filter_cons, decide_false]
        exact induction

/-- The clauses of a body are those of its spans, each with the comments that it owns. -/
theorem clauses_eq (body : List Char) : clauses body = (clauseSpans body).filterMap fun span =>
    clauseOf? (span.start, span.slice (stripComments body)) (ownedTexts body span) := by
  have listed : ∀ read : ClauseSpan → Option Clause, (clauseSpans body).filterMap read =
      (clauseSpans body).zipIdx.filterMap fun (span, _) => read span := by
    intro read
    conv_lhs => rw [← List.zipIdx_map_fst 0 (clauseSpans body), List.filterMap_map]
    rfl
  rw [clauses, pieces_eq, List.zipIdx_map, List.filterMap_map, listed]
  refine List.filterMap_congr ?_
  rintro ⟨span, index⟩ member
  have here := List.mk_mem_zipIdx_iff_getElem?.mp member
  simp only [Function.comp_apply, Prod.map, id, owned_eq here]

end TableSchema.Sql
