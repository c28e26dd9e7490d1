import TableSchema.Proofs.Pieces
import TableSchema.Sql.Column

/-! # How clauses are read

A clause is read from its view. The view of a legible run shows the run itself, and a comment
behind it only adds a description.
-/

namespace TableSchema.Sql

open Text

/-! ## Views -/

def commented (clause comment : List Char) : List Char := clause ++ " -- ".toList ++ comment

namespace Legible

variable {core : List Segment}

theorem isLineComment_eq_false (legible : Legible core) {segment : Segment}
    (member : segment ∈ core) : segment.isLineComment = false := by
  cases segment with
  | code => rfl
  | region kind text =>
      have literal := legible.uncommented kind text member
      cases kind with
      | lineComment | blockComment => cases literal
      | string | dollarString | quotedIdentifier => rfl

theorem ofClause_of_segments (legible : Legible core) (trimmed : Trimmed (textOf core))
    {clause blanks : List Char} {after : List Segment} (blank : AllBlank blanks)
    (bare : Bare (maskOf core ++ blanks))
    (stops : ∀ segment ∈ after.head?, segment.isLineComment = true)
    (cut : segments clause = core ++ blanks.map .code ++ after) :
    ClauseView.ofClause clause =
      ⟨maskOf core, textOf core, (ClauseView.ofClause clause).comment⟩ := by
  have code : (segments clause).takeWhile (!·.isLineComment) = core ++ blanks.map .code := by
    rw [cut]
    refine (takeWhile_of_stop _ after (fun segment member => ?_) fun segment first => ?_).1
    · rcases List.mem_append.mp member with member | member
      · rw [legible.isLineComment_eq_false member]
        rfl
      · rcases List.mem_map.mp member with ⟨character, _, rfl⟩
        rfl
    · rw [stops segment first]
      rfl
  have masked : trim (maskOf core ++ blanks) = maskOf core :=
    trim_blanks allBlank_nil blank (legible.trimmed_maskOf trimmed)
  have none : blanksAtStart (maskOf core ++ blanks) = 0 := by
    have count := blanksAtStart_blanks allBlank_nil bare
    rwa [List.nil_append] at count
  have shownMask : (core ++ blanks.map Segment.code).flatMap Segment.masked =
      maskOf core ++ blanks := by
    change maskOf (core ++ blanks.map Segment.code) = _
    rw [maskOf_append, maskOf_map_code]
  have shownText : (core ++ blanks.map Segment.code).flatMap Segment.stripped =
      textOf core ++ blanks := by
    change strippedOf (core ++ blanks.map Segment.code) = _
    rw [strippedOf_append, strippedOf_map_code, legible.strippedOf_eq]
  simp only [ClauseView.ofClause, code, shownMask, shownText, masked, none, List.drop_zero,
    length_maskOf, List.take_left]

theorem ofClause_eq (legible : Legible core) (trimmed : Trimmed (textOf core)) :
    ClauseView.ofClause (textOf core) = ⟨maskOf core, textOf core, none⟩ := by
  have bare : Bare (maskOf core ++ []) := by
    rw [List.append_nil]
    exact (legible.trimmed_maskOf trimmed).1
  have cut : segments (textOf core) = core ++ List.map .code [] ++ [] := by
    simp [legible.segments_textOf]
  rw [legible.ofClause_of_segments trimmed allBlank_nil bare (by simp) cut]
  have comment : (segments (textOf core)).find? (·.isLineComment) = none := by
    rw [legible.segments_textOf, List.find?_eq_none]
    intro segment member
    rw [legible.isLineComment_eq_false member]
    exact Bool.false_ne_true
  simp only [ClauseView.ofClause, comment, Option.bind_none]

theorem segments_commented (legible : Legible core) {comment : List Char}
    (oneLine : '\n' ∉ comment) :
    segments (commented (textOf core) comment) =
      core ++ [.code ' ', .region .lineComment ('-' :: '-' :: ' ' :: comment)] := by
  have reads : Reads .start
      (core ++ [.code ' ', .region .lineComment ('-' :: '-' :: ' ' :: comment)]) [] := by
    refine reads_append.mpr ⟨?_, rfl, ?_, trivial⟩
    · apply legible.reads.alone Behind.start_fresh (quiet_cons (by decide) _)
      intro kind text last
      refine ⟨by simp, Quiet.mayEndBefore (quiet_cons (by decide) _) ?_⟩
      rintro rfl
      cases legible.uncommented _ text (List.mem_of_getLast? last)
    · apply regionAt?_of_closedRegion
      exact .lineComment (by simpa using oneLine) (by simp [RegionKind.MayEndBefore])
  have cut := Sql.segments_textOf reads
  rw [← cut]
  congr 1
  simp [commented]

theorem ofClause_commented (legible : Legible core) (trimmed : Trimmed (textOf core))
    (nonempty : core ≠ []) {comment : List Char} (oneLine : '\n' ∉ comment) :
    ∃ description, ClauseView.ofClause (commented (textOf core) comment) =
      ⟨maskOf core, textOf core, description⟩ := by
  have bare : Bare (maskOf core ++ [' ']) := by
    rcases List.exists_cons_of_ne_nil nonempty with ⟨segment, rest, rfl⟩
    have nonempty := (legible.shown (List.mem_cons_self ..)).1
    have shown := List.append_ne_nil_of_left_ne_nil nonempty (textOf rest)
    rcases List.exists_cons_of_ne_nil shown with ⟨first, others, text⟩
    have head := legible.head?_maskOf
    rw [textOf_cons, text] at head
    rcases List.head?_eq_some_iff.mp head with ⟨hidden, masked⟩
    rw [masked]
    exact bare_cons ((legible.trimmed_maskOf trimmed).1 first head) _
  have cut : segments (commented (textOf core) comment) = core ++ [' '].map .code ++
      [.region .lineComment ('-' :: '-' :: ' ' :: comment)] := by
    rw [legible.segments_commented oneLine, List.append_assoc]
    rfl
  refine ⟨_, legible.ofClause_of_segments trimmed blank_allBlank bare ?_ cut⟩
  rintro _ ⟨⟩
  rfl

end Legible

end TableSchema.Sql

namespace TableSchema

open Sql Text

/-! ## Descriptions -/

def Field.undescribed (field : Field) : Field := { field with description := none }

namespace Sql

/-- What a clause is read as, but for the description. -/
def outline (clause : List Char) : Except Refusal Field := (classify clause).map Field.undescribed

/-- A comment only describes. -/
theorem ClauseView.classify_comment (masked plain : List Char) (comment : Option (List Char)) :
    (ClauseView.mk masked plain comment).classify.map Field.undescribed =
      (ClauseView.mk masked plain none).classify.map Field.undescribed := by
  unfold ClauseView.classify
  simp only
  split
  · rfl
  · split
    · rfl
    · split
      · rfl
      · split
        · rfl
        · rfl

theorem Legible.outline_commented {core : List Segment} (legible : Legible core)
    (trimmed : Trimmed (textOf core)) (nonempty : core ≠ []) {comment : List Char}
    (oneLine : '\n' ∉ comment) :
    outline (commented (textOf core) comment) = outline (textOf core) := by
  rcases legible.ofClause_commented trimmed nonempty oneLine with ⟨description, view⟩
  rw [outline, outline, classify, classify, view, legible.ofClause_eq trimmed]
  exact ClauseView.classify_comment ..

end Sql

end TableSchema
