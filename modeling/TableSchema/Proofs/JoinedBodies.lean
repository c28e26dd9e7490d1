import TableSchema.Proofs.Concatenation
import TableSchema.Proofs.CutClauses
import TableSchema.Proofs.OwnersInOrder

/-! # Bodies one after the other

A comma on a line of its own, outside all parentheses, divides a body into two. Each of them has the
clauses and the comments that it has alone, only that those of the second stand further down.
-/

namespace TableSchema.Sql

open Text

def seam : List Char := "\n,\n".toList

/-! ## Segments -/

section

variable {first : List Char}

theorem reads_of_ended (ended : ∀ region ∈ scan (first ++ ['\n']), region.stop ≤ first.length) :
    Reads .start (segments first) ['\n'] := by
  have whole := text_segments (first ++ ['\n'])
  have reads := reads_segments (first ++ ['\n'])
  rw [scan] at ended
  generalize segments (first ++ ['\n']) = all at whole reads ended
  rcases List.eq_nil_or_concat all with rfl | ⟨front, last, rfl⟩
  · simp at whole
  · rw [List.concat_eq_append] at whole reads ended
    cases last with
    | region kind text =>
        have long := congrArg List.length whole
        simp only [List.flatMap_append, List.length_append, List.flatMap_singleton,
          Segment.text_region, List.length_singleton] at long
        have short := ended ⟨kind, (textOf front).length, (textOf front).length + text.length⟩
          (by simp [regionsFrom_append, regionsFrom])
        change (textOf front).length + _ = _ at long
        simp only at short
        omega
    | code character =>
        rw [List.flatMap_append, List.flatMap_singleton] at whole
        rcases List.append_inj' whole rfl with ⟨rfl, ⟨⟩⟩
        have before := (reads_append.mp reads).1
        have alone : Reads .start front [] :=
          before.followedBy quiet_nil fun kind _ _ =>
            ⟨by simp, by cases kind <;> simp [RegionKind.MayEndBefore]⟩
        rw [← textOf, segments_textOf alone]
        exact before

theorem segments_join (reads : Reads .start (segments first) ['\n']) (second : List Char) :
    segments (first ++ (seam ++ second)) =
      segments first ++ (seam.map .code ++ segments second) := by
  have whole : Reads .start (segments first ++ (seam.map .code ++ segments second)) [] := by
    refine reads_append.mpr ⟨?_, ?_⟩
    · refine reads.followedBy (quiet_cons (by decide) _) fun kind text last => ⟨by simp, ?_⟩
      have ended := reads.mayEndBefore last (by simp)
      cases kind <;> exact ended
    · refine ⟨rfl, rfl, rfl, (reads_segments second).congr ?_⟩
      exact Behind.start_fresh.agrees (Behind.push_fresh _ (by decide))
  have again := segments_textOf whole
  rwa [textOf_append, textOf_append, textOf_map_code, textOf, textOf, text_segments,
    text_segments] at again

theorem flatMap_join (reads : Reads .start (segments first) ['\n']) {view : Segment → List Char}
    (shows : ∀ character, view (.code character) = [character]) (second : List Char) :
    (segments (first ++ (seam ++ second))).flatMap view =
      (segments first).flatMap view ++ (seam ++ (segments second).flatMap view) := by
  have code : (seam.map Segment.code).flatMap view = seam := by
    rw [List.flatMap_map, List.flatMap_congr fun character _ => shows character,
      List.flatMap_singleton']
  rw [segments_join reads, List.flatMap_append, List.flatMap_append, code]

theorem mask_join (reads : Reads .start (segments first) ['\n']) (second : List Char) :
    mask (first ++ (seam ++ second)) = mask first ++ (seam ++ mask second) :=
  flatMap_join reads (fun _ => rfl) second

theorem stripComments_join (reads : Reads .start (segments first) ['\n']) (second : List Char) :
    stripComments (first ++ (seam ++ second)) =
      stripComments first ++ (seam ++ stripComments second) :=
  flatMap_join reads (fun _ => rfl) second

/-! ## Cuts -/

theorem cuts_join (reads : Reads .start (segments first) ['\n'])
    (level : surplus (mask first) = 0) (second : List Char) :
    cuts (first ++ (seam ++ second)) =
      cuts first ++ (first.length + 1) :: (cuts second).map (· + (first.length + 3)) := by
  have behind : cutsFrom first.length 0 (seam ++ mask second) =
      (first.length + 1) :: cutsFrom (0 + (first.length + 3)) 0 (mask second) := by
    rw [Nat.zero_add]
    rfl
  rw [cuts, mask_join reads, cutsFrom_append, level, Int.zero_add, Nat.zero_add, length_mask,
    behind, cutsFrom_add]
  rfl

end

/-! ## Owners -/

namespace OwnerState

def shift (state : OwnerState) (distance : Nat) : OwnerState :=
  ⟨state.depth, state.index + distance, state.owner.map (· + distance)⟩

theorem read_shift (state : OwnerState) (distance : Nat) (character : Char) :
    (state.shift distance).read character = (state.read character).shift distance := by
  simp only [read, shift, OwnerState.mk.injEq, true_and]
  constructor
  · by_cases comma : character = ',' ∧ state.depth = 0
    · simp [comma, Nat.add_right_comm]
    · simp [comma]
  · split
    · rfl
    · split <;> rfl

theorem readAll_shift (state : OwnerState) (distance : Nat) (masked : List Char) :
    (state.shift distance).readAll masked = (state.readAll masked).shift distance := by
  induction masked generalizing state with
  | nil => rfl
  | cons character masked induction =>
      change ((state.shift distance).read character).readAll masked = _
      rw [read_shift, induction]
      rfl

end OwnerState

def shiftOwned (distance : Nat) (owned : Nat × List Char) : Nat × List Char :=
  (owned.1 + distance, owned.2)

theorem ownedBy_shift (owner : Option Nat) (distance : Nat) (segment : Segment) :
    ownedBy (owner.map (· + distance)) segment =
      (ownedBy owner segment).map (shiftOwned distance) := by
  cases segment with
  | code => rfl
  | region kind text =>
      cases kind with
      | blockComment | string | dollarString | quotedIdentifier => rfl
      | lineComment =>
          cases owner with
          | none => rfl
          | some index =>
              simp only [ownedBy, Option.map_some, Option.bind_some]
              split <;> rfl

theorem ownedFrom_shift (state : OwnerState) (distance : Nat) (segments : List Segment) :
    ownedFrom (state.shift distance) segments =
      (ownedFrom state segments).map (shiftOwned distance) := by
  induction segments generalizing state with
  | nil => rfl
  | cons segment segments induction =>
      rw [ownedFrom, ownedFrom, OwnerState.readAll_shift, induction, List.map_append]
      exact congrArg (· ++ _) (ownedBy_shift state.owner distance segment)

theorem lastOnLine?_newline (text : List Char) : lastOnLine? (text ++ ['\n']) = none := by
  rw [lastOnLine?_concat, if_pos rfl]

theorem ownedComments_join {first : List Char} (reads : Reads .start (segments first) ['\n'])
    (level : surplus (mask first) = 0) (second : List Char) :
    ownedComments (first ++ (seam ++ second)) = ownedComments first ++
      (ownedComments second).map (shiftOwned ((cuts first).length + 1)) := by
  have state : OwnerState.start.readAll (mask first ++ seam) =
      OwnerState.start.shift ((cuts first).length + 1) := by
    have last : lastOnLine? (mask first ++ seam) = none := by
      have split : mask first ++ seam = (mask first ++ "\n,".toList) ++ ['\n'] := by
        rw [List.append_assoc]
        rfl
      rw [split, lastOnLine?_newline]
    rw [OwnerState.readAll_start, last, surplus_append, level, cutsFrom_append, level,
      List.length_append]
    simp [OwnerState.start, OwnerState.shift, cuts, seam, cutsFrom, surplus]
  rw [ownedComments_eq, ownedComments_eq, ownedComments_eq, segments_join reads, ownedFrom_append,
    ownedFrom_append, ownedFrom_code, List.nil_append, ← OwnerState.readAll_append, maskOf_map_code]
  change _ ++ ownedFrom (OwnerState.start.readAll (mask first ++ seam)) _ = _
  rw [state, ownedFrom_shift]

theorem index_le_of_mem_ownedComments {body : List Char} {comment : Nat × List Char}
    (member : comment ∈ ownedComments body) : comment.1 ≤ (cuts body).length := by
  rcases List.mem_map.mp member with ⟨trailing, _, rfl⟩
  exact List.countP_le_length

/-! ## Pieces -/

def shiftPiece (distance : Nat) (piece : Nat × List Char) : Nat × List Char :=
  (piece.1 + distance, piece.2)

theorem piecesFrom_add (start distance : Nat) (text : List Char) (cuts : List Nat) :
    piecesFrom (start + distance) text (cuts.map (· + distance)) =
      (piecesFrom start text cuts).map (shiftPiece distance) := by
  induction cuts generalizing start text with
  | nil => rfl
  | cons cut cuts induction =>
      have next : cut + distance + 1 = cut + 1 + distance := Nat.add_right_comm ..
      rw [List.map_cons, piecesFrom, piecesFrom, List.map_cons, next, induction,
        Nat.add_sub_add_right, Nat.add_sub_add_right]
      rfl

theorem length_piecesFrom (start : Nat) (text : List Char) (cuts : List Nat) :
    (piecesFrom start text cuts).length = cuts.length + 1 := by
  induction cuts generalizing start text with
  | nil => rfl
  | cons cut cuts induction => rw [piecesFrom, List.length_cons, induction, List.length_cons]

theorem piecesFrom_append {start : Nat} {first : List Char} {cuts : List Nat}
    (inside : ∀ cut ∈ cuts, start ≤ cut ∧ cut < start + first.length)
    (increasing : cuts.Pairwise (· < ·)) (second : List Char) (later : List Nat) :
    piecesFrom start (first ++ ',' :: second) (cuts ++ (start + first.length) :: later) =
      piecesFrom start first cuts ++ piecesFrom (start + first.length + 1) second later := by
  induction cuts generalizing start first with
  | nil => exact piecesFrom_cons start first second later
  | cons cut cuts induction =>
      rcases List.pairwise_cons.mp increasing with ⟨next, increasing⟩
      rcases List.forall_mem_cons.mp inside with ⟨here, inside⟩
      have rest : start + first.length = cut + 1 + (first.drop (cut + 1 - start)).length := by
        rw [List.length_drop]
        omega
      rw [List.cons_append, piecesFrom, piecesFrom, List.cons_append,
        List.take_append_of_le_length (by omega), List.drop_append_of_le_length (by omega), rest,
        induction ?_ increasing]
      intro other listed
      rw [← rest]
      exact ⟨next other listed, (inside other listed).2⟩

/-! ## Clauses of pieces -/

def commentsAt (owned : List (Nat × List Char)) (index : Nat) : List (List Char) :=
  (owned.filter (·.1 = index)).map (·.2)

def clausesOf (owned : List (Nat × List Char)) :
    (index : Nat) → List (Nat × List Char) → List Clause
  | _, [] => []
  | index, piece :: pieces =>
      (clauseOf? piece (commentsAt owned index)).toList ++ clausesOf owned (index + 1) pieces

theorem clauses_eq_clausesOf (body : List Char) : clauses body =
    clausesOf (ownedComments body) 0 (piecesFrom 0 (stripComments body) (cuts body)) := by
  suffices ∀ owned index (pieces : List (Nat × List Char)),
      ((pieces.zipIdx index).filterMap fun numbered =>
        clauseOf? numbered.1 (commentsAt owned numbered.2)) = clausesOf owned index pieces
    from this ..
  intro owned index pieces
  induction pieces generalizing index with
  | nil => rfl
  | cons piece pieces induction =>
      rw [List.zipIdx_cons, clausesOf, ← induction]
      cases found : clauseOf? piece (commentsAt owned index) with
      | none => exact List.filterMap_cons_none found
      | some clause => exact List.filterMap_cons_some found

def Clause.shift (clause : Clause) (distance : Nat) : Clause :=
  { clause with offset := clause.offset + distance }

section

variable {owned : List (Nat × List Char)} {index : Nat} {pieces : List (Nat × List Char)}

theorem clausesOf_append (second : List (Nat × List Char)) :
    clausesOf owned index (pieces ++ second) =
      clausesOf owned index pieces ++ clausesOf owned (index + pieces.length) second := by
  induction pieces generalizing index with
  | nil => rfl
  | cons piece pieces induction =>
      rw [List.cons_append, clausesOf, clausesOf, induction, List.append_assoc, List.length_cons,
        Nat.add_assoc, Nat.add_comm 1]

theorem clausesOf_congr {owned' : List (Nat × List Char)}
    (same : ∀ other, index ≤ other → other < index + pieces.length →
      commentsAt owned other = commentsAt owned' other) :
    clausesOf owned index pieces = clausesOf owned' index pieces := by
  induction pieces generalizing index with
  | nil => rfl
  | cons piece pieces induction =>
      rw [List.length_cons] at same
      have here := same index (Nat.le_refl _) (by omega)
      have later : clausesOf owned (index + 1) pieces = clausesOf owned' (index + 1) pieces :=
        induction fun other behind inside => same other (by omega) (by omega)
      rw [clausesOf, clausesOf, here, later]

theorem commentsAt_append (later : List (Nat × List Char)) :
    commentsAt (owned ++ later) index = commentsAt owned index ++ commentsAt later index := by
  rw [commentsAt, List.filter_append, List.map_append]
  rfl

theorem commentsAt_eq_nil (other : ∀ comment ∈ owned, comment.1 ≠ index) :
    commentsAt owned index = [] := by
  rw [commentsAt, List.map_eq_nil_iff, List.filter_eq_nil_iff]
  intro comment member
  simpa using other comment member

theorem clausesOf_append_left {later : List (Nat × List Char)}
    (late : ∀ comment ∈ later, index + pieces.length ≤ comment.1) :
    clausesOf (owned ++ later) index pieces = clausesOf owned index pieces := by
  apply clausesOf_congr
  intro other _ inside
  have none : commentsAt later other = [] := commentsAt_eq_nil fun comment member => by
    have := late comment member
    omega
  rw [commentsAt_append, none, List.append_nil]

theorem clausesOf_append_right {earlier : List (Nat × List Char)}
    (early : ∀ comment ∈ earlier, comment.1 < index) :
    clausesOf (earlier ++ owned) index pieces = clausesOf owned index pieces := by
  apply clausesOf_congr
  intro other behind _
  have none : commentsAt earlier other = [] := commentsAt_eq_nil fun comment member => by
    have := early comment member
    omega
  rw [commentsAt_append, none, List.nil_append]

theorem commentsAt_shift (distance : Nat) :
    commentsAt (owned.map (shiftOwned distance)) (index + distance) = commentsAt owned index := by
  simp only [commentsAt, List.filter_map, List.map_map, Function.comp_def, shiftOwned,
    Nat.add_right_cancel_iff]

theorem clauseOf?_shift (piece : Nat × List Char) (comments : List (List Char)) (distance : Nat) :
    clauseOf? (shiftPiece distance piece) comments =
      (clauseOf? piece comments).map (·.shift distance) := by
  have offset : piece.1 + distance + blanksAtStart piece.2 =
      piece.1 + blanksAtStart piece.2 + distance := Nat.add_right_comm ..
  simp only [clauseOf?, shiftPiece, offset]
  by_cases none : (trim piece.2).isEmpty = true
  · simp [none]
  · simp [none, Clause.shift]

theorem clausesOf_shift (count distance : Nat) :
    clausesOf (owned.map (shiftOwned count)) (index + count) (pieces.map (shiftPiece distance)) =
      (clausesOf owned index pieces).map (·.shift distance) := by
  induction pieces generalizing index with
  | nil => rfl
  | cons piece pieces induction =>
      rw [List.map_cons, clausesOf, clausesOf, commentsAt_shift, clauseOf?_shift, List.map_append,
        Nat.add_right_comm, induction]
      cases clauseOf? piece (commentsAt owned index) <;> rfl

end

/-! ## Blanks at the ends -/

theorem clauseOf?_blanks {before after : List Char} (blank : AllBlank before)
    (blank' : AllBlank after) (start : Nat) (text : List Char) (comments : List (List Char)) :
    clauseOf? (start, before ++ (text ++ after)) comments =
      clauseOf? (start + before.length, text) comments := by
  rcases exists_trim text with ⟨left, right, whole, count, blankLeft, blankRight⟩
  have wider : before ++ (text ++ after) = (before ++ left) ++ (trim text ++ (right ++ after)) := by
    conv_lhs => rw [whole]
    simp only [List.append_assoc]
  have blanks : AllBlank (before ++ left) := List.forall_mem_append.mpr ⟨blank, blankLeft⟩
  have trims : trim (before ++ (text ++ after)) = trim text := by
    rw [wider]
    exact trim_blanks blanks (List.forall_mem_append.mpr ⟨blankRight, blank'⟩) (trimmed_trim text)
  by_cases none : trim text = []
  · simp [clauseOf?, trims, none]
  · have bare := (trimmed_trim text).bare_append none (right ++ after)
    have starts : blanksAtStart (before ++ (text ++ after)) =
        before.length + blanksAtStart text := by
      rw [wider, blanksAtStart_blanks blanks bare, List.length_append, count]
    simp [clauseOf?, trims, none, starts, Nat.add_assoc]

section

variable {owned : List (Nat × List Char)} {index start : Nat} {blanks text : List Char}
  {cuts : List Nat}

theorem clausesOf_trailing (blank : AllBlank blanks)
    (inside : ∀ cut ∈ cuts, start ≤ cut ∧ cut < start + text.length)
    (increasing : cuts.Pairwise (· < ·)) :
    clausesOf owned index (piecesFrom start (text ++ blanks) cuts) =
      clausesOf owned index (piecesFrom start text cuts) := by
  induction cuts generalizing index start text with
  | nil => exact congrArg (·.toList ++ []) (clauseOf?_blanks allBlank_nil blank start text _)
  | cons cut cuts induction =>
      rcases List.pairwise_cons.mp increasing with ⟨next, increasing⟩
      rcases List.forall_mem_cons.mp inside with ⟨here, inside⟩
      rw [piecesFrom, piecesFrom, List.take_append_of_le_length (by omega),
        List.drop_append_of_le_length (by omega), clausesOf, clausesOf, induction ?_ increasing]
      intro other listed
      have late := next other listed
      have early := (inside other listed).2
      rw [List.length_drop]
      omega

theorem clausesOf_leading (blank : AllBlank blanks)
    (late : ∀ cut ∈ cuts, start + blanks.length ≤ cut) :
    clausesOf owned index (piecesFrom start (blanks ++ text) cuts) =
      clausesOf owned index (piecesFrom (start + blanks.length) text cuts) := by
  have first (piece : List Char) : clauseOf? (start, blanks ++ piece) (commentsAt owned index) =
      clauseOf? (start + blanks.length, piece) (commentsAt owned index) := by
    have bounded := clauseOf?_blanks blank allBlank_nil start piece (commentsAt owned index)
    rwa [List.append_nil] at bounded
  cases cuts with
  | nil => exact congrArg (·.toList ++ []) (first text)
  | cons cut cuts =>
      have reach := late cut (List.mem_cons_self ..)
      have upTo : cut - start = blanks.length + (cut - (start + blanks.length)) := by omega
      have behind : cut + 1 - start = blanks.length + (cut + 1 - (start + blanks.length)) := by
        omega
      rw [piecesFrom, piecesFrom, clausesOf, clausesOf, upTo, behind, List.take_length_add_append,
        List.drop_length_add_append, first]

end

/-! ## Joining -/

theorem pieces_join {first : List Char} (reads : Reads .start (segments first) ['\n'])
    (level : surplus (mask first) = 0) (second : List Char) :
    piecesFrom 0 (stripComments (first ++ (seam ++ second))) (cuts (first ++ (seam ++ second))) =
      piecesFrom 0 (stripComments first ++ ['\n']) (cuts first) ++
        piecesFrom (first.length + 2) ('\n' :: stripComments second)
          ((cuts second).map (· + (first.length + 3))) := by
  have long : 0 + (stripComments first ++ ['\n']).length = first.length + 1 := by
    rw [List.length_append, length_stripComments, Nat.zero_add, List.length_singleton]
  have inside : ∀ cut ∈ cuts first, 0 ≤ cut ∧ cut < 0 + (stripComments first ++ ['\n']).length := by
    intro cut member
    have := lt_of_mem_cuts member
    omega
  have split : stripComments (first ++ (seam ++ second)) =
      (stripComments first ++ ['\n']) ++ ',' :: '\n' :: stripComments second := by
    rw [stripComments_join reads, List.append_assoc]
    rfl
  have divided := piecesFrom_append inside (cuts_increasing first)
    ('\n' :: stripComments second) ((cuts second).map (· + (first.length + 3)))
  rw [long] at divided
  rw [split, cuts_join reads level]
  exact divided

/-- Bodies with a comma on a line of its own between them have the clauses of the one and then those
of the other, each with its comments. -/
theorem clauses_join (first : List Char)
    (ended : ∀ region ∈ scan (first ++ ['\n']), region.stop ≤ first.length)
    (level : (mask first).count '(' = (mask first).count ')') (second : List Char) :
    clauses (first ++ (seam ++ second)) =
      clauses first ++ (clauses second).map (·.shift (first.length + 3)) := by
  have reads := reads_of_ended ended
  have level : surplus (mask first) = 0 := by
    rw [surplus_eq]
    omega
  have feed : AllBlank ['\n'] := by decide
  have inside : ∀ cut ∈ cuts first, 0 ≤ cut ∧ cut < 0 + (stripComments first).length := by
    intro cut member
    rw [Nat.zero_add, length_stripComments]
    exact ⟨Nat.zero_le cut, lt_of_mem_cuts member⟩
  rw [clauses_eq_clausesOf, pieces_join reads level, ownedComments_join reads level,
    clausesOf_append, length_piecesFrom, Nat.zero_add]
  congr 1
  · have late : ∀ comment ∈ (ownedComments second).map (shiftOwned ((cuts first).length + 1)),
        0 + (piecesFrom 0 (stripComments first) (cuts first)).length ≤ comment.1 := by
      intro comment member
      rcases List.mem_map.mp member with ⟨original, _, rfl⟩
      rw [length_piecesFrom, Nat.zero_add]
      exact Nat.le_add_left ..
    rw [clausesOf_trailing feed inside (cuts_increasing first), clausesOf_append_left late,
      ← clauses_eq_clausesOf]
  · have early : ∀ comment ∈ ownedComments first, comment.1 < (cuts first).length + 1 :=
      fun comment member => Nat.lt_succ_of_le (index_le_of_mem_ownedComments member)
    have late : ∀ cut ∈ (cuts second).map (· + (first.length + 3)),
        first.length + 2 + ['\n'].length ≤ cut := by
      intro cut member
      rcases List.mem_map.mp member with ⟨original, _, rfl⟩
      exact Nat.le_add_left ..
    have placed := piecesFrom_add 0 (first.length + 3) (stripComments second) (cuts second)
    rw [Nat.zero_add] at placed
    have counted := Nat.zero_add ((cuts first).length + 1)
    rw [clausesOf_append_right early, clauses_eq_clausesOf, ← clausesOf_shift, counted, ← placed]
    exact clausesOf_leading feed late

/-- The first body ends in a comment with an open parenthesis, and closes one before it opens it; in
the second a string stays open. -/
theorem open_ends_joined :
    let first := "a n(1,2), -- it's (\n) b ( -- c".toList
    let second := " , d, -- own\n 'x -- y".toList
    (∀ region ∈ scan (first ++ ['\n']), region.stop ≤ first.length) ∧
      (mask first).count '(' = (mask first).count ')' ∧
      clauses (first ++ (seam ++ second)) =
        [⟨"a n(1,2) -- it's (".toList, 0⟩, ⟨") b ( -- c".toList, 20⟩, ⟨"d -- own".toList, 36⟩,
          ⟨"'x -- y".toList, 47⟩] := by
  intro first second
  have ended : ∀ region ∈ scan (first ++ ['\n']), region.stop ≤ first.length := by decide +kernel
  have level : (mask first).count '(' = (mask first).count ')' := by decide +kernel
  refine ⟨ended, level, ?_⟩
  rw [clauses_join first ended level second]
  decide +kernel

end TableSchema.Sql
