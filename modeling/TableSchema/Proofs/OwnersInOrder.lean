import TableSchema.Proofs.CommentOwners
import TableSchema.Proofs.Variations

/-! # Whose comments are whose, from left to right

To tell whose a comment is, a body is read once from left to right. All that is remembered is how
many parentheses are open, how many clauses have been ended, and whose the last thing on the line is.
So variations that keep lines keep owners.
-/

namespace TableSchema.Sql

open Text

/-! ## Reading -/

theorem pieceIndex_append {front : List Char} {place : Nat} (early : place ≤ front.length)
    (rest : List Char) :
    pieceIndex (cutsFrom 0 0 (front ++ rest)) place = pieceIndex (cutsFrom 0 0 front) place := by
  have none : (cutsFrom (0 + front.length) (0 + surplus front) rest).countP (· < place) = 0 := by
    rw [List.countP_eq_zero]
    intro cut member
    have bounds := le_of_mem_cutsFrom member
    simp only [decide_eq_true_eq]
    omega
  rw [pieceIndex, pieceIndex, cutsFrom_append, List.countP_append, none, Nat.add_zero]

structure OwnerState where
  depth : Int
  /-- How many clauses have been ended. -/
  index : Nat
  /-- The clause of the last visible character on the line that is open. -/
  owner : Option Nat

namespace OwnerState

def start : OwnerState := ⟨0, 0, none⟩

def read (state : OwnerState) (character : Char) : OwnerState where
  depth := if character = '(' then state.depth + 1
    else if character = ')' then state.depth - 1 else state.depth
  index := if character = ',' ∧ state.depth = 0 then state.index + 1 else state.index
  owner := if character = '\n' then none
    else if isBlank character then state.owner else some state.index

def readAll (state : OwnerState) (masked : List Char) : OwnerState := masked.foldl read state

theorem readAll_append (state : OwnerState) (first second : List Char) :
    state.readAll (first ++ second) = (state.readAll first).readAll second :=
  List.foldl_append

theorem readAll_blanks {blanks : List Char} (blank : AllBlank blanks) (state : OwnerState) :
    state.readAll blanks = if newlines blanks = 0 then state else { state with owner := none } := by
  have quiet {character : Char} (here : isBlank character = true) (state : OwnerState) :
      state.read character = if character = '\n' then { state with owner := none } else state := by
    have other {mark : Char} (visible : isBlank mark = false) : character ≠ mark := by
      rintro rfl
      rw [visible] at here
      cases here
    rw [read, if_neg (other (by decide)), if_neg (other (by decide)),
      if_neg fun comma => other (by decide) comma.1, if_pos here]
    split <;> rfl
  induction blanks generalizing state with
  | nil => rfl
  | cons character blanks induction =>
      rcases List.forall_mem_cons.mp blank with ⟨here, later⟩
      change (state.read character).readAll blanks = _
      rw [induction later, quiet here, newlines, newlines, List.count_cons]
      by_cases feed : character = '\n'
      · simp [feed]
      · simp [feed]

theorem readAll_respaced {first second : List Char} (same : Respaced True first second)
    (state : OwnerState) : state.readAll first = state.readAll second := by
  induction same generalizing state with
  | nil => rfl
  | cons character _ induction => exact induction (state.read character)
  | part exchanged _ induction =>
      rw [readAll_append, readAll_append, readAll_blanks exchanged.blank_left,
        readAll_blanks exchanged.blank_right, exchanged.newlines trivial, induction]

theorem readAll_start (masked : List Char) : start.readAll masked =
    ⟨surplus masked, (cutsFrom 0 0 masked).length,
      (lastOnLine? masked).map (pieceIndex (cutsFrom 0 0 masked))⟩ := by
  induction masked using List.reverseRecOn with
  | nil => rfl
  | append_singleton front character induction =>
      have count : pieceIndex (cutsFrom 0 0 front) front.length = (cutsFrom 0 0 front).length := by
        rw [pieceIndex, List.countP_eq_length]
        intro cut member
        have bounds := le_of_mem_cutsFrom member
        simp only [decide_eq_true_eq]
        omega
      have owner : (lastOnLine? (front ++ [character])).map
          (pieceIndex (cutsFrom 0 0 (front ++ [character]))) =
            if character = '\n' then none
            else if isBlank character then (lastOnLine? front).map (pieceIndex (cutsFrom 0 0 front))
            else some (cutsFrom 0 0 front).length := by
        rw [lastOnLine?_concat]
        split
        · rfl
        · split
          · refine Option.map_congr fun place last => pieceIndex_append ?_ _
            rcases lastOnLine?_eq_some_iff.mp last with ⟨before, _, _, rfl, rfl, _⟩
            simp
          · rw [Option.map_some, pieceIndex_append (Nat.le_refl _), count]
      rw [readAll_append, induction, owner, surplus_append, cutsFrom_append, List.length_append]
      simp only [readAll, List.foldl_cons, List.foldl_nil, read, OwnerState.mk.injEq, and_true,
        surplus, cutsFrom, Int.zero_add]
      by_cases opens : character = '('
      · simp [opens]
      · by_cases closes : character = ')'
        · simp [closes, Int.sub_eq_add_neg]
        · by_cases comma : character = ',' ∧ surplus front = 0
          · simp [comma]
          · simp [opens, closes, comma]

end OwnerState

/-! ## Owners -/

def ownedBy (owner : Option Nat) : Segment → List (Nat × List Char)
  | .region .lineComment text =>
      (owner.bind fun index =>
        if (commentText text).isEmpty then none else some (index, commentText text)).toList
  | _ => []

def ownedFrom (state : OwnerState) : List Segment → List (Nat × List Char)
  | [] => []
  | segment :: rest => ownedBy state.owner segment ++ ownedFrom (state.readAll segment.masked) rest

theorem ownedFrom_append (state : OwnerState) (first second : List Segment) :
    ownedFrom state (first ++ second) =
      ownedFrom state first ++ ownedFrom (state.readAll (maskOf first)) second := by
  induction first generalizing state with
  | nil => rfl
  | cons segment first induction =>
      rw [List.cons_append, ownedFrom, ownedFrom, induction, maskOf_cons, OwnerState.readAll_append,
        List.append_assoc]

theorem ownedFrom_code (state : OwnerState) (text : List Char) :
    ownedFrom state (text.map .code) = [] := by
  induction text generalizing state with
  | nil => rfl
  | cons character text induction => exact induction _

def ownedAt? (body : List Char) (region : Region) : Option (Nat × List Char) := do
  if region.kind = .lineComment then
    let codePlace ← lastOnLine? ((mask body).take region.start)
    let text := commentText (slice body region.start region.stop)
    if text.isEmpty then none else some (pieceIndex (cuts body) codePlace, text)
  else none

theorem ownedComments_eq_filterMap (body : List Char) :
    ownedComments body = (scan body).filterMap (ownedAt? body) := by
  rw [ownedComments, trailingComments, List.map_filterMap]
  congr 1
  funext region
  unfold ownedAt? slice
  split
  · cases lastOnLine? ((mask body).take region.start) with
    | none => rfl
    | some codePlace =>
        simp only [Option.bind_eq_bind, Option.bind_some]
        split <;> rfl
  · rfl

theorem shown_of_mem_ownedComments {body : List Char} {comment : Nat × List Char}
    (member : comment ∈ ownedComments body) : comment.2 ≠ [] ∧ Trimmed comment.2 := by
  rw [ownedComments_eq_filterMap] at member
  rcases List.mem_filterMap.mp member with ⟨region, _, owned⟩
  unfold ownedAt? at owned
  split at owned
  · rcases Option.bind_eq_some_iff.mp owned with ⟨place, _, given⟩
    simp only at given
    split at given
    · cases given
    · rename_i nonempty
      cases given
      exact ⟨by simpa using nonempty, trimmed_trim _⟩
  · cases owned

theorem ownedAt?_eq {body text : List Char} {before after : List Segment} {kind : RegionKind}
    (cut : segments body = before ++ .region kind text :: after) :
    (ownedAt? body ⟨kind, (textOf before).length, (textOf before).length + text.length⟩).toList =
      ownedBy (OwnerState.start.readAll (maskOf before)).owner (.region kind text) := by
  cases kind with
  | blockComment | string | dollarString | quotedIdentifier => rfl
  | lineComment =>
      have inside : slice body (textOf before).length ((textOf before).length + text.length) =
          text := by
        have part := slice_flatMap (fun segment => (rfl : segment.text.length = _)) before
          [.region .lineComment text] after
        rw [List.singleton_append, ← cut, text_segments] at part
        simpa using part
      have masked : mask body = maskOf before ++ maskOf (.region .lineComment text :: after) := by
        rw [mask, cut, List.flatMap_append]
        rfl
      rw [OwnerState.readAll_start, ownedAt?, if_pos rfl, take_mask cut, inside, ownedBy]
      cases last : lastOnLine? (maskOf before) with
      | none => rfl
      | some place =>
          have early : place ≤ (maskOf before).length := by
            rcases lastOnLine?_eq_some_iff.mp last with ⟨front, _, _, whole, rfl, _⟩
            rw [whole, List.length_append]
            omega
          rw [Option.map_some, Option.bind_some, ← pieceIndex_append early, ← masked]
          rfl

/-- The comments of a body that clauses own are found from left to right. -/
theorem ownedComments_eq (body : List Char) :
    ownedComments body = ownedFrom .start (segments body) := by
  suffices ∀ rest before, segments body = before ++ rest →
      (regionsFrom (textOf before).length rest).filterMap (ownedAt? body) =
        ownedFrom (OwnerState.start.readAll (maskOf before)) rest by
    rw [ownedComments_eq_filterMap]
    exact this (segments body) [] rfl
  intro rest
  induction rest with
  | nil => exact fun _ _ => rfl
  | cons segment rest induction =>
      intro before cut
      have next := induction (before ++ [segment]) (by simp [cut])
      rw [maskOf_append, OwnerState.readAll_append, maskOf_cons, maskOf_nil, List.append_nil,
        textOf_append, textOf_cons, textOf_nil, List.append_nil, List.length_append] at next
      rw [ownedFrom, ← next]
      cases segment with
      | code character => rfl
      | region kind text =>
          rw [regionsFrom, ← ownedAt?_eq cut, List.filterMap_cons]
          cases ownedAt? body _ <;> rfl

/-- Variations that keep lines keep the owners of comments. -/
theorem ownedFrom_varied {strings : Prop} {first second : List Segment}
    (same : Varied True strings first second) (state : OwnerState) :
    ownedFrom state first = ownedFrom state second := by
  induction same generalizing state with
  | nil => rfl
  | cons segment _ induction => rw [ownedFrom, ownedFrom, induction]
  | part exchanged _ induction =>
      rw [ownedFrom_append, ownedFrom_append, induction,
        OwnerState.readAll_respaced exchanged.maskOf]
      congr 1
      cases exchanged with
      | blanks => rw [ownedFrom_code, ownedFrom_code]
      | @comment kind text text' comment runs meaning =>
          cases kind with
          | lineComment => simp only [ownedFrom, ownedBy, meaning rfl]
          | blockComment | string | dollarString | quotedIdentifier => rfl
      | string => rfl

theorem ownedComments_varied {strings : Prop} {body body' : List Char}
    (same : Varied True strings (segments body) (segments body')) :
    ownedComments body = ownedComments body' := by
  rw [ownedComments_eq, ownedComments_eq, ownedFrom_varied same]

theorem ownedComments_eq_nil {body : List Char}
    (none : ∀ text, .region .lineComment text ∉ segments body) : ownedComments body = [] := by
  rw [ownedComments_eq]
  generalize segments body = segments at none
  generalize OwnerState.start = state
  induction segments generalizing state with
  | nil => rfl
  | cons segment segments induction =>
      rw [ownedFrom, induction fun text member => none text (List.mem_cons_of_mem _ member),
        List.append_nil]
      cases segment with
      | code => rfl
      | region kind text =>
          cases kind with
          | lineComment => exact absurd (List.mem_cons_self ..) (none text)
          | blockComment | string | dollarString | quotedIdentifier => rfl

end TableSchema.Sql
