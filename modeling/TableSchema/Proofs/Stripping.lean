import TableSchema.Proofs.Masking

/-! # Stripping comments

A comment that is stripped leaves blanks behind, and no token joins in with blanks. So the text that
is left is cut into the same segments, but for the blanks where the comments stood.
-/

namespace TableSchema.Sql

open Text

namespace Segment

def bare : Segment → List Segment
  | .code character => [.code character]
  | .region kind text =>
      if kind.isComment then (text.map hide).map .code else [.region kind text]

theorem bare_of_comment {kind : RegionKind} {text : List Char} (comment : kind.isComment = true) :
    (region kind text).bare = (text.map hide).map .code := if_pos comment

theorem bare_of_literal {kind : RegionKind} {text : List Char} (literal : kind.isComment = false) :
    (region kind text).bare = [region kind text] := by
  rw [bare, literal]
  rfl

theorem stripped_of_comment {kind : RegionKind} {text : List Char}
    (comment : kind.isComment = true) : (region kind text).stripped = text.map hide := if_pos comment

theorem stripped_of_literal {kind : RegionKind} {text : List Char}
    (literal : kind.isComment = false) : (region kind text).stripped = text := by
  rw [stripped, literal]
  rfl

theorem flatMap_bare {view : Segment → List Char}
    (code : ∀ character, view (.code character) = [character])
    (comment : ∀ kind text, kind.isComment = true → view (.region kind text) = text.map hide)
    (segment : Segment) : segment.bare.flatMap view = view segment := by
  cases segment with
  | code character => simp [bare]
  | region kind text =>
      cases isComment : kind.isComment with
      | true =>
          simp [bare_of_comment isComment, comment kind text isComment, List.flatMap_map, code,
            ← List.map_eq_flatMap]
      | false => simp [bare_of_literal isComment]

theorem maskOf_bare (segment : Segment) : maskOf segment.bare = segment.masked :=
  flatMap_bare (fun _ => rfl) (fun _ _ comment => if_pos comment) segment

theorem strippedOf_bare (segment : Segment) : strippedOf segment.bare = segment.stripped :=
  flatMap_bare (fun _ => rfl) (fun _ _ comment => if_pos comment) segment

theorem textOf_bare (segment : Segment) : textOf segment.bare = segment.stripped := by
  cases segment with
  | code character => rfl
  | region kind text =>
      cases comment : kind.isComment with
      | true => rw [bare_of_comment comment, stripped_of_comment comment, textOf_map_code]
      | false => simp [bare_of_literal comment, stripped_of_literal comment]

end Segment

def bareOf (segments : List Segment) : List Segment := segments.flatMap Segment.bare

@[simp] theorem bareOf_cons (segment : Segment) (segments : List Segment) :
    bareOf (segment :: segments) = segment.bare ++ bareOf segments := rfl

@[simp] theorem textOf_bareOf (segments : List Segment) :
    textOf (bareOf segments) = strippedOf segments := by
  rw [textOf, bareOf, List.flatMap_assoc]
  congr 1
  funext segment
  exact segment.textOf_bare

@[simp] theorem maskOf_bareOf (segments : List Segment) :
    maskOf (bareOf segments) = maskOf segments := by
  rw [maskOf, bareOf, List.flatMap_assoc]
  congr 1
  funext segment
  exact segment.maskOf_bare

@[simp] theorem strippedOf_bareOf (segments : List Segment) :
    strippedOf (bareOf segments) = strippedOf segments := by
  rw [strippedOf, bareOf, List.flatMap_assoc]
  congr 1
  funext segment
  exact segment.strippedOf_bare

theorem uncommented_bareOf {segments : List Segment} {kind : RegionKind} {text : List Char}
    (member : .region kind text ∈ bareOf segments) : kind.isComment = false := by
  rcases List.mem_flatMap.mp member with ⟨segment, _, member⟩
  cases segment with
  | code character => simp [Segment.bare] at member
  | region kind' text' =>
      cases comment : kind'.isComment with
      | true => simp [Segment.bare_of_comment comment] at member
      | false =>
          rw [Segment.bare_of_literal comment, List.mem_singleton] at member
          cases member
          exact comment

/-! ## What is left is cut in the same way -/

theorem isInert_hide (character : Char) : isInert (hide character) = true := by
  unfold hide
  split <;> decide

theorem regionAt?_hide (behind : Behind) (character : Char) (rest : List Char) :
    regionAt? behind (hide character :: rest) = none := by
  unfold hide
  split <;> rfl

theorem reads_hidden (behind : Behind) (text after : List Char) :
    Reads behind ((text.map hide).map .code) after := by
  induction text generalizing behind with
  | nil => trivial
  | cons character text induction => exact ⟨regionAt?_hide .., induction _⟩

theorem Behind.pushAll_fresh (behind : Behind) (front : List Char) {last : Char}
    (outside : isWord last = false) : (behind.pushAll (front ++ [last])).Fresh := by
  rw [pushAll_append]
  exact push_fresh _ outside

theorem Quiet.append {text : List Char} (quiet : Quiet text) (nonempty : text ≠ [])
    (rest : List Char) : Quiet (text ++ rest) := by
  rcases List.exists_cons_of_ne_nil nonempty with ⟨first, others, rfl⟩
  exact quiet_cons (quiet first rfl) _

/-- Up to the first comment a text is the same with comments stripped, and blanks come next. -/
theorem Reads.exists_quiet {behind : Behind} {segments : List Segment} {after : List Char}
    (reads : Reads behind segments after) :
    strippedOf segments = textOf segments ∨
      ∃ shared rest other, textOf segments = shared ++ rest ∧
        strippedOf segments = shared ++ other ∧ other ≠ [] ∧ Quiet other := by
  induction segments generalizing behind with
  | nil => exact .inl rfl
  | cons segment segments induction =>
      have later (same : segment.stripped = segment.text) :
          strippedOf (segment :: segments) = textOf (segment :: segments) ∨
            ∃ shared rest other, textOf (segment :: segments) = shared ++ rest ∧
              strippedOf (segment :: segments) = shared ++ other ∧ other ≠ [] ∧ Quiet other := by
        rw [strippedOf_cons, textOf_cons, same]
        rcases induction reads.2 with equal | ⟨shared, rest, other, whole, left, quiet⟩
        · exact .inl (by rw [equal])
        · exact .inr ⟨segment.text ++ shared, rest, other, by simp [whole], by simp [left], quiet⟩
      cases segment with
      | code character => exact later rfl
      | region kind text =>
          cases comment : kind.isComment with
          | false => exact later (Segment.stripped_of_literal comment)
          | true =>
              right
              rcases List.exists_cons_of_ne_nil reads.1.text_ne_nil with ⟨first, others, rfl⟩
              rw [strippedOf_cons, Segment.stripped_of_comment comment]
              exact ⟨[], _, _, rfl, rfl, by simp, quiet_cons (isInert_hide first) _⟩

theorem ends_of_blockEnd? {outer : Nat} {text inside after : List Char}
    (closed : blockEnd? outer text = some (inside, after)) : inside.getLast? = some '/' := by
  fun_induction blockEnd? outer text generalizing inside with
  | case1 => cases closed
  | case2 _ _ induction | case4 _ _ induction | case5 _ _ _ _ _ _ induction =>
      rcases inFront_eq_some.mp closed with ⟨more, later, rfl⟩
      rw [List.getLast?_append, induction later]
      rfl
  | case3 =>
      cases closed
      rfl

theorem ClosedRegion.fresh_or_lineFeed {behind : Behind} {kind : RegionKind}
    {text after : List Char} (closed : ClosedRegion behind kind text after)
    (comment : kind.isComment = true) :
    (behind.pushAll text).Fresh ∨ ∀ character ∈ after.head?, character = '\n' := by
  cases closed with
  | lineComment _ ends => exact .inr ends
  | blockComment closes =>
      left
      rcases List.getLast?_eq_some_iff.mp (ends_of_blockEnd? closes) with ⟨front, rfl⟩
      exact Behind.pushAll_fresh behind ('/' :: '*' :: front) (by decide)
  | string | quotedIdentifier | dollarString => cases comment

theorem Behind.hidden_fresh (behind : Behind) {text : List Char} (nonempty : text ≠ []) :
    (behind.pushAll (text.map hide)).Fresh := by
  rcases List.eq_nil_or_concat text with rfl | ⟨front, last, rfl⟩
  · exact absurd rfl nonempty
  · have inert := isInert_hide last
    simp only [isInert, Bool.and_eq_true, Bool.not_eq_true'] at inert
    rw [List.concat_eq_append, List.map_append]
    exact behind.pushAll_fresh _ inert.1

theorem Reads.literal_stripped {behind other : Behind} {kind : RegionKind} {text after : List Char}
    {segments : List Segment} (reads : Reads behind (.region kind text :: segments) after)
    (literal : kind.isComment = false) (agree : behind.Agrees other) :
    (Segment.region kind text).StandsAt other (strippedOf segments ++ after) := by
  rcases reads.2.exists_quiet with same | ⟨shared, rest, left, whole, stripped, nonempty, quiet⟩
  · rw [same]
    exact reads.1.congr agree
  · have more : textOf segments ≠ [] := by
      rw [← List.length_pos_iff, ← length_strippedOf, stripped, List.length_append]
      exact Nat.lt_of_lt_of_le (List.length_pos_iff.mpr nonempty) (Nat.le_add_left _ _)
    have closed := reads.1.closed (List.append_ne_nil_of_left_ne_nil more after)
    apply regionAt?_of_closedRegion
    apply (closed.standingBehind agree).followedBy
    rw [stripped]
    cases shared with
    | nil =>
        apply Quiet.mayEndBefore (quiet.append nonempty after)
        rintro rfl
        cases literal
    | cons first shared =>
        have next := closed.mayEndBefore
        rw [whole] at next
        cases kind <;> exact next

/-- Stripped of comments, a run of segments is cut in the same way. What stands behind matters only
if something comes next that looks back at it. -/
theorem Reads.bare {behind other : Behind} {segments : List Segment} {after : List Char}
    (reads : Reads behind segments after)
    (start : behind.Agrees other ∨ ∀ character ∈ (textOf segments ++ after).head?, character = '\n') :
    Reads other (bareOf segments) after := by
  induction segments generalizing behind other with
  | nil => trivial
  | cons segment segments induction =>
      cases segment with
      | code character =>
          have here : (Segment.code character).StandsAt other (textOf segments ++ after) := by
            rcases start with agree | lineFeed
            · exact reads.1.congr agree
            · rw [lineFeed character rfl]
              rfl
          have agree : (behind.push character).Agrees (other.push character) := by
            rcases start with agree | lineFeed
            · exact agree.push character
            · rw [lineFeed character rfl]
              exact (Behind.push_fresh _ (by decide)).agrees (Behind.push_fresh _ (by decide))
          change Reads other (.code character :: bareOf segments) after
          refine ⟨?_, induction reads.2 (.inl agree)⟩
          rw [textOf_bareOf]
          rcases reads.2.exists_quiet with
            same | ⟨shared, rest, left, whole, stripped, nonempty, quiet⟩
          · rwa [same]
          · rw [stripped, List.append_assoc]
            have code : regionAt? other (character :: (shared ++ (rest ++ after))) = none := by
              rw [← List.append_assoc, ← whole]
              exact here
            exact regionAt?_eq_none_of_quiet code (quiet.append nonempty after)
      | region kind text =>
          have agree : behind.Agrees other := by
            rcases start with agree | lineFeed
            · exact agree
            · rcases List.exists_cons_of_ne_nil reads.1.text_ne_nil with ⟨first, others, rfl⟩
              have found := reads.1
              rw [lineFeed first rfl] at found
              cases found
          cases comment : kind.isComment with
          | true =>
              rw [bareOf_cons, Segment.bare_of_comment comment]
              refine reads_append.mpr ⟨reads_hidden .., induction reads.2 ?_⟩
              by_cases more : textOf segments ++ after = []
              · right
                rw [more]
                exact fun _ member => by cases member
              · refine (reads.1.closed more).fresh_or_lineFeed comment |>.imp_left fun fresh => ?_
                refine fresh.agrees ?_
                rw [← Segment.bare_of_comment comment, Segment.textOf_bare,
                  Segment.stripped_of_comment comment]
                exact other.hidden_fresh reads.1.text_ne_nil
          | false =>
              rw [bareOf_cons, Segment.bare_of_literal comment]
              change Reads other (.region kind text :: bareOf segments) after
              refine ⟨?_, induction reads.2 (.inl (agree.pushAll text))⟩
              rw [textOf_bareOf]
              exact reads.literal_stripped comment agree

/-- The segments of a text without its comments. -/
theorem segments_stripComments (text : List Char) :
    segments (stripComments text) = bareOf (segments text) := by
  have reads := (reads_segments text).bare (.inl (Behind.Agrees.refl _))
  have cut := segments_textOf reads
  rwa [textOf_bareOf] at cut

theorem mask_stripComments (text : List Char) : mask (stripComments text) = mask text := by
  rw [mask, segments_stripComments]
  exact maskOf_bareOf _

theorem stripComments_stripComments (text : List Char) :
    stripComments (stripComments text) = stripComments text := by
  rw [stripComments, segments_stripComments]
  exact strippedOf_bareOf _

end TableSchema.Sql
