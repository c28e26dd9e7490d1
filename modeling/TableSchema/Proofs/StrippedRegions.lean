import TableSchema.Proofs.Bodies
import TableSchema.Proofs.SelfContained

/-! # Regions without comments

Stripping comments takes their regions away and nothing else: every literal is read at the same
place again, with the same characters, and no blank that is left for a comment opens anything.
-/

namespace TableSchema.Sql

open Text

theorem regionsFrom_bareOf (start : Nat) (segments : List Segment) :
    regionsFrom start (bareOf segments) =
      (regionsFrom start segments).filter (·.kind.isLiteral) := by
  induction segments generalizing start with
  | nil => rfl
  | cons segment segments induction =>
      cases segment with
      | code character => exact induction (start + 1)
      | region kind token =>
          rw [bareOf_cons, regionsFrom_append, Segment.textOf_bare, Segment.length_stripped,
            induction, regionsFrom, List.filter_cons]
          cases comment : kind.isComment with
          | true =>
              -- The blanks in the place of the comment hold no region, but they take its room.
              rw [Segment.bare_of_comment comment, SelfContained.regionsFrom_map_code]
              simp [RegionKind.isLiteral, comment]
          | false =>
              rw [Segment.bare_of_literal comment]
              simp [RegionKind.isLiteral, comment, regionsFrom]

/-- Without the comments of a text only their regions are missing. -/
theorem scan_stripComments (text : List Char) :
    scan (stripComments text) = (scan text).filter (·.kind.isLiteral) := by
  rw [scan, segments_stripComments, regionsFrom_bareOf, scan]

theorem slice_stripComments_of_literal {text : List Char} {region : Region}
    (member : region ∈ scan text) (literal : region.kind.isLiteral = true) :
    slice (stripComments text) region.start region.stop = slice text region.start region.stop := by
  obtain ⟨before, token, after, cut, starts, stops⟩ := exists_split_of_mem_regionsFrom member
  have shown (view : Segment → List Char)
      (same : ∀ segment, (view segment).length = segment.text.length) :
      slice ((segments text).flatMap view) region.start region.stop =
        view (.region region.kind token) := by
    have part := slice_flatMap same before [.region region.kind token] after
    rw [List.singleton_append, ← cut] at part
    simpa [starts, stops] using part
  have plain := shown Segment.text fun _ => rfl
  rw [text_segments] at plain
  rw [plain, stripComments, shown Segment.stripped Segment.length_stripped]
  apply Segment.stripped_of_literal
  simpa [RegionKind.isLiteral] using literal

/-- Stripped of its comments, a text has exactly its literals for regions, at the same places and
with the same characters. So there is nothing left to strip, and the mask is the same. -/
theorem literals_stay_without_comments (text : List Char) :
    scan (stripComments text) = (scan text).filter (·.kind.isLiteral) ∧
      (∀ region ∈ scan (stripComments text),
        slice (stripComments text) region.start region.stop =
          slice text region.start region.stop) ∧
      stripComments (stripComments text) = stripComments text ∧
      mask (stripComments text) = mask text := by
  refine ⟨scan_stripComments text, ?_, stripComments_stripComments text, mask_stripComments text⟩
  intro region member
  rw [scan_stripComments] at member
  obtain ⟨listed, literal⟩ := List.mem_filter.mp member
  exact slice_stripComments_of_literal listed literal

/-- The dash, the letter and the dollar sign that comments have kept apart from what follows them
open nothing when the comments are gone. -/
example : scan (stripComments "-/**/-'a'E/**/'\\'$/*'*/$--'".toList) =
    [⟨.string, 6, 9⟩, ⟨.string, 14, 17⟩] := by decide

end TableSchema.Sql
