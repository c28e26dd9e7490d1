import TableSchema.Proofs.Regions

/-! # Runs of segments

The segments of a text are cut off one by one, so any run of them can be looked at by itself: it
is cut in the same way again as long as what stands around it stays quiet.
-/

namespace TableSchema.Sql

open Text

def textOf (segments : List Segment) : List Char := segments.flatMap Segment.text

@[simp] theorem textOf_nil : textOf [] = [] := rfl

@[simp] theorem textOf_cons (segment : Segment) (segments : List Segment) :
    textOf (segment :: segments) = segment.text ++ textOf segments := rfl

@[simp] theorem textOf_append (first second : List Segment) :
    textOf (first ++ second) = textOf first ++ textOf second := List.flatMap_append

@[simp] theorem textOf_map_code (text : List Char) : textOf (text.map .code) = text := by
  simp [textOf, List.flatMap_map, Segment.text]

namespace Segment

@[simp] theorem text_code (character : Char) : (code character).text = [character] := rfl

@[simp] theorem text_region (kind : RegionKind) (text : List Char) :
    (region kind text).text = text := rfl

def StandsAt (behind : Behind) (after : List Char) : Segment → Prop
  | .code character => regionAt? behind (character :: after) = none
  | .region kind text => regionAt? behind (text ++ after) = some (kind, text, after)

/-- Whether nothing is left open where the segment ends, if `after` follows it. -/
def MayEndBefore (after : List Char) : Segment → Prop
  | .code _ => True
  | .region kind _ => kind.MayEndBefore after

namespace StandsAt

variable {behind : Behind} {after : List Char} {segment : Segment}

theorem congr {other : Behind} (stands : segment.StandsAt behind after)
    (agree : behind.Agrees other) : segment.StandsAt other after := by
  cases segment with
  | code character => exact (regionAt?_congr agree _).symm.trans stands
  | region kind text => exact (regionAt?_congr agree _).symm.trans stands

theorem text_ne_nil (stands : segment.StandsAt behind after) : segment.text ≠ [] := by
  cases segment with
  | code character => simp
  | region kind text => exact ne_nil_of_regionAt? stands

theorem closed {kind : RegionKind} {text : List Char}
    (stands : (region kind text).StandsAt behind after) (more : after ≠ []) :
    ClosedRegion behind kind text after :=
  closedRegion_of_regionAt? stands more

theorem followedBy {text rest other : List Char}
    (stands : segment.StandsAt behind (text ++ rest)) (quiet : Quiet other)
    (more : ∀ kind inside, segment = .region kind inside → text ++ rest ≠ [])
    (ends : text = [] → segment.MayEndBefore other) :
    segment.StandsAt behind (text ++ other) := by
  cases segment with
  | code character => exact regionAt?_eq_none_of_quiet stands quiet
  | region kind inside =>
      have closed := stands.closed (more kind inside rfl)
      apply regionAt?_of_closedRegion
      apply closed.followedBy
      cases text with
      | nil => exact ends rfl
      | cons character text =>
          have next := closed.mayEndBefore
          cases kind <;> exact next

end StandsAt

end Segment

/-! ## Reading on -/

/-- The segments are cut off one after the other from a text that goes on with `after`. -/
def Reads (behind : Behind) : List Segment → (after : List Char) → Prop
  | [], _ => True
  | segment :: segments, after =>
      segment.StandsAt behind (textOf segments ++ after) ∧
        Reads (behind.pushAll segment.text) segments after

theorem reads_append {behind : Behind} {first second : List Segment} {after : List Char} :
    Reads behind (first ++ second) after ↔
      Reads behind first (textOf second ++ after) ∧
        Reads (behind.pushAll (textOf first)) second after := by
  induction first generalizing behind with
  | nil => simp [Reads]
  | cons segment segments induction =>
      simp only [List.cons_append, Reads, textOf_append, List.append_assoc, textOf_cons,
        Behind.pushAll_append, induction, and_assoc]

namespace Reads

variable {behind : Behind} {segments : List Segment} {after : List Char}

theorem congr {other : Behind} (reads : Reads behind segments after)
    (agree : behind.Agrees other) : Reads other segments after := by
  induction segments generalizing behind other with
  | nil => trivial
  | cons segment segments induction =>
      exact ⟨reads.1.congr agree, induction reads.2 (agree.pushAll _)⟩

theorem textOf_ne_nil (reads : Reads behind segments after) (more : segments ≠ []) :
    textOf segments ≠ [] := by
  cases segments with
  | nil => exact absurd rfl more
  | cons segment segments =>
      rw [textOf_cons]
      exact List.append_ne_nil_of_left_ne_nil reads.1.text_ne_nil _

/-- What follows a run of segments may be exchanged for a quiet text, unless the last segment is a
region that the exchange would reach. -/
theorem followedBy {other : List Char} (reads : Reads behind segments after) (quiet : Quiet other)
    (last : ∀ kind text, segments.getLast? = some (.region kind text) →
      after ≠ [] ∧ kind.MayEndBefore other) :
    Reads behind segments other := by
  induction segments generalizing behind with
  | nil => trivial
  | cons segment segments induction =>
      cases segments with
      | nil =>
          refine ⟨?_, trivial⟩
          apply reads.1.followedBy quiet
          · rintro kind text rfl
            simpa using (last kind text rfl).1
          · intro _
            cases segment with
            | code character => trivial
            | region kind text => exact (last kind text rfl).2
      | cons next segments =>
          have more := reads.2.textOf_ne_nil (by simp)
          refine ⟨?_, induction reads.2 fun kind text ends =>
            last kind text (by simpa using ends)⟩
          apply reads.1.followedBy quiet
          · intro _ _ _
            exact List.append_ne_nil_of_left_ne_nil more _
          · exact fun nothing => absurd nothing more

end Reads

/-! ## Segments of a text -/

/-- The characters that have been cut already are only looked back at. -/
theorem segmentsAfter_eq (behind : Behind) (skip : Nat) (text : List Char) :
    segmentsAfter behind skip text =
      segmentsAfter (behind.pushAll (text.take skip)) 0 (text.drop skip) := by
  induction text generalizing behind skip with
  | nil => simp [segmentsAfter]
  | cons character rest induction =>
      cases skip with
      | zero => rfl
      | succ skip =>
          rw [segmentsAfter, induction]
          rfl

theorem segmentsAfter_of_standsAt {behind : Behind} {segment : Segment} {after : List Char}
    (stands : segment.StandsAt behind after) :
    segmentsAfter behind 0 (segment.text ++ after) =
      segment :: segmentsAfter (behind.pushAll segment.text) 0 after := by
  cases segment with
  | code character =>
      simp only [Segment.text_code, List.cons_append, List.nil_append]
      rw [segmentsAfter, show regionAt? behind (character :: after) = none from stands]
      rfl
  | region kind text =>
      rcases List.exists_cons_of_ne_nil stands.text_ne_nil with ⟨first, others, rfl⟩
      have found : regionAt? behind (first :: (others ++ after)) =
        some (kind, first :: others, after) := stands
      simp only [Segment.text_region, List.cons_append]
      rw [segmentsAfter, found]
      simp only [List.length_cons, Nat.add_sub_cancel]
      rw [segmentsAfter_eq]
      simp

theorem segmentsAfter_of_regionAt? {behind : Behind} {kind : RegionKind}
    {text token rest : List Char} (found : regionAt? behind text = some (kind, token, rest)) :
    segmentsAfter behind 0 text =
      .region kind token :: segmentsAfter (behind.pushAll token) 0 rest := by
  have whole : token ++ rest = text := append_of_regionAt? found
  rw [← whole] at found ⊢
  have stands : (Segment.region kind token).StandsAt behind rest := found
  exact segmentsAfter_of_standsAt stands

theorem segmentsAfter_of_reads {behind : Behind} {segments : List Segment} {after : List Char}
    (reads : Reads behind segments after) :
    segmentsAfter behind 0 (textOf segments ++ after) =
      segments ++ segmentsAfter (behind.pushAll (textOf segments)) 0 after := by
  induction segments generalizing behind with
  | nil => rfl
  | cons segment segments induction =>
      rw [textOf_cons, List.append_assoc, segmentsAfter_of_standsAt reads.1, induction reads.2,
        Behind.pushAll_append]
      rfl

theorem reads_segmentsAfter (behind : Behind) (text : List Char) :
    Reads behind (segmentsAfter behind 0 text) [] := by
  generalize long : text.length = length
  induction length using Nat.strongRecOn generalizing behind text with
  | ind length induction =>
      cases text with
      | nil => trivial
      | cons character rest =>
          subst long
          have step (segment : Segment) (after : List Char)
              (stands : segment.StandsAt behind after)
              (whole : segment.text ++ after = character :: rest) :
              Reads behind (segmentsAfter behind 0 (character :: rest)) [] := by
            rw [← whole, segmentsAfter_of_standsAt stands]
            have shorter : after.length < (character :: rest).length := by
              rw [← whole, List.length_append]
              have := List.length_pos_iff.mpr stands.text_ne_nil
              omega
            refine ⟨?_, induction _ shorter _ _ rfl⟩
            rwa [List.append_nil, textOf, text_segmentsAfter, List.drop_zero]
          cases found : regionAt? behind (character :: rest) with
          | none => exact step (.code character) rest found rfl
          | some split =>
              rcases split with ⟨kind, text, after⟩
              have whole : text ++ after = character :: rest := append_of_regionAt? found
              exact step (.region kind text) after
                (show regionAt? behind (text ++ after) = _ by rw [whole, found]) whole

theorem reads_segments (text : List Char) : Reads .start (segments text) [] :=
  reads_segmentsAfter .start text

theorem segments_textOf {segments : List Segment} (reads : Reads .start segments []) :
    Sql.segments (textOf segments) = segments := by
  have cut := segmentsAfter_of_reads reads
  rw [List.append_nil] at cut
  rw [Sql.segments, cut]
  simp [segmentsAfter]

end TableSchema.Sql
