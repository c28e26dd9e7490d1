import TableSchema.Proofs.Masking

/-! # Regions by their places

The regions of a text, as a scan lists them, are those of its segments one after the other. Of a
part that is cut off at quiet characters the scan finds the same regions as of the whole.
-/

namespace TableSchema.Sql

open Text

namespace Region

def shift (region : Region) (distance : Nat) : Region :=
  ⟨region.kind, region.start + distance, region.stop + distance⟩

def Within (region : Region) (start stop : Nat) : Prop := start ≤ region.start ∧ region.stop ≤ stop

instance (region : Region) (start stop : Nat) : Decidable (region.Within start stop) :=
  inferInstanceAs (Decidable (_ ∧ _))

end Region

/-- Whether nothing is left open at the end of a text: no region grows when a line feed follows.
Only a line comment ends at a line feed, so all other regions are closed in the text. -/
def Closed (text : List Char) : Prop := scan (text ++ ['\n']) = scan text

instance (text : List Char) : Decidable (Closed text) := inferInstanceAs (Decidable (_ = _))

example : ¬ Closed "'a".toList ∧ Closed "'a' -- b".toList := by decide

theorem regionsFrom_append (start : Nat) (first second : List Segment) :
    regionsFrom start (first ++ second) =
      regionsFrom start first ++ regionsFrom (start + (textOf first).length) second := by
  induction first generalizing start with
  | nil => rfl
  | cons segment segments induction =>
      cases segment with
      | code character | region kind text =>
          rw [List.cons_append, regionsFrom, regionsFrom, induction, textOf_cons, List.length_append,
            Nat.add_assoc]
          rfl

theorem regionsFrom_add (start distance : Nat) (segments : List Segment) :
    regionsFrom (start + distance) segments =
      (regionsFrom start segments).map (·.shift distance) := by
  induction segments generalizing start with
  | nil => rfl
  | cons segment segments induction =>
      cases segment with
      | code character =>
          rw [regionsFrom, regionsFrom, Nat.add_right_comm]
          exact induction (start + 1)
      | region kind text =>
          rw [regionsFrom, regionsFrom, Nat.add_right_comm, List.map_cons]
          exact congrArg _ (induction _)

theorem exists_split_of_mem_regionsFrom {start : Nat} {segments : List Segment} {region : Region}
    (member : region ∈ regionsFrom start segments) :
    ∃ before token after, segments = before ++ .region region.kind token :: after ∧
      region.start = start + (textOf before).length ∧
      region.stop = region.start + token.length := by
  induction segments generalizing start with
  | nil => cases member
  | cons segment segments induction =>
      have later (member : region ∈ regionsFrom (start + segment.text.length) segments) :
          ∃ before token after, segment :: segments = before ++ .region region.kind token :: after ∧
            region.start = start + (textOf before).length ∧
            region.stop = region.start + token.length := by
        rcases induction member with ⟨before, token, after, rfl, starts, stops⟩
        refine ⟨segment :: before, token, after, rfl, ?_, stops⟩
        rw [starts, textOf_cons, List.length_append, Nat.add_assoc]
      cases segment with
      | code character => exact later member
      | region kind token =>
          rcases List.mem_cons.mp member with rfl | member
          · exact ⟨[], token, segments, rfl, rfl, rfl⟩
          · exact later member

theorem bounds_of_mem_regionsFrom {start : Nat} {segments : List Segment} {region : Region}
    (member : region ∈ regionsFrom start segments) :
    start ≤ region.start ∧ region.start ≤ region.stop ∧
      region.stop ≤ start + (textOf segments).length := by
  rcases exists_split_of_mem_regionsFrom member with ⟨before, token, after, rfl, starts, stops⟩
  rw [textOf_append, textOf_cons, Segment.text_region, List.length_append, List.length_append]
  omega

theorem bounds_of_mem_scan {text : List Char} {region : Region} (member : region ∈ scan text) :
    region.start ≤ region.stop ∧ region.stop ≤ text.length := by
  have bounds := bounds_of_mem_regionsFrom member
  rw [textOf, text_segments, Nat.zero_add] at bounds
  exact bounds.2

/-! ## Parts of a text -/

theorem Reads.alone {behind : Behind} {segments : List Segment} {after other : List Char}
    (reads : Reads behind segments after) (fresh : behind.Fresh) (quiet : Quiet other)
    (last : ∀ kind text, segments.getLast? = some (.region kind text) →
      after ≠ [] ∧ kind.MayEndBefore other) : Reads .start segments other :=
  (reads.followedBy quiet last).congr (fresh.agrees Behind.start_fresh)

theorem closed_of_reads {segments : List Segment} (reads : Reads .start segments ['\n']) :
    Closed (textOf segments) := by
  have whole : Reads .start (segments ++ [.code '\n']) [] :=
    reads_append.mpr ⟨reads, by simp [Reads, Segment.StandsAt, regionAt?]⟩
  have alone : Reads .start segments [] :=
    reads.followedBy quiet_nil fun kind _ _ =>
      ⟨by simp, by cases kind <;> simp [RegionKind.MayEndBefore]⟩
  have longer := segments_textOf whole
  rw [textOf_append] at longer
  rw [Closed, scan, scan, segments_textOf alone]
  change regionsFrom 0 (Sql.segments (textOf segments ++ textOf [.code '\n'])) = _
  rw [longer, regionsFrom_append]
  exact List.append_nil _

end TableSchema.Sql
