import TableSchema.Proofs.Bodies
import TableSchema.Proofs.Tokens

/-! # Scans are tokenisations

The regions of a scan are the tokens of the text from left to right, and no token starts between
them. Nothing else is a tokenisation of the text.
-/

namespace TableSchema.Sql

open Text

namespace Region

def Covers (region : Region) (place : Nat) : Prop := region.start ≤ place ∧ place < region.stop

/-- The characters of the region are a token of its kind, where they stand in the text. -/
def IsTokenOf (text : List Char) (region : Region) : Prop :=
  IsToken (text.take region.start) region.kind (slice text region.start region.stop)
    (text.drop region.stop)

theorem IsTokenOf.opens {text : List Char} {region : Region} (isToken : region.IsTokenOf text)
    (forward : region.start ≤ region.stop) :
    Opens (text.take region.start) region.kind (text.drop region.start) := by
  have opens := IsToken.opens isToken
  have stop : region.stop = region.start + (region.stop - region.start) := by omega
  rwa [slice, stop, ← List.drop_drop, Nat.add_sub_cancel_left, List.take_append_drop] at opens

end Region

/-- The regions are the tokens of the text from place `start` on, from left to right, and all of
them. -/
structure IsTokenisation (text : List Char) (start : Nat) (regions : List Region) : Prop where
  nonempty : ∀ region ∈ regions, region.start < region.stop
  within : ∀ region ∈ regions, region.Within start text.length
  increasing : regions.Pairwise fun first second => first.stop ≤ second.start
  tokens : ∀ region ∈ regions, region.IsTokenOf text
  /-- Where no region is, nothing starts like a token. -/
  complete : ∀ place, start ≤ place → place < text.length →
    (∀ region ∈ regions, ¬ region.Covers place) →
      ∀ kind, ¬ Opens (text.take place) kind (text.drop place)

/-! ## Going on

A tokenisation goes on behind a character where no token starts, and behind the token that starts
at its place.
-/

namespace IsTokenisation

variable {before token after : List Char} {kind : RegionKind} {regions : List Region}

theorem end_iff {text : List Char} : IsTokenisation text text.length regions ↔ regions = [] := by
  constructor
  · intro tokenisation
    cases regions with
    | nil => rfl
    | cons region regions =>
        have nonempty := tokenisation.nonempty region (List.mem_cons_self ..)
        have within := tokenisation.within region (List.mem_cons_self ..)
        exact absurd within (by rw [Region.Within]; omega)
  · rintro rfl
    exact ⟨by simp, by simp, .nil, by simp, fun place late early => by omega⟩

theorem code_iff {character : Char} (code : ∀ kind, ¬ Opens before kind (character :: after)) :
    IsTokenisation (before ++ character :: after) before.length regions ↔
      IsTokenisation (before ++ character :: after) (before.length + 1) regions := by
  have taken : (before ++ character :: after).take before.length = before := List.take_left
  have dropped : (before ++ character :: after).drop before.length = character :: after :=
    List.drop_left
  constructor
  · intro tokenisation
    refine ⟨tokenisation.nonempty, fun region member => ?_, tokenisation.increasing,
      tokenisation.tokens, fun place late => tokenisation.complete place (by omega)⟩
    have within := tokenisation.within region member
    refine ⟨Nat.lt_of_le_of_ne within.1 fun here => ?_, within.2⟩
    have opens := (tokenisation.tokens region member).opens
      (Nat.le_of_lt (tokenisation.nonempty region member))
    rw [← here, taken, dropped] at opens
    exact code _ opens
  · intro tokenisation
    refine ⟨tokenisation.nonempty, fun region member => ?_, tokenisation.increasing,
      tokenisation.tokens, fun place late early free => ?_⟩
    · have within := tokenisation.within region member
      exact ⟨Nat.le_of_succ_le within.1, within.2⟩
    · rcases Nat.eq_or_lt_of_le late with rfl | late
      · rwa [taken, dropped]
      · exact tokenisation.complete place late early free

theorem eq_of_front {region : Region} (isToken : IsToken before kind token after)
    (isToken' : region.IsTokenOf (before ++ (token ++ after)))
    (starts : region.start = before.length) (forward : region.start ≤ region.stop)
    (inside : region.stop ≤ (before ++ (token ++ after)).length) :
    region = ⟨kind, before.length, before.length + token.length⟩ := by
  rcases region with ⟨kind', start, stop⟩
  simp only at starts forward inside
  subst starts
  have front : (slice (before ++ (token ++ after)) before.length stop) ++
      (before ++ (token ++ after)).drop stop = token ++ after := by
    have stops : stop = before.length + (stop - before.length) := by omega
    rw [slice, stops, ← List.drop_drop, Nat.add_sub_cancel_left, List.drop_left,
      List.take_append_drop]
  rw [Region.IsTokenOf] at isToken'
  simp only [List.take_left] at isToken'
  -- Both are what is read at this place, which is one region.
  have found := regionAt?_eq_some_iff.mpr ⟨front, isToken'⟩
  rw [regionAt?_eq_some_iff.mpr ⟨rfl, isToken⟩] at found
  simp only [Option.some.injEq, Prod.mk.injEq] at found
  rcases found with ⟨rfl, same, _⟩
  have length : token.length = stop - before.length := by
    rw [same, slice, List.length_take, List.length_drop]
    omega
  rw [length, Nat.add_sub_cancel' forward]

theorem exists_region {text : List Char} {start : Nat}
    (tokenisation : IsTokenisation text start regions) (early : start < text.length)
    (opens : Opens (text.take start) kind (text.drop start)) :
    ∃ region rest, regions = region :: rest ∧ region.start = start := by
  have covered : ∃ region ∈ regions, region.Covers start := by
    by_contra free
    exact tokenisation.complete start (Nat.le_refl _) early (by simpa using free) kind opens
  rcases covered with ⟨region, member, covers⟩
  cases regions with
  | nil => cases member
  | cons first rest =>
      rcases List.mem_cons.mp member with rfl | member
      · have within := tokenisation.within region (List.mem_cons_self ..)
        exact ⟨region, rest, rfl, Nat.le_antisymm covers.1 within.1⟩
      · -- A region behind the first one starts too late to cover the place.
        have apart := (List.pairwise_cons.mp tokenisation.increasing).1 region member
        have nonempty := tokenisation.nonempty first (List.mem_cons_self ..)
        have within := (tokenisation.within first (List.mem_cons_self ..)).1
        have reaches := covers.1
        omega

theorem tail {text : List Char} {start : Nat} {region : Region}
    (tokenisation : IsTokenisation text start (region :: regions)) :
    IsTokenisation text region.stop regions where
  nonempty other member := tokenisation.nonempty other (List.mem_cons_of_mem _ member)
  within other member := ⟨(List.pairwise_cons.mp tokenisation.increasing).1 other member,
    (tokenisation.within other (List.mem_cons_of_mem _ member)).2⟩
  increasing := (List.pairwise_cons.mp tokenisation.increasing).2
  tokens other member := tokenisation.tokens other (List.mem_cons_of_mem _ member)
  complete := by
    intro place late early free
    have nonempty := tokenisation.nonempty region (List.mem_cons_self ..)
    have within := (tokenisation.within region (List.mem_cons_self ..)).1
    refine tokenisation.complete place (by omega) early (List.forall_mem_cons.mpr ⟨?_, free⟩)
    exact fun covers => Nat.not_lt.mpr late covers.2

theorem cons {text : List Char} {region : Region} (isToken : region.IsTokenOf text)
    (forward : region.start < region.stop) (inside : region.stop ≤ text.length)
    (tokenisation : IsTokenisation text region.stop regions) :
    IsTokenisation text region.start (region :: regions) where
  nonempty := List.forall_mem_cons.mpr ⟨forward, tokenisation.nonempty⟩
  within := by
    refine List.forall_mem_cons.mpr ⟨⟨Nat.le_refl _, inside⟩, fun other member => ?_⟩
    have within := tokenisation.within other member
    exact ⟨Nat.le_of_lt (Nat.lt_of_lt_of_le forward within.1), within.2⟩
  increasing := List.pairwise_cons.mpr
    ⟨fun other member => (tokenisation.within other member).1, tokenisation.increasing⟩
  tokens := List.forall_mem_cons.mpr ⟨isToken, tokenisation.tokens⟩
  complete := by
    intro place late early free
    rcases List.forall_mem_cons.mp free with ⟨here, free⟩
    by_cases before : place < region.stop
    · exact absurd ⟨late, before⟩ here
    · exact tokenisation.complete place (Nat.le_of_not_lt before) early free

theorem token_iff (isToken : IsToken before kind token after) (nonempty : token ≠ []) :
    IsTokenisation (before ++ (token ++ after)) before.length regions ↔
      ∃ rest, regions = ⟨kind, before.length, before.length + token.length⟩ :: rest ∧
        IsTokenisation (before ++ (token ++ after)) (before.length + token.length) rest := by
  have taken : (before ++ (token ++ after)).take before.length = before := List.take_left
  have dropped : (before ++ (token ++ after)).drop before.length = token ++ after := List.drop_left
  have long : before.length + token.length ≤ (before ++ (token ++ after)).length := by simp
  have forward := Nat.lt_add_of_pos_right (n := before.length) (List.length_pos_iff.mpr nonempty)
  constructor
  · intro tokenisation
    have opens : Opens ((before ++ (token ++ after)).take before.length) kind
        ((before ++ (token ++ after)).drop before.length) := by
      rw [taken, dropped]
      exact isToken.opens
    rcases tokenisation.exists_region (Nat.lt_of_lt_of_le forward long) opens with
      ⟨region, rest, rfl, starts⟩
    have forward := tokenisation.nonempty region (List.mem_cons_self ..)
    have within := tokenisation.within region (List.mem_cons_self ..)
    have equal := eq_of_front isToken (tokenisation.tokens region (List.mem_cons_self ..)) starts
      (Nat.le_of_lt forward) within.2
    subst equal
    exact ⟨rest, rfl, tokenisation.tail⟩
  · rintro ⟨rest, rfl, tokenisation⟩
    have behind : (before ++ (token ++ after)).drop (before.length + token.length) = after := by
      rw [← List.drop_drop, dropped, List.drop_left]
    have here : Region.IsTokenOf (before ++ (token ++ after))
        ⟨kind, before.length, before.length + token.length⟩ := by
      rw [Region.IsTokenOf, taken, behind, slice_append]
      exact isToken
    exact cons here forward long tokenisation

end IsTokenisation

/-! ## Scans -/

/-- The regions of a run of segments are what tokenises its text, whatever stands before it. -/
theorem isTokenisation_iff_regionsFrom {before : List Char} {segments : List Segment}
    {regions : List Region} (reads : Reads (.afterText before) segments []) :
    IsTokenisation (before ++ textOf segments) before.length regions ↔
      regions = regionsFrom before.length segments := by
  -- The text before grows by a segment at a time: code leaves the regions as they are, and a region
  -- is the first of them.
  induction segments generalizing before regions with
  | nil =>
      rw [textOf_nil, List.append_nil]
      exact IsTokenisation.end_iff
  | cons segment segments induction =>
      rcases reads with ⟨stands, later⟩
      rw [Behind.afterText_append] at later
      have step := @induction (before ++ segment.text)
      simp only [List.length_append, List.append_assoc] at step
      rw [List.append_nil] at stands
      cases segment with
      | code character =>
          have code := regionAt?_eq_none_iff.mp stands
          rw [textOf_cons, regionsFrom]
          exact (IsTokenisation.code_iff code).trans (step later)
      | region kind text =>
          have isToken := (regionAt?_eq_some_iff.mp stands).2
          rw [textOf_cons, Segment.text_region, regionsFrom,
            IsTokenisation.token_iff isToken stands.text_ne_nil]
          constructor
          · rintro ⟨rest, rfl, tokenisation⟩
            rw [(step later).mp tokenisation]
            rfl
          · rintro rfl
            exact ⟨_, rfl, (step later).mpr rfl⟩

/-- The scan of a text is its tokenisation from left to right, and the only one: every region is
one token of its kind, regions neither overlap nor go back, and no token starts outside them. -/
theorem isTokenisation_iff_eq_scan (text : List Char) (regions : List Region) :
    IsTokenisation text 0 regions ↔ regions = scan text := by
  have reads : Reads (.afterText []) (segments text) [] := reads_segments text
  have whole : IsTokenisation ([] ++ textOf (segments text)) 0 regions ↔ regions = scan text :=
    isTokenisation_iff_regionsFrom reads
  rwa [List.nil_append, textOf, text_segments] at whole

end TableSchema.Sql
