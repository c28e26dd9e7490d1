import TableSchema.Proofs.SelfContained
import TableSchema.Proofs.Tokens

/-! # Scans of longer texts

A text is scanned from left to right, so what is put behind it can only change what touches its end.
A region that ends before the text does stays as it is. One that reaches the end still starts in the
same way and may end further on, and characters of code at the end may turn out to open one.
-/

namespace TableSchema.Sql

open Text

/-! ## One region -/

section

variable {behind : Behind} {before token after text rest more : List Char} {kind : RegionKind}

theorem RegionKind.mayEndBefore_congr {first second : List Char} (same : first.head? = second.head?)
    (ends : kind.MayEndBefore first) : kind.MayEndBefore second := by
  cases kind with
  | lineComment | string | quotedIdentifier =>
      exact fun character next => ends character (same ▸ next)
  | blockComment | dollarString => trivial

/-- A region that something stands behind is the same whatever follows further on. -/
theorem regionAt?_append_iff (nonempty : after ≠ []) (more : List Char) :
    regionAt? behind (token ++ (after ++ more)) = some (kind, token, after ++ more) ↔
      regionAt? behind (token ++ after) = some (kind, token, after) := by
  have next : (after ++ more).head? = after.head? := by
    obtain ⟨first, others, rfl⟩ := List.exists_cons_of_ne_nil nonempty
    rfl
  constructor
  · intro found
    have closed := closedRegion_of_regionAt? found (List.append_ne_nil_of_left_ne_nil nonempty more)
    apply regionAt?_of_closedRegion
    exact closed.followedBy (RegionKind.mayEndBefore_congr next closed.mayEndBefore)
  · intro found
    have closed := closedRegion_of_regionAt? found nonempty
    apply regionAt?_of_closedRegion
    exact closed.followedBy (RegionKind.mayEndBefore_congr next.symm closed.mayEndBefore)

theorem length_le_of_regionAt?_append
    (found : regionAt? behind (text ++ more) = some (kind, token, rest))
    (changed : ∀ left, left ≠ [] → regionAt? behind text ≠ some (kind, token, left)) :
    text.length ≤ token.length := by
  apply Nat.le_of_not_lt
  intro short
  have whole : token ++ rest = text ++ more := append_of_regionAt? found
  obtain ⟨left, rfl⟩ : token <+: text :=
    List.prefix_of_prefix_length_le ⟨rest, whole⟩ (List.prefix_append text more)
      (Nat.le_of_lt short)
  have nonempty : left ≠ [] := by
    rintro rfl
    simp at short
  obtain rfl : rest = left ++ more := by
    rw [List.append_assoc] at whole
    exact List.append_cancel_left whole
  rw [List.append_assoc, regionAt?_append_iff nonempty] at found
  exact changed left nonempty found

theorem Opens.append (opens : Opens before kind text) (more : List Char) :
    Opens before kind (text ++ more) := by
  cases opens with
  | lineComment rest => exact .lineComment _
  | blockComment rest => exact .blockComment _
  | string rest => exact .string _
  | quotedIdentifier rest => exact .quotedIdentifier _
  | dollarString isTag free rest =>
      rw [List.append_assoc]
      exact .dollarString isTag free _

theorem exists_regionAt?_append
    (found : regionAt? (.afterText before) text = some (kind, token, after)) (more : List Char) :
    ∃ longer rest, regionAt? (.afterText before) (text ++ more) = some (kind, longer, rest) := by
  obtain ⟨rfl, isToken⟩ := regionAt?_eq_some_iff.mp found
  have opens := isToken.opens.append more
  cases longer : regionAt? (.afterText before) (token ++ after ++ more) with
  | none => exact absurd opens (regionAt?_eq_none_iff.mp longer kind)
  | some split =>
      obtain ⟨kind', longer', rest⟩ := split
      obtain ⟨rfl, -⟩ := opens.regionAt?_eq_some_iff.mp longer
      exact ⟨longer', rest, rfl⟩

/-- A character of code that opens a token once more text follows is the last one, or the dollar
sign of a tag that the end of the text cuts off. -/
theorem isWord_of_opens {character : Char}
    (code : ∀ kind, ¬ Opens before kind (character :: text))
    (opens : Opens before kind (character :: (text ++ more))) :
    ∀ letter ∈ text, isWord letter = true := by
  generalize same : character :: (text ++ more) = whole at opens
  cases opens with
  | lineComment rest =>
      cases text with
      | nil => simp
      | cons letter others =>
          cases same
          exact absurd (.lineComment others) (code _)
  | blockComment rest =>
      cases text with
      | nil => simp
      | cons letter others =>
          cases same
          exact absurd (.blockComment others) (code _)
  | string rest =>
      cases same
      exact absurd (.string text) (code _)
  | quotedIdentifier rest =>
      cases same
      exact absurd (.quotedIdentifier text) (code _)
  | dollarString isTag free rest =>
      obtain ⟨name, rfl, starts, words⟩ := isTag
      obtain ⟨rfl, inside⟩ := List.cons.inj same
      rcases List.append_eq_append_iff.mp inside with ⟨left, cutOff, -⟩ | ⟨left, rfl, -⟩
      · rcases List.eq_nil_or_concat left with rfl | ⟨front, last, rfl⟩
        · rw [List.append_nil] at cutOff
          subst cutOff
          have opens := Opens.dollarString ⟨name, rfl, starts, words⟩ free []
          rw [List.append_nil] at opens
          exact absurd opens (code _)
        · rw [List.concat_eq_append, ← List.append_assoc] at cutOff
          obtain ⟨rfl, -⟩ := List.append_inj' cutOff rfl
          exact fun letter member => words letter (List.mem_append_left _ member)
      · exact absurd (.dollarString ⟨name, rfl, starts, words⟩ free left) (code _)

end

/-! ## All regions -/

/-- What becomes of the regions of a text that ends at `stop` when more text follows. -/
inductive Continues (stop : Nat) : List Region → List Region → Prop
  /-- Behind all regions of the text others may stand, none of which ends earlier than it. -/
  | behind {later : List Region} (reach : ∀ region ∈ later, stop ≤ region.stop) :
      Continues stop [] later
  /-- A region that reaches the end of the text still starts in the same way. -/
  | reaching {region longer : Region} {later : List Region} (ends : region.stop = stop)
      (kind : longer.kind = region.kind) (start : longer.start = region.start)
      (reach : ∀ other ∈ longer :: later, stop ≤ other.stop) :
      Continues stop [region] (longer :: later)
  /-- A region that ends before the text does stays. -/
  | settled {region : Region} {regions later : List Region} (ends : region.stop < stop)
      (rest : Continues stop regions later) : Continues stop (region :: regions) (region :: later)

/-- The regions that end early come first, and at most one is left. -/
theorem Continues.exists_later {stop : Nat} {regions longer : List Region}
    (continues : Continues stop regions longer) :
    ∃ later, longer = regions.filter (·.stop < stop) ++ later ∧
      (∀ region ∈ later, stop ≤ region.stop) ∧
      ∀ region ∈ regions, ¬ region.stop < stop →
        region.stop = stop ∧ regions = regions.filter (·.stop < stop) ++ [region] ∧
          ∃ extended rest, later = extended :: rest ∧ extended.kind = region.kind ∧
            extended.start = region.start := by
  induction continues with
  | @behind later reach => exact ⟨later, rfl, reach, by simp⟩
  | @reaching region longer later ends kind start reach =>
      have late : ¬ region.stop < stop := by omega
      refine ⟨longer :: later, by simp [late], reach, ?_⟩
      intro other member _
      obtain rfl := List.mem_singleton.mp member
      exact ⟨ends, by simp [late], longer, later, rfl, kind, start⟩
  | @settled region regions _ ends _ induction =>
      obtain ⟨later, rfl, reach, unclosed⟩ := induction
      refine ⟨later, by simp [ends], reach, ?_⟩
      intro other member late
      rcases List.mem_cons.mp member with rfl | member
      · exact absurd ends late
      · obtain ⟨stops, last, extended⟩ := unclosed other member late
        refine ⟨stops, ?_, extended⟩
        rw [List.filter_cons_of_pos (by simpa using ends), List.cons_append, ← last]

theorem Reads.eq_map_code {behind : Behind} {segments : List Segment}
    (reads : Reads behind segments []) (free : ∀ character ∈ textOf segments, character ∉ openers) :
    segments = (textOf segments).map .code := by
  have cut := segmentsAfter_of_reads reads
  have codes := segmentsAfter_of_reads (SelfContained.reads_codes free behind [])
  rw [textOf_map_code, cut] at codes
  simpa [segmentsAfter] using codes

theorem reach_of_first {behind : Behind} {kind : RegionKind} {text token rest : List Char}
    (found : regionAt? behind text = some (kind, token, rest)) {start stop : Nat}
    (reaches : stop ≤ start + token.length) :
    ∀ region ∈ regionsFrom start (segmentsAfter behind 0 text), stop ≤ region.stop := by
  rw [segmentsAfter_of_regionAt? found, regionsFrom]
  intro region member
  rcases List.mem_cons.mp member with rfl | member
  · exact reaches
  · have bounds := bounds_of_mem_regionsFrom member
    omega

theorem continues_of_reaching {before token : List Char} {kind : RegionKind}
    (reaches : regionAt? (.afterText before) token = some (kind, token, [])) (start : Nat)
    (more : List Char) :
    Continues (start + token.length) [⟨kind, start, start + token.length⟩]
      (regionsFrom start (segmentsAfter (.afterText before) 0 (token ++ more))) := by
  obtain ⟨longer, rest, found⟩ := exists_regionAt?_append reaches more
  have long : token.length ≤ longer.length := by
    apply length_le_of_regionAt?_append found
    intro left nonempty early
    rw [reaches] at early
    cases early
    exact nonempty rfl
  have reach := reach_of_first found (Nat.add_le_add_left long start)
  rw [segmentsAfter_of_regionAt? found, regionsFrom] at reach ⊢
  exact .reaching rfl rfl rfl reach

theorem continues_of_opened {before token rest more : List Char} {character : Char}
    {segments : List Segment} {kind : RegionKind}
    (code : regionAt? (.afterText before) (character :: textOf segments) = none)
    (reads : Reads (.afterText (before ++ [character])) segments [])
    (opened : regionAt? (.afterText before) (character :: (textOf segments ++ more)) =
      some (kind, token, rest)) (start : Nat) :
    Continues (start + (character :: textOf segments).length) (regionsFrom (start + 1) segments)
      (regionsFrom start
        (segmentsAfter (.afterText before) 0 (character :: (textOf segments ++ more)))) := by
  obtain ⟨whole, isToken⟩ := regionAt?_eq_some_iff.mp opened
  have words := isWord_of_opens (regionAt?_eq_none_iff.mp code) (whole ▸ isToken.opens)
  have codes := reads.eq_map_code fun letter member =>
    not_mem_openers_of_isWord (words letter member)
  have none : regionsFrom (start + 1) segments = [] := by
    rw [codes]
    exact SelfContained.regionsFrom_map_code ..
  rw [none]
  apply Continues.behind
  apply reach_of_first opened
  apply Nat.add_le_add_left
  rw [← List.cons_append] at opened
  apply length_le_of_regionAt?_append opened
  intro left _ early
  rw [code] at early
  cases early

theorem continues_of_reads {before : List Char} {segments : List Segment}
    (reads : Reads (.afterText before) segments []) (start : Nat) (more : List Char) :
    Continues (start + (textOf segments).length) (regionsFrom start segments)
      (regionsFrom start (segmentsAfter (.afterText before) 0 (textOf segments ++ more))) := by
  -- The same segments are cut off until one reaches the end or code starts to open a region.
  induction segments generalizing before start with
  | nil =>
      apply Continues.behind
      intro region member
      have bounds := bounds_of_mem_regionsFrom member
      exact Nat.le_trans bounds.1 bounds.2.1
  | cons segment segments induction =>
      obtain ⟨stands, reads⟩ := reads
      rw [Behind.afterText_append] at reads
      have later := induction reads (start + segment.text.length)
      rw [Nat.add_assoc, ← List.length_append, ← textOf_cons] at later
      rw [textOf_cons, List.append_assoc]
      cases segment with
      | code character =>
          cases opened : regionAt? (.afterText before) (character :: (textOf segments ++ more)) with
          | none =>
              have again : (Segment.code character).StandsAt (.afterText before)
                (textOf segments ++ more) := opened
              rw [segmentsAfter_of_standsAt again, Behind.afterText_append]
              exact later
          | some split =>
              rw [List.append_nil] at stands
              exact continues_of_opened stands reads opened start
      | region kind token =>
          by_cases nothing : segments = []
          · subst nothing
            have reaches : regionAt? (.afterText before) (token ++ []) = some (kind, token, []) :=
              stands
            rw [List.append_nil] at reaches
            rw [textOf_nil, List.append_nil, List.nil_append, Segment.text_region]
            exact continues_of_reaching reaches start more
          · have nonempty := reads.textOf_ne_nil nothing
            rw [List.append_nil] at stands
            have again := (regionAt?_append_iff nonempty more).mpr stands
            rw [Segment.text_region, segmentsAfter_of_regionAt? again, Behind.afterText_append]
            apply Continues.settled _ later
            simpa [List.length_pos_iff] using nonempty

/-- What is put behind a text leaves those of its regions alone that end before it does: they are
the first regions of the longer text. Every other region of the text ends with it and is the last
one, and next in the longer text there is one of its kind that starts where it does. That one and
all behind it end no earlier than the text. -/
theorem settled_regions_stay (first second : List Char) :
    ∃ later,
      scan (first ++ second) = (scan first).filter (·.stop < first.length) ++ later ∧
      (∀ region ∈ later, first.length ≤ region.stop) ∧
      ∀ region ∈ scan first, ¬ region.stop < first.length →
        region.stop = first.length ∧
          scan first = (scan first).filter (·.stop < first.length) ++ [region] ∧
          ∃ longer rest, later = longer :: rest ∧ longer.kind = region.kind ∧
            longer.start = region.start := by
  have reads : Reads (.afterText []) (segments first) [] := reads_segments first
  have continues := continues_of_reads reads 0 second
  rw [textOf, text_segments, Nat.zero_add] at continues
  exact continues.exists_later

/-- A tag that the end cuts off, an escaped quote and the quote behind it: each of them is read in
another way when more follows. -/
example : scan "a E'\\'".toList = [⟨.string, 3, 6⟩] ∧
    scan "a E'\\''$x".toList = [⟨.string, 3, 7⟩] ∧
    scan "a E'\\''$x$".toList = [⟨.string, 3, 7⟩, ⟨.dollarString, 7, 10⟩] := by decide

end TableSchema.Sql
