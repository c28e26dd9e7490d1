import TableSchema.Proofs.Hiding
import TableSchema.Sql.Blanking

/-! # Blanking spans

Blanking hides the union of the spans that are chosen, or refuses all of it if one index among them
means no place. So neither the order of the spans nor their number matters, and a mask is made by
blanking literals first and comments afterwards.
-/

namespace TableSchema.Sql

/-! ## Hiding indices -/

def MeansPlace (length : Nat) (index : Int) : Prop := -(length : Int) ≤ index ∧ index < length

instance (length : Nat) (index : Int) : Decidable (MeansPlace length index) :=
  inferInstanceAs (Decidable (_ ∧ _))

/-- One of the indices means the place, counted from the start or from the end. -/
def IsMeant (length place : Nat) (indices : List Int) : Prop :=
  (place : Int) ∈ indices ∨ (place : Int) - length ∈ indices

instance (length place : Nat) (indices : List Int) : Decidable (IsMeant length place indices) :=
  inferInstanceAs (Decidable (_ ∨ _))

def hideMeant (text : List Char) (indices : List Int) : List Char :=
  text.mapIdx fun place character =>
    if IsMeant text.length place indices then hide character else character

theorem hide_hide (character : Char) : hide (hide character) = hide character := by
  by_cases feed : character = '\n' <;> simp [hide, feed]

@[simp] theorem length_hideMeant (text : List Char) (indices : List Int) :
    (hideMeant text indices).length = text.length := List.length_mapIdx

theorem getElem?_hideMeant (text : List Char) (indices : List Int) (place : Nat) :
    (hideMeant text indices)[place]? =
      if IsMeant text.length place indices then text[place]?.map hide else text[place]? := by
  rw [hideMeant, List.getElem?_mapIdx]
  split <;> simp

theorem hideMeant_nil (text : List Char) : hideMeant text [] = text := by
  apply List.ext_getElem?
  intro place
  rw [getElem?_hideMeant, if_neg (by simp [IsMeant])]

theorem hideMeant_hideMeant (text : List Char) (first second : List Int) :
    hideMeant (hideMeant text first) second = hideMeant text (first ++ second) := by
  apply List.ext_getElem?
  intro place
  have both : IsMeant text.length place (first ++ second) ↔
      IsMeant text.length place first ∨ IsMeant text.length place second := by
    simp only [IsMeant, List.mem_append]
    tauto
  simp only [getElem?_hideMeant, length_hideMeant, both]
  by_cases isFirst : IsMeant text.length place first <;>
    by_cases isSecond : IsMeant text.length place second <;>
      simp [isFirst, isSecond, Function.comp_def, hide_hide]

theorem hideMeant_congr (text : List Char) {first second : List Int}
    (same : ∀ index, index ∈ first ↔ index ∈ second) :
    hideMeant text first = hideMeant text second := by
  apply List.ext_getElem?
  intro place
  have meant : IsMeant text.length place first ↔ IsMeant text.length place second :=
    or_congr (same _) (same _)
  rw [getElem?_hideMeant, getElem?_hideMeant, if_congr meant rfl rfl]

/-! ## The loop -/

theorem placeAt?_eq_some {length : Nat} {index : Int} {place : Nat} :
    placeAt? length index = some place ↔
      place < length ∧ ((place : Int) = index ∨ (place : Int) - length = index) := by
  simp only [placeAt?, Option.ite_none_right_eq_some, Option.some.injEq]
  omega

theorem placeAt?_eq_none {length : Nat} {index : Int} :
    placeAt? length index = none ↔ ¬ MeansPlace length index := by
  simp only [placeAt?, MeansPlace, ite_eq_right_iff, reduceCtorEq, imp_false]
  omega

theorem hideAt_eq_ok {text result : List Char} {index : Int} :
    hideAt text index = .ok result ↔
      MeansPlace text.length index ∧ hideMeant text [index] = result := by
  rw [hideAt]
  cases found : placeAt? text.length index with
  | none => simp [placeAt?_eq_none.mp found]
  | some place =>
      rcases placeAt?_eq_some.mp found with ⟨within, isIndex⟩
      have means : MeansPlace text.length index := by
        unfold MeansPlace
        omega
      have hidden : text.modify place hide = hideMeant text [index] := by
        apply List.ext_getElem?
        intro other
        rw [List.getElem?_modify, getElem?_hideMeant]
        by_cases inside : other < text.length
        · have meant : IsMeant text.length other [index] ↔ place = other := by
            simp only [IsMeant, List.mem_singleton]
            omega
          simp only [meant, List.getElem?_eq_getElem inside]
          by_cases same : place = other <;> simp [same]
        · simp [List.getElem?_eq_none (Nat.le_of_not_lt inside)]
      simp [hidden, means]

theorem bind_eq_ok {ε α β : Type} {first : Except ε α} {next : α → Except ε β} {result : β} :
    first >>= next = .ok result ↔ ∃ value, first = .ok value ∧ next value = .ok result := by
  cases first with
  | error fault => simp [bind, Except.bind]
  | ok value => simp [bind, Except.bind]

/-- A run of the loop hides all indices, unless one of them means no place. -/
theorem foldlM_hideAt_eq_ok {text result : List Char} {indices : List Int} :
    indices.foldlM hideAt text = .ok result ↔
      (∀ index ∈ indices, MeansPlace text.length index) ∧ hideMeant text indices = result := by
  induction indices generalizing text with
  | nil => simp [hideMeant_nil, pure, Except.pure]
  | cons index indices induction =>
      simp only [List.foldlM_cons, bind_eq_ok, hideAt_eq_ok, induction, List.forall_mem_cons]
      constructor
      · rintro ⟨_, ⟨first, rfl⟩, rest, rfl⟩
        rw [length_hideMeant] at rest
        rw [hideMeant_hideMeant]
        exact ⟨⟨first, rest⟩, rfl⟩
      · rintro ⟨⟨first, rest⟩, rfl⟩
        refine ⟨_, ⟨first, rfl⟩, ?_, hideMeant_hideMeant text [index] indices⟩
        rwa [length_hideMeant]

/-! ## Spans -/

def indicesFrom (start : Int) : (count : Nat) → List Int
  | 0 => []
  | count + 1 => start :: indicesFrom (start + 1) count

def Span.indices (span : Span) : List Int :=
  indicesFrom span.start (span.stop - span.start).toNat

theorem mem_indicesFrom {start index : Int} {count : Nat} :
    index ∈ indicesFrom start count ↔ start ≤ index ∧ index < start + count := by
  induction count generalizing start with
  | zero =>
      simp only [indicesFrom, List.not_mem_nil, false_iff]
      omega
  | succ count induction =>
      rw [indicesFrom, List.mem_cons, induction]
      omega

theorem Span.mem_indices {span : Span} {index : Int} :
    index ∈ span.indices ↔ span.start ≤ index ∧ index < span.stop := by
  rw [indices, mem_indicesFrom]
  omega

theorem hideRun_eq (start : Int) (count : Nat) (text : List Char) :
    hideRun start count text = (indicesFrom start count).foldlM hideAt text := by
  induction count generalizing start text with
  | zero => rfl
  | succ count induction =>
      rw [hideRun, indicesFrom, List.foldlM_cons]
      exact bind_congr fun text => induction (start + 1) text

theorem foldlM_blankSpan (text : List Char) (spans : List Span) :
    spans.foldlM blankSpan text = (spans.flatMap Span.indices).foldlM hideAt text := by
  induction spans generalizing text with
  | nil => rfl
  | cons span spans induction =>
      rw [List.foldlM_cons, List.flatMap_cons, List.foldlM_append, blankSpan, hideRun_eq]
      exact bind_congr induction

/-! ## The union of spans -/

section

variable {text : List Char} {spans : List Span} {kinds : List RegionKind} {keepDelimiters : Bool}

/-- The index is to be hidden: it is in a span of one of the kinds, and neither its first nor its
last one if these are delimiters that are kept. -/
def IsEffective (spans : List Span) (kinds : List RegionKind) (keepDelimiters : Bool)
    (index : Int) : Prop :=
  ∃ span ∈ spans, span.kind ∈ kinds ∧
    if keepDelimiters = true ∧ span.kind.isLiteral = true ∧ 2 ≤ span.stop - span.start then
      span.start + 1 ≤ index ∧ index < span.stop - 1
    else span.start ≤ index ∧ index < span.stop

instance (spans : List Span) (kinds : List RegionKind) (keepDelimiters : Bool) (index : Int) :
    Decidable (IsEffective spans kinds keepDelimiters index) :=
  inferInstanceAs (Decidable (∃ span ∈ spans, _ ∧ _))

def effectiveIndices (spans : List Span) (kinds : List RegionKind) (keepDelimiters : Bool) :
    List Int :=
  let chosen := spans.filter (kinds.contains ·.kind)
  (if keepDelimiters then chosen.map Span.withoutDelimiters else chosen).flatMap Span.indices

theorem Span.mem_indices_withoutDelimiters {span : Span} {index : Int} :
    index ∈ span.withoutDelimiters.indices ↔
      if span.kind.isLiteral = true ∧ 2 ≤ span.stop - span.start then
        span.start + 1 ≤ index ∧ index < span.stop - 1
      else span.start ≤ index ∧ index < span.stop := by
  unfold withoutDelimiters
  split <;> exact mem_indices

theorem mem_effectiveIndices {index : Int} :
    index ∈ effectiveIndices spans kinds keepDelimiters ↔
      IsEffective spans kinds keepDelimiters index := by
  cases keepDelimiters with
  | false => simp [effectiveIndices, IsEffective, Span.mem_indices, and_assoc]
  | true =>
      simp only [effectiveIndices, IsEffective, if_true, List.flatMap_map, List.mem_flatMap,
        List.mem_filter, List.contains_iff_mem, Span.mem_indices_withoutDelimiters, and_assoc,
        true_and]

theorem blank_eq_ok {result : List Char} :
    blank text spans kinds keepDelimiters = .ok result ↔
      (∀ index, IsEffective spans kinds keepDelimiters index → MeansPlace text.length index) ∧
        hideMeant text (effectiveIndices spans kinds keepDelimiters) = result := by
  rw [blank, foldlM_blankSpan, foldlM_hideAt_eq_ok, ← effectiveIndices]
  simp only [mem_effectiveIndices]

theorem eq_of_same_results {first second : Except BlankFault (List Char)}
    (same : ∀ result, first = .ok result ↔ second = .ok result) : first = second := by
  rcases first with ⟨⟨⟩⟩ | result
  · rcases second with ⟨⟨⟩⟩ | result
    · rfl
    · exact (same result).mpr rfl
  · exact ((same result).mp rfl).symm

theorem blank_congr {spans' : List Span} {kinds' : List RegionKind} {keepDelimiters' : Bool}
    (same : ∀ index, IsEffective spans' kinds' keepDelimiters' index ↔
      IsEffective spans kinds keepDelimiters index) :
    blank text spans' kinds' keepDelimiters' = blank text spans kinds keepDelimiters := by
  have hidden : hideMeant text (effectiveIndices spans' kinds' keepDelimiters') =
      hideMeant text (effectiveIndices spans kinds keepDelimiters) := by
    apply hideMeant_congr
    intro index
    rw [mem_effectiveIndices, mem_effectiveIndices, same]
  apply eq_of_same_results
  intro result
  simp only [blank_eq_ok, hidden, same]

theorem blank_blank {spans' spans'' : List Span} {kinds' kinds'' : List RegionKind}
    {keepDelimiters' keepDelimiters'' : Bool}
    (both : ∀ index, IsEffective spans'' kinds'' keepDelimiters'' index ↔
      IsEffective spans kinds keepDelimiters index ∨
        IsEffective spans' kinds' keepDelimiters' index) :
    (blank text spans kinds keepDelimiters >>= (blank · spans' kinds' keepDelimiters')) =
      blank text spans'' kinds'' keepDelimiters'' := by
  have union : hideMeant text (effectiveIndices spans'' kinds'' keepDelimiters'') =
      hideMeant (hideMeant text (effectiveIndices spans kinds keepDelimiters))
        (effectiveIndices spans' kinds' keepDelimiters') := by
    rw [hideMeant_hideMeant]
    apply hideMeant_congr
    intro index
    rw [List.mem_append, mem_effectiveIndices, mem_effectiveIndices, mem_effectiveIndices, both]
  apply eq_of_same_results
  intro result
  simp only [bind_eq_ok, blank_eq_ok, union, both, or_imp, forall_and]
  constructor
  · rintro ⟨_, ⟨first, rfl⟩, second, same⟩
    rw [length_hideMeant] at second
    exact ⟨⟨first, second⟩, same⟩
  · rintro ⟨⟨first, second⟩, same⟩
    refine ⟨_, ⟨first, rfl⟩, ?_, same⟩
    rwa [length_hideMeant]

end

/-- Blanking hides the union of the chosen spans, with line feeds kept, and is refused exactly if
one of their indices means no place. Neither the order nor the number of spans and kinds matters,
doing it again changes nothing, and two passes with some kinds each are one pass with all of
them. -/
theorem blank_hides_union (text : List Char) (spans : List Span) (kinds : List RegionKind)
    (keepDelimiters : Bool) :
    ((∃ index, IsEffective spans kinds keepDelimiters index ∧
        ((text.length : Int) ≤ index ∨ index < -(text.length : Int))) →
      blank text spans kinds keepDelimiters = .error .outOfRange) ∧
    ((¬ ∃ index, IsEffective spans kinds keepDelimiters index ∧
        ((text.length : Int) ≤ index ∨ index < -(text.length : Int))) →
      ∃ result, blank text spans kinds keepDelimiters = .ok result ∧
        result.length = text.length ∧
        ∀ (place : Nat) (inside : place < text.length), result[place]? = some
          (if (IsEffective spans kinds keepDelimiters place ∨
              IsEffective spans kinds keepDelimiters ((place : Int) - text.length)) ∧
              text[place] ≠ '\n' then ' '
            else text[place])) ∧
    (∀ spans' kinds', (∀ span, span ∈ spans' ↔ span ∈ spans) →
      (∀ kind, kind ∈ kinds' ↔ kind ∈ kinds) →
      blank text spans' kinds' keepDelimiters = blank text spans kinds keepDelimiters) ∧
    (∀ result, blank text spans kinds keepDelimiters = .ok result →
      blank result spans kinds keepDelimiters = .ok result) ∧
    ∀ kinds', (blank text spans kinds keepDelimiters >>= (blank · spans kinds' keepDelimiters)) =
      blank text spans (kinds ++ kinds') keepDelimiters := by
  have outside (index : Int) : (text.length : Int) ≤ index ∨ index < -(text.length : Int) ↔
      ¬ MeansPlace text.length index := by
    unfold MeansPlace
    omega
  simp only [outside]
  refine ⟨?_, fun within => ?_, fun spans' kinds' sameSpans sameKinds => ?_,
    fun result blanked => ?_, fun kinds' => ?_⟩
  · rintro ⟨index, effective, refused⟩
    rcases blanked : blank text spans kinds keepDelimiters with ⟨⟨⟩⟩ | result
    · rfl
    · exact absurd ((blank_eq_ok.mp blanked).1 index effective) refused
  · refine ⟨_, blank_eq_ok.mpr ⟨fun index effective => ?_, rfl⟩, length_hideMeant _ _,
      fun place inside => ?_⟩
    · exact not_not.mp fun refused => within ⟨index, effective, refused⟩
    · simp only [getElem?_hideMeant, IsMeant, mem_effectiveIndices,
        List.getElem?_eq_getElem inside, Option.map_some, hide]
      split <;> split <;> simp_all
  · refine blank_congr fun index => ?_
    simp only [IsEffective, sameSpans, sameKinds]
  · have twice := @blank_blank text spans kinds keepDelimiters spans spans kinds kinds
      keepDelimiters keepDelimiters fun index => (or_self_iff).symm
    rw [blanked] at twice
    exact twice
  · refine blank_blank fun index => ?_
    simp only [IsEffective, List.mem_append, or_and_right, and_or_left, exists_or]

/-- A span counted from the end, one that runs backwards and one that overlaps another, in either
order and more than once; a span that reaches one character too far refuses them all. -/
theorem overlapping_spans_are_blanked :
    let text := "ab'\nc'd".toList
    let spans : List Span := [⟨.string, 2, 6⟩, ⟨.lineComment, -7, -6⟩, ⟨.string, 5, 1⟩,
      ⟨.string, 3, 5⟩, ⟨.dollarString, 0, 9⟩]
    let kinds : List RegionKind := [.string, .lineComment]
    blank text (spans.reverse ++ spans) kinds true = .ok " b'\n 'd".toList ∧
      blank " b'\n 'd".toList spans kinds true = .ok " b'\n 'd".toList ∧
      blank text (⟨.string, 0, 9⟩ :: spans) kinds true = .error .outOfRange := by
  intro text spans kinds
  have blanked : blank text spans kinds true = .ok " b'\n 'd".toList := by decide +kernel
  have union := blank_hides_union text spans kinds true
  refine ⟨?_, union.2.2.2.1 _ blanked, ?_⟩
  · rw [union.2.2.1 (spans.reverse ++ spans) kinds (by simp) (by simp), blanked]
  · exact (blank_hides_union text (⟨.string, 0, 9⟩ :: spans) kinds true).1
      ⟨7, by decide +kernel, by decide⟩

/-! ## Masks -/

def spansOf (text : List Char) : List Span := (scan text).map Span.ofRegion

def literalKinds : List RegionKind := RegionKind.all.filter RegionKind.isLiteral

def commentKinds : List RegionKind := RegionKind.all.filter RegionKind.isComment

theorem mem_literalKinds {kind : RegionKind} : kind ∈ literalKinds ↔ kind.isLiteral = true := by
  cases kind <;> decide

theorem mem_commentKinds {kind : RegionKind} : kind ∈ commentKinds ↔ kind.isComment = true := by
  cases kind <;> decide

/-- Of the spans of regions all places are effective but delimiters that are kept. -/
theorem isEffective_spansOf {text : List Char} {kinds : List RegionKind} {keepDelimiters : Bool}
    {index : Int} :
    IsEffective (spansOf text) kinds keepDelimiters index ↔
      ∃ region ∈ scan text, region.kind ∈ kinds ∧ ∃ place : Nat, index = place ∧
        region.Covers place ∧ ¬ (keepDelimiters = true ∧ region.Keeps place) := by
  simp only [IsEffective, spansOf, List.mem_map, exists_exists_and_eq_and, Span.ofRegion]
  refine exists_congr fun region => and_congr_right fun _ => and_congr_right fun _ => ?_
  constructor
  · intro inside
    refine ⟨index.toNat, ?_⟩
    split at inside <;> simp only [Region.Covers, Region.Keeps] <;> grind
  · rintro ⟨place, rfl, covers, shown⟩
    simp only [Region.Covers, Region.Keeps] at covers shown
    split <;> grind

theorem eq_of_covers {text : List Char} {first second : Region} (isFirst : first ∈ scan text)
    (isSecond : second ∈ scan text) {place : Nat} (covers : first.Covers place)
    (covers' : second.Covers place) : first = second := by
  have increasing := ((isTokenisation_iff_eq_scan text _).mpr rfl).increasing
  have apart {first second : Region} (apart : first.stop ≤ second.start)
      (covers : first.Covers place) (covers' : second.Covers place) : False :=
    Nat.not_lt.mpr covers'.1 (Nat.lt_of_lt_of_le covers.2 apart)
  refine List.Pairwise.forall_of_forall_of_flip
    (R := fun first second : Region =>
      first.Covers place → second.Covers place → first = second)
    (fun _ _ _ _ => rfl) (increasing.imp fun before covers covers' => ?_)
    (increasing.imp fun before covers covers' => ?_) isFirst isSecond covers covers'
  · exact (apart before covers covers').elim
  · exact (apart before covers' covers).elim

section

variable {text : List Char} {view : Segment → List Char}

theorem getElem?_flatMap_of_free (same : ∀ segment, (view segment).length = segment.text.length)
    (code : ∀ character, view (.code character) = [character]) {segments : List Segment}
    {start place : Nat}
    (free : ∀ region ∈ regionsFrom start segments, ¬ region.Covers (start + place)) :
    (segments.flatMap view)[place]? = (textOf segments)[place]? := by
  induction segments generalizing start place with
  | nil => rfl
  | cons segment segments induction =>
      rw [List.flatMap_cons, textOf_cons, List.getElem?_append, List.getElem?_append, same]
      by_cases here : place < segment.text.length
      · rw [if_pos here, if_pos here]
        cases segment with
        | code character => rw [code, Segment.text_code]
        | region kind token =>
            refine absurd ⟨?_, ?_⟩
              (free ⟨kind, start, start + token.length⟩ (List.mem_cons_self ..))
            · exact Nat.le_add_right _ _
            · exact Nat.add_lt_add_left here _
      · rw [if_neg here, if_neg here]
        have later : ∀ region ∈ regionsFrom (start + segment.text.length) segments,
            ¬ region.Covers (start + segment.text.length + (place - segment.text.length)) := by
          intro region member
          rw [Nat.add_assoc, Nat.add_sub_cancel' (Nat.le_of_not_lt here)]
          apply free
          cases segment with
          | code character => exact member
          | region kind token => exact List.mem_cons_of_mem _ member
        exact induction later

/-- Blanking the regions of a text makes a view of it that shows code as it is and hides of each
region what is effective. -/
theorem blank_spansOf (same : ∀ segment, (view segment).length = segment.text.length)
    (code : ∀ character, view (.code character) = [character]) {kinds : List RegionKind}
    {keepDelimiters : Bool}
    (hides : ∀ region ∈ scan text, ∀ place, region.Covers place →
      ((segments text).flatMap view)[place]? =
        if region.kind ∈ kinds ∧ ¬ (keepDelimiters = true ∧ region.Keeps place) then
          text[place]?.map hide
        else text[place]?) :
    blank text (spansOf text) kinds keepDelimiters = .ok ((segments text).flatMap view) := by
  rw [blank_eq_ok]
  constructor
  · intro index effective
    rcases isEffective_spansOf.mp effective with ⟨region, member, _, place, rfl, covers, _⟩
    have within := (bounds_of_mem_scan member).2
    have early := covers.2
    unfold MeansPlace
    omega
  · apply List.ext_getElem?
    intro place
    have fromEnd (inside : place < text.length) :
        ¬ IsEffective (spansOf text) kinds keepDelimiters ((place : Int) - text.length) := by
      rintro effective
      rcases isEffective_spansOf.mp effective with ⟨_, _, _, place', equal, _⟩
      omega
    rw [getElem?_hideMeant]
    by_cases inside : place < text.length
    · simp only [IsMeant, mem_effectiveIndices, fromEnd inside, or_false]
      by_cases covered : ∃ region ∈ scan text, region.Covers place
      · rcases covered with ⟨region, member, covers⟩
        rw [hides region member place covers]
        refine if_congr ?_ rfl rfl
        rw [isEffective_spansOf]
        constructor
        · rintro ⟨other, member', chosen, place', equal, covers', shown⟩
          cases Int.ofNat.inj equal
          rw [eq_of_covers member member' covers covers']
          exact ⟨chosen, shown⟩
        · rintro ⟨chosen, shown⟩
          exact ⟨region, member, chosen, place, rfl, covers, shown⟩
      · rw [if_neg]
        · have free : ∀ region ∈ regionsFrom 0 (segments text), ¬ region.Covers (0 + place) := by
            intro region member covers
            rw [Nat.zero_add] at covers
            exact covered ⟨region, member, covers⟩
          have shown := getElem?_flatMap_of_free same code free
          rwa [textOf, text_segments, eq_comm] at shown
        · intro effective
          rcases isEffective_spansOf.mp effective with ⟨region, member, _, _, equal, covers, _⟩
          cases Int.ofNat.inj equal
          exact covered ⟨region, member, covers⟩
    · have long := length_flatMap_segments view same text
      rw [List.getElem?_eq_none (by omega), List.getElem?_eq_none (by omega)]
      simp

end

theorem getElem?_stripComments {text : List Char} {region : Region} {place : Nat}
    (member : region ∈ scan text) (covers : region.Covers place) :
    (stripComments text)[place]? =
      if region.kind.isComment = true then text[place]?.map hide else text[place]? := by
  rcases exists_token member covers with ⟨token, _, here⟩
  have shown := here _ fun segment => (rfl : segment.text.length = _)
  rw [text_segments] at shown
  rw [stripComments, here _ Segment.length_stripped, shown, Segment.stripped, Segment.text]
  split
  · exact List.getElem?_map
  · rfl

/-- A mask is made in two passes, literals without their delimiters first and comments then, and
comments are hidden in one. -/
theorem masks_are_blanked (text : List Char) :
    (blank text (spansOf text) literalKinds true >>= (blank · (spansOf text) commentKinds false)) =
        .ok (mask text) ∧
      blank text (spansOf text) commentKinds false = .ok (stripComments text) := by
  constructor
  · -- A comment keeps no delimiters, so one pass over all kinds does the same.
    have both (index : Int) : IsEffective (spansOf text) RegionKind.all true index ↔
        IsEffective (spansOf text) literalKinds true index ∨
          IsEffective (spansOf text) commentKinds false index := by
      simp only [isEffective_spansOf, mem_literalKinds, mem_commentKinds, ← exists_or]
      refine exists_congr fun region => ?_
      have all : region.kind ∈ RegionKind.all := by cases region.kind <;> decide
      cases comment : region.kind.isComment <;>
        simp [all, comment, Region.Keeps, RegionKind.isLiteral]
    rw [blank_blank both]
    refine blank_spansOf Segment.length_masked (fun _ => rfl) fun region member place covers => ?_
    have all : region.kind ∈ RegionKind.all := by cases region.kind <;> decide
    have shown := getElem?_mask member covers
    rw [mask] at shown
    rw [shown]
    by_cases keeps : region.Keeps place <;> simp [keeps, all]
  · refine blank_spansOf Segment.length_stripped (fun _ => rfl) fun region member place covers => ?_
    have shown := getElem?_stripComments member covers
    rw [stripComments] at shown
    rw [shown]
    simp [mem_commentKinds]

end TableSchema.Sql
