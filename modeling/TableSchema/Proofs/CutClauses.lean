import TableSchema.Proofs.Descriptions
import TableSchema.Proofs.Visibility

/-! # Between the cuts

A body is cut at the commas outside all parentheses. Of what is left when comments are hidden, each
visible character is such a comma or belongs to the code of one clause. So nothing of a body is
lost, and nothing is read twice.
-/

namespace TableSchema.Sql

open Text

/-! ## Cuts -/

/-- At the place of a masked text stands a comma, and before it as many parentheses are opened as
closed. -/
def CutsAt (masked : List Char) (place : Nat) : Prop :=
  masked[place]? = some ',' ∧ (masked.take place).count '(' = (masked.take place).count ')'

theorem mem_cuts_iff {body : List Char} {place : Nat} :
    place ∈ cuts body ↔ CutsAt (mask body) place := by
  rw [cuts, mem_cutsFrom_iff]
  constructor
  · intro found
    rcases found with ⟨before, after, masked, stands, level⟩
    rw [Nat.zero_add] at stands
    rw [surplus_eq] at level
    rw [CutsAt, masked, stands, List.take_left]
    exact ⟨by simp, by omega⟩
  · intro found
    rcases found with ⟨comma, level⟩
    rcases List.getElem?_eq_some_iff.mp comma with ⟨short, here⟩
    refine ⟨(mask body).take place, (mask body).drop (place + 1), ?_, ?_, ?_⟩
    · rw [← here, ← List.drop_eq_getElem_cons short, List.take_append_drop]
    · rw [List.length_take, Nat.min_eq_left (Nat.le_of_lt short), Nat.zero_add]
    · rw [surplus_eq]
      omega

/-! ## Spans from cut to cut -/

theorem map_stop_spansFrom (start stop : Nat) (cuts : List Nat) :
    (spansFrom start stop cuts).map ClauseSpan.stop = cuts ++ [stop] := by
  induction cuts generalizing start with
  | nil => rfl
  | cons cut cuts induction => rw [spansFrom, List.map_cons, induction, List.cons_append]

theorem stop_mem_iff {body : List Char} {place : Nat} :
    (∃ span ∈ clauseSpans body, span.stop = place) ↔ place ∈ cuts body ∨ place = body.length := by
  rw [← List.mem_map, clauseSpans, map_stop_spansFrom, List.mem_append, List.mem_singleton]

theorem start_of_mem_spansFrom {start stop : Nat} {cuts : List Nat} {span : ClauseSpan}
    (member : span ∈ spansFrom start stop cuts) :
    span.start = start ∨ ∃ cut ∈ cuts, span.start = cut + 1 := by
  induction cuts generalizing start with
  | nil => exact .inl (congrArg ClauseSpan.start (List.mem_singleton.mp member))
  | cons cut cuts induction =>
      rcases List.mem_cons.mp member with rfl | member
      · exact .inl rfl
      · rcases induction member with here | ⟨other, listed, here⟩
        · exact .inr ⟨cut, List.mem_cons_self .., here⟩
        · exact .inr ⟨other, List.mem_cons_of_mem _ listed, here⟩

theorem spansFrom_increasing {start stop : Nat} {cuts : List Nat}
    (late : ∀ cut ∈ cuts, start ≤ cut) (increasing : cuts.Pairwise (· < ·)) :
    (spansFrom start stop cuts).Pairwise fun first second => first.stop < second.start := by
  induction cuts generalizing start with
  | nil => exact List.pairwise_singleton ..
  | cons cut cuts induction =>
      rcases List.pairwise_cons.mp increasing with ⟨first, later⟩
      rw [spansFrom, List.pairwise_cons]
      exact ⟨fun span member => le_start_of_mem_spansFrom first later member, induction first later⟩

theorem clauseSpans_increasing (body : List Char) :
    (clauseSpans body).Pairwise fun first second => first.stop < second.start :=
  spansFrom_increasing (fun cut _ => Nat.zero_le cut) (cuts_increasing body)

theorem bounds_of_mem_spansFrom {start stop : Nat} {cuts : List Nat} {span : ClauseSpan}
    (inside : ∀ cut ∈ cuts, start ≤ cut ∧ cut < stop) (increasing : cuts.Pairwise (· < ·))
    (forward : start ≤ stop) (member : span ∈ spansFrom start stop cuts) :
    span.start ≤ span.stop ∧ span.stop ≤ stop := by
  induction cuts generalizing start with
  | nil =>
      cases List.mem_singleton.mp member
      exact ⟨forward, Nat.le_refl _⟩
  | cons cut cuts induction =>
      rcases List.pairwise_cons.mp increasing with ⟨first, later⟩
      rcases List.forall_mem_cons.mp inside with ⟨here, others⟩
      rcases List.mem_cons.mp member with rfl | member
      · exact ⟨here.1, Nat.le_of_lt here.2⟩
      · exact induction (fun next listed => ⟨first next listed, (others next listed).2⟩) later
          here.2 member

theorem bounds_of_mem_clauseSpans {body : List Char} {span : ClauseSpan}
    (member : span ∈ clauseSpans body) : span.start ≤ span.stop ∧ span.stop ≤ body.length :=
  bounds_of_mem_spansFrom (fun cut listed => ⟨Nat.zero_le cut, lt_of_mem_cuts listed⟩)
    (cuts_increasing body) (Nat.zero_le _) member

/-! ## The code of a clause -/

theorem take_slice_drop {start stop : Nat} (forward : start ≤ stop) (text : List Char) :
    text.take start ++ (slice text start stop ++ text.drop stop) = text := by
  have rest : text.drop stop = (text.drop start).drop (stop - start) := by
    rw [List.drop_drop, Nat.add_sub_cancel' forward]
  rw [slice, rest, List.take_append_drop, List.take_append_drop]

namespace ClauseSpan

def offset (span : ClauseSpan) (body : List Char) : Nat :=
  span.start + blanksAtStart (span.slice (stripComments body))

def HasCode (span : ClauseSpan) (body : List Char) : Prop :=
  ∃ character ∈ span.slice (stripComments body), isBlank character = false

instance (span : ClauseSpan) (body : List Char) : Decidable (span.HasCode body) :=
  inferInstanceAs (Decidable (∃ _ ∈ _, _))

def HoldsCode (span : ClauseSpan) (body : List Char) (place : Nat) : Prop :=
  span.offset body ≤ place ∧ place < span.offset body + (span.code body).length

instance (span : ClauseSpan) (body : List Char) (place : Nat) :
    Decidable (span.HoldsCode body place) :=
  inferInstanceAs (Decidable (_ ∧ _))

def clause (span : ClauseSpan) (body : List Char) : Clause where
  text :=
    if ownedTexts body span = [] then span.code body
    else span.code body ++ " -- ".toList ++ joinWords (ownedTexts body span)
  offset := span.offset body

theorem code_ne_nil_iff {span : ClauseSpan} {body : List Char} :
    span.code body ≠ [] ↔ span.HasCode body := by
  rw [code, Ne, trim_eq_nil_iff, AllBlank, HasCode]
  simp only [not_forall, exists_prop, Bool.not_eq_true]

theorem clauseOf?_eq (span : ClauseSpan) (body : List Char) :
    clauseOf? (span.start, span.slice (stripComments body)) (ownedTexts body span) =
      if span.HasCode body then some (span.clause body) else none := by
  simp only [clauseOf?, ← code_ne_nil_iff, code, List.isEmpty_iff, ite_not]
  rfl

end ClauseSpan

section

variable {body : List Char} {span : ClauseSpan}

/-- Without comments, a body holds the code of a clause at its offset, with blanks on either side of
it as far as the clause reaches. -/
theorem exists_around_code (member : span ∈ clauseSpans body) :
    ∃ front before after back,
      stripComments body = front ++ (before ++ (span.code body ++ (after ++ back))) ∧
        span.start = front.length ∧ span.offset body = front.length + before.length ∧
        span.stop = span.offset body + (span.code body).length + after.length ∧
        AllBlank before ∧ AllBlank after := by
  rcases bounds_of_mem_clauseSpans member with ⟨forward, short⟩
  rw [← length_stripComments] at short
  rcases exists_trim (span.slice (stripComments body)) with
    ⟨before, after, piece, starts, blank, blank'⟩
  have long : (span.slice (stripComments body)).length = span.stop - span.start := by
    rw [ClauseSpan.slice, slice, List.length_take, List.length_drop]
    omega
  have whole := take_slice_drop forward (stripComments body)
  change _ ++ (span.slice (stripComments body) ++ _) = _ at whole
  have front : ((stripComments body).take span.start).length = span.start := by
    rw [List.length_take]
    omega
  refine ⟨(stripComments body).take span.start, before, after, (stripComments body).drop span.stop,
    ?_, front.symm, ?_, ?_, blank, blank'⟩
  · conv_lhs => rw [← whole, piece]
    simp only [List.append_assoc]
    rfl
  · rw [front, starts]
    rfl
  · rw [piece, List.length_append, List.length_append] at long
    rw [ClauseSpan.offset, ← starts, ClauseSpan.code]
    omega

theorem slice_offset (member : span ∈ clauseSpans body) :
    slice (stripComments body) (span.offset body) (span.offset body + (span.code body).length) =
      span.code body := by
  rcases exists_around_code member with ⟨front, before, after, back, whole, _, offset, _⟩
  have around : stripComments body = (front ++ before) ++ (span.code body ++ (after ++ back)) := by
    rw [whole, List.append_assoc]
  refine slice_eq around ?_ ?_ <;> rw [offset, List.length_append]

theorem holdsCode_iff (member : span ∈ clauseSpans body) {place : Nat} {character : Char}
    (here : (stripComments body)[place]? = some character) (visible : isBlank character = false) :
    span.HoldsCode body place ↔ span.start ≤ place ∧ place < span.stop := by
  rcases exists_around_code member with
    ⟨front, before, after, back, whole, starts, offset, stops, blank, blank'⟩
  have apart {left blanks right : List Char}
      (split : stripComments body = left ++ (blanks ++ right)) (allBlank : AllBlank blanks) :
      ¬ (left.length ≤ place ∧ place < left.length + blanks.length) := by
    rintro ⟨late, early⟩
    rw [split, List.getElem?_append_right late, List.getElem?_append_left (by omega)] at here
    rw [allBlank character (List.mem_of_getElem? here)] at visible
    cases visible
  have notBefore := apart whole blank
  have behind : stripComments body = front ++ (before ++ span.code body) ++ (after ++ back) := by
    simpa using whole
  have notAfter := apart behind blank'
  simp only [List.length_append] at notAfter
  rw [ClauseSpan.HoldsCode]
  omega

theorem hasCode_of_holdsCode {place : Nat} (holds : span.HoldsCode body place) :
    span.HasCode body := by
  rw [← ClauseSpan.code_ne_nil_iff, ← List.length_pos_iff]
  have := holds.1
  have := holds.2
  omega

theorem offset_inside (member : span ∈ clauseSpans body) (hasCode : span.HasCode body) :
    span.start ≤ span.offset body ∧ span.offset body < span.stop := by
  rcases exists_around_code member with ⟨front, before, after, back, _, starts, offset, stops, _⟩
  have code := List.length_pos_iff.mpr (ClauseSpan.code_ne_nil_iff.mpr hasCode)
  omega

end

/-! ## All clauses -/

def codeSpans (body : List Char) : List ClauseSpan := (clauseSpans body).filter (·.HasCode body)

theorem mem_codeSpans {body : List Char} {span : ClauseSpan} :
    span ∈ codeSpans body ↔ span ∈ clauseSpans body ∧ span.HasCode body := by
  rw [codeSpans, List.mem_filter, decide_eq_true_eq]

theorem clauses_eq_map (body : List Char) :
    clauses body = (codeSpans body).map (·.clause body) := by
  rw [clauses_eq, codeSpans, ← List.filterMap_eq_map, List.filterMap_filter]
  refine List.filterMap_congr fun span _ => ?_
  rw [ClauseSpan.clauseOf?_eq]
  simp

theorem exists_span_of_mem_clauses {body : List Char} {clause : Clause}
    (member : clause ∈ clauses body) :
    ∃ span ∈ clauseSpans body, span.HasCode body ∧ clause = span.clause body := by
  rw [clauses_eq_map] at member
  rcases List.mem_map.mp member with ⟨span, listed, rfl⟩
  rcases mem_codeSpans.mp listed with ⟨spanned, hasCode⟩
  exact ⟨span, spanned, hasCode, rfl⟩

theorem clauses_increasing (body : List Char) :
    (clauses body).Pairwise fun first second => first.offset < second.offset := by
  rw [clauses_eq_map, List.pairwise_map]
  refine ((clauseSpans_increasing body).filter _).imp_of_mem ?_
  intro first second listed listed' apart
  rcases mem_codeSpans.mp listed with ⟨member, hasCode⟩
  rcases mem_codeSpans.mp listed' with ⟨member', nonempty'⟩
  have early := offset_inside member hasCode
  have late := offset_inside member' nonempty'
  change first.offset body < second.offset body
  omega

/-- Nothing that can be seen is lost or read twice: it is the comma of a cut, or belongs to the code
of one clause. -/
theorem cut_or_code {body : List Char} {place : Nat} {character : Char}
    (here : (stripComments body)[place]? = some character) (visible : isBlank character = false) :
    (place ∈ cuts body ∧ ∀ span ∈ clauseSpans body, ¬ span.HoldsCode body place) ∨
      (place ∉ cuts body ∧ ∃! span, span ∈ codeSpans body ∧ span.HoldsCode body place) := by
  have short : place < body.length := by
    rw [← length_stripComments]
    exact (List.getElem?_eq_some_iff.mp here).1
  rcases existsUnique_holds (Nat.le_of_lt short) with ⟨span, ⟨member, starts, stops⟩, only⟩
  by_cases cut : place ∈ cuts body
  · refine .inl ⟨cut, fun other member' holds => ?_⟩
    rcases stop_mem_iff.mpr (.inl cut) with ⟨ended, listed, rfl⟩
    rcases (holdsCode_iff member' here visible).mp holds with ⟨early, late⟩
    have same : other = ended :=
      (only other ⟨member', early, Nat.le_of_lt late⟩).trans
        (only ended ⟨listed, (bounds_of_mem_clauseSpans listed).1, Nat.le_refl _⟩).symm
    rw [same] at late
    exact Nat.lt_irrefl _ late
  · have inner : place < span.stop := by
      refine Nat.lt_of_le_of_ne stops ?_
      rintro rfl
      rcases stop_mem_iff.mp ⟨span, member, rfl⟩ with ends | ends
      · exact cut ends
      · exact Nat.ne_of_lt short ends
    have holds := (holdsCode_iff member here visible).mpr ⟨starts, inner⟩
    refine .inr ⟨cut, span, ⟨mem_codeSpans.mpr ⟨member, hasCode_of_holdsCode holds⟩, holds⟩, ?_⟩
    intro other found
    have member' := (mem_codeSpans.mp found.1).1
    rcases (holdsCode_iff member' here visible).mp found.2 with ⟨early, late⟩
    exact only other ⟨member', early, Nat.le_of_lt late⟩

/-- A body is cut at the commas outside all parentheses and nowhere else. Its clauses are, in order,
what can be read between the cuts, each with the comments that it owns behind its code; the code
stands in the body at the offset of the clause. -/
theorem clauses_between_cuts (body : List Char) :
    (∀ place, place ∈ cuts body ↔ CutsAt (mask body) place) ∧
    (cuts body).Pairwise (· < ·) ∧
    clauses body = (codeSpans body).map (·.clause body) ∧
    (∀ span ∈ codeSpans body,
      slice (stripComments body) (span.offset body) (span.offset body + (span.code body).length) =
        span.code body) ∧
    (clauses body).Pairwise (fun first second => first.offset < second.offset) ∧
    ∀ place character, (stripComments body)[place]? = some character → isBlank character = false →
      (place ∈ cuts body ∧ ∀ span ∈ codeSpans body, ¬ span.HoldsCode body place) ∨
        (place ∉ cuts body ∧ ∃! span, span ∈ codeSpans body ∧ span.HoldsCode body place) := by
  refine ⟨fun place => mem_cuts_iff, cuts_increasing body, clauses_eq_map body,
    fun span listed => slice_offset (mem_codeSpans.mp listed).1, clauses_increasing body, ?_⟩
  intro place character here visible
  rcases cut_or_code here visible with ⟨cut, none⟩ | one
  · exact .inl ⟨cut, fun span listed => none span (mem_codeSpans.mp listed).1⟩
  · exact .inr one

/-- A parenthesis that is closed too often is made up for by one that stays open: the comma between
them is none of the cuts. -/
theorem stray_parentheses_move_cuts :
    let body := "a n(1,2), -- x, y\n,) b, (c, d".toList
    cuts body = [8, 18, 26] ∧
      clauses body = [⟨"a n(1,2) -- x, y".toList, 0⟩, ⟨") b, (c".toList, 19⟩, ⟨['d'], 28⟩] ∧
      ∃! span, span ∈ codeSpans body ∧ span.HoldsCode body 22 := by
  intro body
  have here : (stripComments body)[22]? = some ',' := by decide +kernel
  refine ⟨by decide +kernel, by decide +kernel, ?_⟩
  rcases (clauses_between_cuts body).2.2.2.2.2 22 ',' here (by decide) with ⟨cut, _⟩ | ⟨_, one⟩
  · revert cut
    decide +kernel
  · exact one

end TableSchema.Sql
