import TableSchema.Proofs.StrippedClauses

/-! # Clauses by their places

The clauses of a body lie between the commas outside all parentheses. Every place of the body
belongs to one clause, where a comma belongs to the clause that it ends; so does every line comment
that stands behind something on its line.
-/

namespace TableSchema.Sql

open Text

/-! ## Cuts -/

theorem mem_cutsFrom_iff {place cut : Nat} {depth : Int} {text : List Char} :
    cut ∈ cutsFrom place depth text ↔
      ∃ before after, text = before ++ ',' :: after ∧ cut = place + before.length ∧
        depth + surplus before = 0 := by
  constructor
  · intro member
    fun_induction cutsFrom place depth text with
    | case1 => cases member
    | case2 place depth rest induction =>
        rcases induction member with ⟨before, after, rfl, rfl, level⟩
        refine ⟨'(' :: before, after, rfl, by simp only [List.length_cons]; omega, ?_⟩
        simp only [surplus, if_true]
        omega
    | case3 place depth rest _ induction =>
        rcases induction member with ⟨before, after, rfl, rfl, level⟩
        refine ⟨')' :: before, after, rfl, by simp only [List.length_cons]; omega, ?_⟩
        simp only [surplus, Char.reduceEq, if_false, if_true]
        omega
    | case4 place depth character rest opens closes comma induction =>
        rcases comma with ⟨rfl, rfl⟩
        rcases List.mem_cons.mp member with rfl | member
        · exact ⟨[], rest, rfl, rfl, rfl⟩
        · rcases induction member with ⟨before, after, rfl, rfl, level⟩
          exact ⟨',' :: before, after, rfl, by simp only [List.length_cons]; omega,
            by simpa [surplus] using level⟩
    | case5 place depth character rest opens closes comma induction =>
        rcases induction member with ⟨before, after, rfl, rfl, level⟩
        exact ⟨character :: before, after, rfl, by simp only [List.length_cons]; omega,
          by simpa only [surplus, opens, closes, if_false] using level⟩
  · rintro ⟨before, after, rfl, rfl, level⟩
    rw [cutsFrom_append, level, List.mem_append]
    exact .inr (List.mem_cons_self ..)

theorem comma_of_mem_cuts {body : List Char} {cut : Nat} (member : cut ∈ cuts body) :
    (mask body)[cut]? = some ',' := by
  rcases mem_cutsFrom_iff.mp member with ⟨before, after, masked, rfl, _⟩
  rw [masked, Nat.zero_add, List.getElem?_append_right (Nat.le_refl _), Nat.sub_self]
  rfl

theorem le_of_mem_cutsFrom {place cut : Nat} {depth : Int} {text : List Char}
    (member : cut ∈ cutsFrom place depth text) : place ≤ cut ∧ cut < place + text.length := by
  rcases mem_cutsFrom_iff.mp member with ⟨before, after, rfl, rfl, _⟩
  rw [List.length_append, List.length_cons]
  omega

theorem cutsFrom_increasing (place : Nat) (depth : Int) (text : List Char) :
    (cutsFrom place depth text).Pairwise (· < ·) := by
  generalize listed : cutsFrom place depth text = cuts
  induction cuts generalizing place depth text with
  | nil => exact .nil
  | cons cut cuts induction =>
      rcases cutsFrom_eq_cons listed with ⟨before, after, _, _, rest, _⟩
      refine List.pairwise_cons.mpr ⟨fun later member => ?_, induction _ _ _ rest.symm⟩
      rw [rest] at member
      exact (le_of_mem_cutsFrom member).1

theorem cuts_increasing (body : List Char) : (cuts body).Pairwise (· < ·) :=
  cutsFrom_increasing 0 0 (mask body)

theorem lt_of_mem_cuts {body : List Char} {cut : Nat} (member : cut ∈ cuts body) :
    cut < body.length := by
  have inside := (le_of_mem_cutsFrom member).2
  rwa [length_mask, Nat.zero_add] at inside

/-! ## Spans -/

/-- The places of a clause: from `start` up to `stop`, where the comma stands that ends it, or where
the body ends. -/
structure ClauseSpan where
  start : Nat
  stop : Nat
  deriving DecidableEq

def spansFrom (start stop : Nat) : List Nat → List ClauseSpan
  | [] => [⟨start, stop⟩]
  | cut :: cuts => ⟨start, cut⟩ :: spansFrom (cut + 1) stop cuts

/-- The spans of the clauses of a body, empty ones included. -/
def clauseSpans (body : List Char) : List ClauseSpan := spansFrom 0 body.length (cuts body)

namespace ClauseSpan

def slice (span : ClauseSpan) (text : List Char) : List Char :=
  Sql.slice text span.start span.stop

/-- The place is in the span, or is that of the comma that ends it. -/
def Holds (span : ClauseSpan) (place : Nat) : Prop := span.start ≤ place ∧ place ≤ span.stop

instance (span : ClauseSpan) (place : Nat) : Decidable (span.Holds place) :=
  inferInstanceAs (Decidable (_ ∧ _))

end ClauseSpan

theorem piecesFrom_eq {start : Nat} {text : List Char} {cuts : List Nat}
    (late : ∀ cut ∈ cuts, start ≤ cut) (increasing : cuts.Pairwise (· < ·)) :
    piecesFrom start (text.drop start) cuts =
      (spansFrom start text.length cuts).map fun span => (span.start, span.slice text) := by
  induction cuts generalizing start with
  | nil =>
      simp only [piecesFrom, spansFrom, List.map_singleton, ClauseSpan.slice, slice]
      rw [List.take_of_length_le (by simp)]
  | cons cut cuts induction =>
      rcases List.pairwise_cons.mp increasing with ⟨first, later⟩
      have behind : start + (cut + 1 - start) = cut + 1 := by
        have := late cut (List.mem_cons_self ..)
        omega
      rw [piecesFrom, spansFrom, List.map_cons, List.drop_drop, behind, induction first later]
      rfl

theorem pieces_eq (body : List Char) :
    piecesFrom 0 (stripComments body) (cuts body) =
      (clauseSpans body).map fun span => (span.start, span.slice (stripComments body)) := by
  have pieces : piecesFrom 0 ((stripComments body).drop 0) (cuts body) = _ :=
    piecesFrom_eq (fun cut _ => Nat.zero_le cut) (cuts_increasing body)
  rwa [length_stripComments] at pieces

theorem le_start_of_mem_spansFrom {start stop : Nat} {cuts : List Nat} {span : ClauseSpan}
    (late : ∀ cut ∈ cuts, start ≤ cut) (increasing : cuts.Pairwise (· < ·))
    (member : span ∈ spansFrom start stop cuts) : start ≤ span.start := by
  induction cuts generalizing start with
  | nil => exact List.mem_singleton.mp member ▸ Nat.le_refl _
  | cons cut cuts induction =>
      rcases List.pairwise_cons.mp increasing with ⟨first, later⟩
      have here := late cut (List.mem_cons_self ..)
      rcases List.mem_cons.mp member with rfl | member
      · exact Nat.le_refl _
      · have behind := induction first later member
        omega

theorem holds_iff_countP {start stop place index count : Nat} {cuts : List Nat} {span : ClauseSpan}
    (late : ∀ cut ∈ cuts, start ≤ cut) (increasing : cuts.Pairwise (· < ·))
    (downTo : start ≤ place) (upTo : place ≤ stop)
    (member : (span, index) ∈ (spansFrom start stop cuts).zipIdx count) :
    span.Holds place ↔ count + cuts.countP (· < place) = index := by
  induction cuts generalizing start count with
  | nil =>
      cases List.mem_singleton.mp member
      exact iff_of_true ⟨downTo, upTo⟩ rfl
  | cons cut cuts induction =>
      rcases List.pairwise_cons.mp increasing with ⟨first, later⟩
      rw [spansFrom, List.zipIdx_cons] at member
      by_cases behind : cut < place
      · rw [List.countP_cons_of_pos (by simpa using behind)]
        rcases List.mem_cons.mp member with here | member
        · cases here
          exact iff_of_false (fun holds => Nat.not_lt.mpr holds.2 behind) (by omega)
        · rw [induction first later behind member]
          omega
      · have none : (cut :: cuts).countP (· < place) = 0 := by
          rw [List.countP_eq_zero]
          refine List.forall_mem_cons.mpr ⟨by simpa using behind, fun other listed => ?_⟩
          have := first other listed
          simp only [decide_eq_true_eq]
          omega
        rw [none, Nat.add_zero]
        rcases List.mem_cons.mp member with here | member
        · cases here
          exact iff_of_true ⟨downTo, Nat.not_lt.mp behind⟩ rfl
        · have start : cut + 1 ≤ span.start :=
            le_start_of_mem_spansFrom first later (List.fst_mem_of_mem_zipIdx member)
          have next := List.le_snd_of_mem_zipIdx member
          refine iff_of_false (fun holds => ?_) (by simp only at next; omega)
          have := holds.1
          omega

theorem length_spansFrom (start stop : Nat) (cuts : List Nat) :
    (spansFrom start stop cuts).length = cuts.length + 1 := by
  induction cuts generalizing start with
  | nil => rfl
  | cons cut cuts induction => rw [spansFrom, List.length_cons, induction, List.length_cons]

theorem holds_iff_pieceIndex {body : List Char} {span : ClauseSpan} {index place : Nat}
    (listed : (clauseSpans body)[index]? = some span) (inside : place ≤ body.length) :
    span.Holds place ↔ pieceIndex (cuts body) place = index := by
  have member : (span, index) ∈ (clauseSpans body).zipIdx 0 :=
    List.mk_mem_zipIdx_iff_getElem?.mpr listed
  have holds := holds_iff_countP (fun cut _ => Nat.zero_le cut) (cuts_increasing body)
    (Nat.zero_le place) inside member
  rwa [Nat.zero_add] at holds

/-- Every place belongs to one clause. -/
theorem existsUnique_holds {body : List Char} {place : Nat} (inside : place ≤ body.length) :
    ∃! span, span ∈ clauseSpans body ∧ span.Holds place := by
  have short : pieceIndex (cuts body) place < (clauseSpans body).length := by
    rw [clauseSpans, length_spansFrom, pieceIndex]
    exact Nat.lt_succ_of_le List.countP_le_length
  have listed := List.getElem?_eq_getElem short
  refine ⟨_, ⟨List.getElem_mem short, (holds_iff_pieceIndex listed inside).mpr rfl⟩, ?_⟩
  rintro span ⟨member, holds⟩
  rcases List.mem_iff_getElem?.mp member with ⟨index, listed'⟩
  rw [← (holds_iff_pieceIndex listed' inside).mp holds, listed] at listed'
  exact (Option.some.inj listed').symm

/-! ## Runs -/

theorem exists_run_of_mem_spansFrom {behind : Behind} {segments : List Segment}
    (reads : Reads behind segments ['\n']) (fresh : behind.Fresh) {start : Nat} {span : ClauseSpan}
    (member : span ∈ spansFrom start (start + (textOf segments).length)
      (cutsFrom start 0 (maskOf segments))) :
    ∃ before run after, segments = before ++ (run ++ after) ∧
      span.start = start + (textOf before).length ∧
      span.stop = span.start + (textOf run).length ∧ Reads .start run ['\n'] := by
  generalize listed : cutsFrom start 0 (maskOf segments) = cuts at member
  induction cuts generalizing behind segments start with
  | nil =>
      cases List.mem_singleton.mp member
      exact ⟨[], segments, [], by simp, rfl, rfl, reads.congr (fresh.agrees Behind.start_fresh)⟩
  | cons cut cuts induction =>
      rcases cutsFrom_eq_cons listed with ⟨before, after, masked, rfl, rfl, _, _⟩
      rcases exists_code_of_maskOf reads masked (by decide) (.inr (by simp)) with
        ⟨first, second, rfl, rfl, rfl⟩
      rcases reads_append.mp reads with ⟨readsFirst, readsSecond⟩
      rw [length_maskOf] at member induction
      rcases List.mem_cons.mp member with rfl | member
      · refine ⟨[], first, .code ',' :: second, rfl, rfl, rfl, ?_⟩
        exact readsFirst.alone fresh (quiet_cons (by decide) []) fun kind text _ =>
          ⟨by simp, by cases kind <;> simp [RegionKind.MayEndBefore]⟩
      · have stop : start + (textOf (first ++ .code ',' :: second)).length =
            start + (textOf first).length + 1 + (textOf second).length := by
          simp only [textOf_append, textOf_cons, Segment.text_code, List.length_append,
            List.length_singleton]
          omega
        rw [stop] at member
        rcases induction readsSecond.2 (Behind.push_fresh _ (by decide)) rfl member with
          ⟨before, run, after, rfl, starts, stops, alone⟩
        refine ⟨first ++ .code ',' :: before, run, after, by simp, ?_, stops, alone⟩
        rw [starts]
        simp only [textOf_append, textOf_cons, Segment.text_code, List.length_append,
          List.length_singleton]
        omega

theorem exists_run_of_mem_clauseSpans {body : List Char}
    (closed : Reads .start (segments body) ['\n']) {span : ClauseSpan}
    (member : span ∈ clauseSpans body) :
    ∃ run, Reads .start run ['\n'] ∧ span.slice (mask body) = maskOf run ∧
      span.slice (stripComments body) = strippedOf run := by
  have text : textOf (segments body) = body := text_segments body
  have listed : span ∈ spansFrom 0 (0 + (textOf (segments body)).length)
      (cutsFrom 0 0 (maskOf (segments body))) := by
    rwa [text, Nat.zero_add]
  rcases exists_run_of_mem_spansFrom closed Behind.start_fresh listed with
    ⟨before, run, after, cut, starts, stops, alone⟩
  rw [Nat.zero_add] at starts
  refine ⟨run, alone, ?_, ?_⟩
  · rw [ClauseSpan.slice, mask, cut, stops, starts]
    exact slice_flatMap Segment.length_masked ..
  · rw [ClauseSpan.slice, stripComments, cut, stops, starts]
    exact slice_flatMap Segment.length_stripped ..

end TableSchema.Sql
