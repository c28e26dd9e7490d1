import TableSchema.Proofs.OwnersInOrder
import TableSchema.Proofs.VariedColumns

/-! # Variations of clauses

Variations of a body are cut at the same commas. So their clauses are variations of one another, and
are read alike if the same comments belong to them.
-/

namespace TableSchema.Sql

open Text

variable {lines strings : Prop}

/-! ## Cuts -/

theorem surplus_respaced {first second : List Char} (same : Respaced lines first second) :
    surplus first = surplus second := by
  have blank {blanks : List Char} (blank : AllBlank blanks) : surplus blanks = 0 := by
    induction blanks with
    | nil => rfl
    | cons character blanks induction =>
        rcases List.forall_mem_cons.mp blank with ⟨here, later⟩
        have other {mark : Char} (visible : isBlank mark = false) : character ≠ mark := by
          rintro rfl
          rw [visible] at here
          cases here
        rw [surplus, if_neg (other (by decide)), if_neg (other (by decide)), induction later]
  induction same with
  | nil => rfl
  | cons character _ induction => rw [surplus, surplus, induction]
  | part exchanged _ induction =>
      rw [surplus_append, surplus_append, blank exchanged.blank_left, blank exchanged.blank_right,
        induction]

theorem uncut_respaced {first second : List Char} (same : Respaced lines first second)
    (uncut : cutsFrom 0 0 first = []) : cutsFrom 0 0 second = [] := by
  rw [List.eq_nil_iff_forall_not_mem] at uncut ⊢
  intro cut member
  rcases mem_cutsFrom_iff.mp member with ⟨before, after, rfl, rfl, level⟩
  rcases Respaced.exists_of_visible (by decide) same.symm with ⟨before', after', rfl, front, _⟩
  rw [surplus_respaced front] at level
  exact uncut _ (mem_cutsFrom_iff.mpr ⟨before', after', rfl, rfl, level⟩)

theorem cutsFrom_comma (start : Nat) {before : List Char} (uncut : cutsFrom 0 0 before = [])
    (level : surplus before = 0) (after : List Char) :
    cutsFrom start 0 (before ++ ',' :: after) =
      (start + before.length) :: cutsFrom (start + before.length + 1) 0 after := by
  rw [cutsFrom_append, (cutsFrom_eq_nil_iff start before).mpr uncut, level]
  rfl

/-! ## Pieces -/

structure RunAt (segments : List Segment) (start : Nat) (piece : Nat × List Char)
    (before run : List Segment) : Prop where
  stands : ∃ after, segments = before ++ (run ++ after)
  piece : piece = (start + (textOf before).length, strippedOf run)
  reads : Reads .start run ['\n']

theorem RunAt.behind {segments first : List Segment} {start : Nat} {piece : Nat × List Char}
    {before run : List Segment}
    (stands : RunAt segments (start + (maskOf first).length + 1) piece before run) :
    RunAt (first ++ .code ',' :: segments) start piece (first ++ .code ',' :: before) run := by
  rcases stands with ⟨⟨after, rfl⟩, rfl, reads⟩
  refine ⟨⟨after, by simp⟩, ?_, reads⟩
  simp only [length_maskOf, textOf_append, textOf_cons, Segment.text_code, List.length_append,
    List.length_singleton, Nat.add_assoc]

def PieceVaries (lines strings : Prop) (segments segments' : List Segment) (start start' : Nat)
    (piece piece' : Nat × List Char) : Prop :=
  ∃ before run before' run', RunAt segments start piece before run ∧
    RunAt segments' start' piece' before' run' ∧ Varied lines strings before before' ∧
    Varied lines strings run run'

def pieces (start : Nat) (segments : List Segment) : List (Nat × List Char) :=
  piecesFrom start (strippedOf segments) (cutsFrom start 0 (maskOf segments))

theorem pieces_varied {behind behind' : Behind} {segments segments' : List Segment}
    (reads : Reads behind segments ['\n']) (fresh : behind.Fresh)
    (reads' : Reads behind' segments' ['\n']) (fresh' : behind'.Fresh)
    (same : Varied lines strings segments segments') (start start' : Nat) :
    List.Forall₂ (PieceVaries lines strings segments segments' start start')
      (pieces start segments) (pieces start' segments') := by
  unfold pieces
  generalize listed : cutsFrom start 0 (maskOf segments) = cuts
  induction cuts generalizing behind behind' segments segments' start start' with
  | nil =>
      have uncut := uncut_respaced same.maskOf ((cutsFrom_eq_nil_iff start _).mp listed)
      rw [(cutsFrom_eq_nil_iff start' _).mpr uncut]
      have whole {behind : Behind} {segments : List Segment} (reads : Reads behind segments ['\n'])
          (fresh : behind.Fresh) (start : Nat) :
          RunAt segments start (start, strippedOf segments) [] segments :=
        ⟨⟨[], by simp⟩, rfl, reads.congr (fresh.agrees Behind.start_fresh)⟩
      exact .cons
        ⟨[], _, [], _, whole reads fresh start, whole reads' fresh' start', .nil, same⟩ .nil
  | cons cut cuts induction =>
      rcases cutsFrom_eq_cons listed with ⟨before, after, masked, rfl, rfl, uncut, level⟩
      rcases exists_code_of_maskOf reads masked (by decide) (.inr (by simp)) with
        ⟨first, second, rfl, rfl, rfl⟩
      rcases SameBut.exists_of_append_cons (Variation.code_not_mem (by decide)) same with
        ⟨first', second', rfl, front, back⟩
      have uncut' := uncut_respaced (Varied.maskOf front) ((cutsFrom_eq_nil_iff start _).mp uncut)
      have level' : surplus (maskOf first') = 0 := by
        rw [← surplus_respaced (Varied.maskOf front)]
        omega
      rw [maskOf_append, maskOf_cons, Segment.masked_code, List.singleton_append,
        cutsFrom_comma start' uncut' level', piecesFrom_comma, piecesFrom_comma]
      rcases reads_append.mp reads with ⟨readsFirst, readsSecond⟩
      rcases reads_append.mp reads' with ⟨readsFirst', readsSecond'⟩
      have here {behind : Behind} {first second : List Segment} (fresh : behind.Fresh)
          (reads : Reads behind first (textOf (.code ',' :: second) ++ ['\n'])) (start : Nat) :
          RunAt (first ++ .code ',' :: second) start (start, strippedOf first) [] first :=
        ⟨⟨.code ',' :: second, rfl⟩, rfl, reads.alone fresh (quiet_cons (by decide) [])
          fun kind text _ => ⟨by simp, by cases kind <;> simp [RegionKind.MayEndBefore]⟩⟩
      refine .cons ⟨[], first, [], first', here fresh readsFirst start,
        here fresh' readsFirst' start', .nil, front⟩ ?_
      refine (induction readsSecond.2 (Behind.push_fresh _ (by decide)) readsSecond'.2
        (Behind.push_fresh _ (by decide)) back _ _ rfl).imp ?_
      rintro piece piece' ⟨before, run, before', run', stands, stands', fronts, runs⟩
      exact ⟨_, run, _, run', stands.behind, stands'.behind, front.append (.cons _ fronts), runs⟩

/-! ## Trimming -/

def Segment.isBlankCode : Segment → Bool
  | .code character => isBlank character
  | .region .. => false

def trimRunLeft (run : List Segment) : List Segment := run.dropWhile Segment.isBlankCode

def coreOf (run : List Segment) : List Segment :=
  (trimRunLeft (trimRunLeft (bareOf run)).reverse).reverse

theorem isBlankCode_of_mem_map {blanks : List Char} (blank : AllBlank blanks) :
    AllPass Segment.isBlankCode (blanks.map .code) := by
  intro segment member
  rcases List.mem_map.mp member with ⟨character, listed, rfl⟩
  exact blank character listed

theorem trimRunLeft_blanks {blanks : List Char} {run : List Segment} (blank : AllBlank blanks)
    (starts : ∀ character, run.head? = some (.code character) → isBlank character = false) :
    trimRunLeft (blanks.map .code ++ run) = run := by
  refine (takeWhile_of_stop _ run (isBlankCode_of_mem_map blank) ?_).2
  rintro (_ | _) first
  · exact starts _ first
  · rfl

theorem coreOf_of_reads {run : List Segment} (reads : Reads .start run ['\n']) :
    Legible (coreOf run) ∧ Trimmed (textOf (coreOf run)) ∧
      trim (strippedOf run) = textOf (coreOf run) := by
  have legible : Legible (bareOf run) :=
    ⟨reads.bare (.inl (Behind.Agrees.refl _)), fun _ _ => uncommented_bareOf⟩
  rcases legible.exists_leading with ⟨before, rest, whole, blank, legible, bare⟩
  rcases legible.exists_trailing with ⟨core, after, rfl, blank', legible, ends⟩
  have leading : trimRunLeft (bareOf run) = core ++ after.map .code := by
    rw [whole]
    refine trimRunLeft_blanks blank fun character first => bare character ?_
    rcases List.head?_eq_some_iff.mp first with ⟨_, same⟩
    rw [same]
    rfl
  have same : coreOf run = core := by
    have last : trimRunLeft (after.reverse.map .code ++ core.reverse) = core.reverse := by
      refine trimRunLeft_blanks
        (fun character member => blank' character (List.mem_reverse.mp member))
        fun character first => ends character ?_
      rw [List.head?_reverse] at first
      rcases List.getLast?_eq_some_iff.mp first with ⟨_, rfl⟩
      simp
    rw [coreOf, leading, List.reverse_append, ← List.map_reverse, last, List.reverse_reverse]
  have trimmed : Trimmed (textOf core) := by
    refine ⟨fun character first => bare character ?_, ends⟩
    rw [textOf_append, List.head?_append, first]
    rfl
  rw [same]
  refine ⟨legible, trimmed, ?_⟩
  rw [← textOf_bareOf, whole, textOf_append, textOf_append, textOf_map_code, textOf_map_code]
  exact trim_blanks blank blank' trimmed

namespace Varied

variable {run run' : List Segment}

theorem trimRunLeft (same : Varied lines strings run run') :
    Varied lines strings (trimRunLeft run) (Sql.trimRunLeft run') := by
  refine same.dropWhile ?_
  rintro part part' (⟨runs⟩ | _ | _)
  · exact .inl ⟨isBlankCode_of_mem_map runs.blank_left, isBlankCode_of_mem_map runs.blank_right⟩
  · exact .inr ⟨⟨_, _, rfl, rfl⟩, ⟨_, _, rfl, rfl⟩⟩
  · exact .inr ⟨⟨_, _, rfl, rfl⟩, ⟨_, _, rfl, rfl⟩⟩

theorem reverse (same : Varied lines strings run run') :
    Varied lines strings run.reverse run'.reverse :=
  SameBut.reverse (fun _ _ varied => varied.reverse) same

theorem bareOf (same : Varied lines strings run run') :
    Varied lines strings (bareOf run) (Sql.bareOf run') := by
  refine same.flatMap _ fun part part' exchanged => ?_
  cases exchanged with
  | blanks runs =>
      have code (text : List Char) :
          (text.map Segment.code).flatMap Segment.bare = text.map .code := by
        induction text with
        | nil => rfl
        | cons character text induction => exact congrArg (_ :: ·) induction
      rw [code, code]
      exact .single (.blanks runs)
  | comment comment runs _ =>
      rw [List.flatMap_singleton, List.flatMap_singleton, Segment.bare_of_comment comment,
        Segment.bare_of_comment comment]
      exact .single (.blanks runs)
  | string allowed nonempty masked => exact .single (.string allowed nonempty masked)

theorem coreOf (same : Varied lines strings run run') :
    Varied lines strings (coreOf run) (Sql.coreOf run') :=
  reverse (trimRunLeft (reverse (trimRunLeft (bareOf same))))

end Varied

/-! ## Clauses -/

structure Clause.Varies (lines strings : Prop) (body body' : List Char) (clause clause' : Clause) :
    Prop where
  line : lines → newlines (body.take clause.offset) = newlines (body'.take clause'.offset)
  read : ReadAlike (¬ strings) (classify clause.text) (classify clause'.text)

theorem blanksAtStart_strippedOf {run : List Segment} (reads : Reads .start run ['\n']) :
    blanksAtStart (strippedOf run) = blanksAtStart (maskOf run) := by
  have legible : Legible (bareOf run) :=
    ⟨reads.bare (.inl (Behind.Agrees.refl _)), fun _ _ => uncommented_bareOf⟩
  rcases legible.exists_leading with ⟨before, rest, whole, blank, legible, bare⟩
  have bare' : Bare (maskOf rest) := by
    rw [Bare, legible.head?_maskOf]
    exact bare
  rw [← textOf_bareOf, ← maskOf_bareOf, whole, textOf_append, maskOf_append, textOf_map_code,
    maskOf_map_code, blanksAtStart_blanks blank bare, blanksAtStart_blanks blank bare']

theorem RunAt.newlines_take {body : List Char} {piece : Nat × List Char} {before run : List Segment}
    (stands : RunAt (segments body) 0 piece before run) :
    newlines (body.take (piece.1 + blanksAtStart piece.2)) =
      newlines (maskOf before) + newlines ((maskOf run).takeWhile isBlank) := by
  rcases stands with ⟨⟨after, whole⟩, rfl, reads⟩
  have masked : mask body = maskOf before ++ (maskOf run ++ maskOf after) := by
    rw [mask, whole, List.flatMap_append, List.flatMap_append]
    rfl
  have taken : (maskOf run ++ maskOf after).take (blanksAtStart (maskOf run)) =
      (maskOf run).takeWhile isBlank := by
    rw [blanksAtStart, List.take_append_of_le_length (List.takeWhile_prefix isBlank).length_le]
    exact (List.prefix_iff_eq_take.mp (List.takeWhile_prefix isBlank)).symm
  rw [← newlines_take_mask, blanksAtStart_strippedOf reads, masked, Nat.zero_add, ← length_maskOf,
    List.take_length_add_append, taken, newlines, newlines, newlines, List.count_append]

theorem clauseOf?_varied {body body' : List Char} {piece piece' : Nat × List Char}
    (varies : PieceVaries lines strings (segments body) (segments body') 0 0 piece piece')
    {comments : List (List Char)} (said : ∀ text ∈ comments, text ≠ [] ∧ Trimmed text)
    (oneLine : '\n' ∉ joinWords comments) :
    Option.Rel (Clause.Varies lines strings body body') (clauseOf? piece comments)
      (clauseOf? piece' comments) := by
  rcases varies with ⟨before, run, before', run', stands, stands', fronts, runs⟩
  have counted : lines → newlines (body.take (piece.1 + blanksAtStart piece.2)) =
      newlines (body'.take (piece'.1 + blanksAtStart piece'.2)) := by
    intro matter
    have blanks := (runs.maskOf.span (blind_of_blanks true fun _ => id)).1
    rw [stands.newlines_take, stands'.newlines_take, fronts.maskOf.newlines_eq matter,
      Respaced.newlines_eq blanks matter]
  rcases coreOf_of_reads stands.reads with ⟨legible, trimmed, code⟩
  rcases coreOf_of_reads stands'.reads with ⟨legible', trimmed', code'⟩
  have nil_iff := SameBut.nil_iff Variation.lasting runs.coreOf
  unfold clauseOf?
  rw [stands.piece] at counted ⊢
  rw [stands'.piece] at counted ⊢
  simp only [code, code']
  by_cases empty : coreOf run = []
  · rw [empty, nil_iff.mp empty]
    exact .none
  · have nonempty := legible.reads.textOf_ne_nil empty
    have nonempty' := legible'.reads.textOf_ne_nil (mt nil_iff.mpr empty)
    rw [if_neg (mt List.isEmpty_iff.mp nonempty), if_neg (mt List.isEmpty_iff.mp nonempty')]
    refine .some ⟨counted, ?_⟩
    simp only [classify]
    rw [legible.ofClause_texts trimmed empty said oneLine,
      legible'.ofClause_texts trimmed' (mt nil_iff.mpr empty) said oneLine]
    exact classify_varied legible legible' runs.coreOf _

theorem forall₂_zipIdx {α β : Type} {relation : α → β → Prop} {first : List α} {second : List β}
    (related : List.Forall₂ relation first second) (start : Nat) :
    List.Forall₂ (fun placed placed' => relation placed.1 placed'.1 ∧ placed.2 = placed'.2)
      (first.zipIdx start) (second.zipIdx start) := by
  induction related generalizing start with
  | nil => exact .nil
  | cons here _ induction =>
      rw [List.zipIdx_cons, List.zipIdx_cons]
      exact .cons ⟨here, rfl⟩ (induction (start + 1))

/-- Variations of a body whose comments belong to the same clauses have clauses that are variations
of one another. -/
theorem clauses_varied {body body' : List Char} (closed : Reads .start (segments body) ['\n'])
    (closed' : Reads .start (segments body') ['\n'])
    (same : Varied lines strings (segments body) (segments body'))
    (owned : ownedComments body = ownedComments body') :
    List.Forall₂ (Clause.Varies lines strings body body') (clauses body) (clauses body') := by
  rw [clauses, clauses, ← owned]
  refine List.rel_filterMap ?_ (forall₂_zipIdx
    (pieces_varied closed Behind.start_fresh closed' Behind.start_fresh same 0 0) 0)
  rintro ⟨piece, index⟩ ⟨piece', _⟩ ⟨varies, rfl⟩
  refine clauseOf?_varied varies (fun text member => ?_) (oneLine_of_owned body index)
  rcases List.mem_map.mp member with ⟨comment, listed, rfl⟩
  exact shown_of_mem_ownedComments (List.mem_filter.mp listed).1

end TableSchema.Sql
