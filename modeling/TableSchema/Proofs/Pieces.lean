import Mathlib.Data.List.Induction
import TableSchema.Proofs.Parentheses
import TableSchema.Proofs.Scanning
import TableSchema.Proofs.Stripping

/-! # Pieces of a body

A body is cut at commas that its mask shows, so each piece is a run of segments. What a clause says
without its comments is such a run, of code and closed literals only, with the blanks around it
trimmed away.
-/

namespace TableSchema.Sql

open Text

/-! ## Pieces as runs -/

inductive Divides : List Segment → List (List Segment) → Prop
  | last {run : List Segment} (uncut : cutsFrom 0 0 (maskOf run) = []) : Divides run [run]
  | more {run segments : List Segment} {runs : List (List Segment)}
      (uncut : cutsFrom 0 0 (maskOf run) = []) (level : surplus (maskOf run) = 0)
      (rest : Divides segments runs) : Divides (run ++ .code ',' :: segments) (run :: runs)

theorem piecesFrom_cons (start : Nat) (first second : List Char) (cuts : List Nat) :
    piecesFrom start (first ++ ',' :: second) ((start + first.length) :: cuts) =
      (start, first) :: piecesFrom (start + first.length + 1) second cuts := by
  have behind : start + first.length + 1 - start = first.length + 1 := by omega
  rw [piecesFrom, behind, Nat.add_sub_cancel_left, List.take_left, List.drop_length_add_append]
  rfl

theorem piecesFrom_comma (start : Nat) (first second : List Segment) (cuts : List Nat) :
    piecesFrom start (strippedOf (first ++ .code ',' :: second))
        ((start + (maskOf first).length) :: cuts) =
      (start, strippedOf first) ::
        piecesFrom (start + (maskOf first).length + 1) (strippedOf second) cuts := by
  have same : (maskOf first).length = (strippedOf first).length := by simp
  rw [strippedOf_append, strippedOf_cons, same]
  exact piecesFrom_cons start (strippedOf first) (strippedOf second) cuts

/-- Each piece of a body is a run of segments that is cut in the same way by itself. -/
theorem exists_division {behind : Behind} {segments : List Segment}
    (reads : Reads behind segments ['\n']) (fresh : behind.Fresh) (start : Nat) :
    ∃ runs, Divides segments runs ∧ (∀ run ∈ runs, Reads .start run ['\n']) ∧
      (piecesFrom start (strippedOf segments) (cutsFrom start 0 (maskOf segments))).map (·.2) =
        runs.map strippedOf := by
  generalize listed : cutsFrom start 0 (maskOf segments) = cuts
  induction cuts generalizing behind segments start with
  | nil =>
      refine ⟨[segments], .last ((cutsFrom_eq_nil_iff start _).mp listed), ?_, rfl⟩
      intro run member
      rw [List.mem_singleton.mp member]
      exact reads.congr (fresh.agrees Behind.start_fresh)
  | cons cut cuts induction =>
      rcases cutsFrom_eq_cons listed with ⟨before, after, masked, rfl, rfl, uncut, level⟩
      rcases exists_code_of_maskOf reads masked (by decide) (.inr (by simp)) with
        ⟨first, second, rfl, rfl, rfl⟩
      rcases reads_append.mp reads with ⟨readsFirst, readsSecond⟩
      rcases induction readsSecond.2 (Behind.push_fresh _ (by decide))
        (start + (maskOf first).length + 1) rfl with ⟨runs, divides, alone, pieces⟩
      refine ⟨first :: runs, .more ((cutsFrom_eq_nil_iff start _).mp uncut) (by omega) divides, ?_, ?_⟩
      · intro run member
        rcases List.mem_cons.mp member with rfl | member
        · exact readsFirst.alone fresh (quiet_cons (by decide) []) fun kind text _ =>
            ⟨by simp, by cases kind <;> simp [RegionKind.MayEndBefore]⟩
        · exact alone run member
      · rw [piecesFrom_comma, List.map_cons, List.map_cons, pieces]

theorem Divides.balanced {segments : List Segment} {runs : List (List Segment)}
    (divides : Divides segments runs) (balanced : Balanced (maskOf segments)) :
    ∀ run ∈ runs, Balanced (maskOf run) := by
  induction divides with
  | last =>
      intro run member
      rwa [List.mem_singleton.mp member]
  | @more first segments runs _ level _ induction =>
      rw [maskOf_append] at balanced
      rcases balanced.of_append level with ⟨before, after⟩
      intro run member
      rcases List.mem_cons.mp member with rfl | member
      · exact before
      · exact induction after run member

theorem Divides.uncut {segments : List Segment} {runs : List (List Segment)}
    (divides : Divides segments runs) : ∀ run ∈ runs, cutsFrom 0 0 (maskOf run) = [] := by
  induction divides with
  | last uncut =>
      intro run member
      rwa [List.mem_singleton.mp member]
  | more uncut _ _ induction => exact List.forall_mem_cons.mpr ⟨uncut, induction⟩

/-! ## Legible runs -/

/-- A run of code and literals that is cut in the same way by itself, with every literal closed. -/
structure Legible (run : List Segment) : Prop where
  reads : Reads .start run ['\n']
  uncommented : ∀ kind text, .region kind text ∈ run → kind.isComment = false

theorem Reads.delimited {behind : Behind} {segments : List Segment} {after : List Char}
    (reads : Reads behind segments after) (more : after ≠ []) {kind : RegionKind}
    {text : List Char} (member : .region kind text ∈ segments) (literal : kind.isComment = false) :
    ∃ delimiter inside, delimiter ∈ ['\'', '"', '$'] ∧
      text = delimiter :: (inside ++ [delimiter]) := by
  induction segments generalizing behind with
  | nil => cases member
  | cons segment segments induction =>
      rcases List.mem_cons.mp member with rfl | member
      · exact (reads.1.closed (List.append_ne_nil_of_right_ne_nil _ more)).delimited literal
      · exact induction reads.2 member

namespace Legible

variable {run : List Segment}

theorem nil : Legible [] := ⟨trivial, fun _ _ member => by cases member⟩

theorem segments_textOf (legible : Legible run) : segments (textOf run) = run := by
  apply Sql.segments_textOf
  exact legible.reads.alone Behind.start_fresh quiet_nil fun kind _ _ =>
    ⟨by simp, by cases kind <;> simp [RegionKind.MayEndBefore]⟩

theorem of_blank_cons {blank : Char} (isBlank : isBlank blank = true)
    (legible : Legible (.code blank :: run)) : Legible run where
  reads := legible.reads.2.congr
    (Behind.push_fresh _ (isWord_eq_false_of_isBlank isBlank) |>.agrees Behind.start_fresh)
  uncommented kind text member := legible.uncommented kind text (List.mem_cons_of_mem _ member)

theorem of_append (run' : List Segment) (legible : Legible (run ++ run')) : Legible run where
  reads := by
    apply (reads_append.mp legible.reads).1.followedBy (quiet_cons (by decide) [])
    intro kind text _
    exact ⟨by simp, by cases kind <;> simp [RegionKind.MayEndBefore]⟩
  uncommented kind text member :=
    legible.uncommented kind text (List.mem_append_left _ member)

theorem shown (legible : Legible run) {segment : Segment} (member : segment ∈ run) :
    segment.text ≠ [] ∧ segment.masked.head? = segment.text.head? ∧
      segment.masked.getLast? = segment.text.getLast? := by
  cases segment with
  | code character => exact ⟨by simp, rfl, rfl⟩
  | region kind text =>
      have literal := legible.uncommented kind text member
      rcases legible.reads.delimited (by simp) member literal with ⟨delimiter, inside, _, rfl⟩
      rw [Segment.masked, literal, Segment.text_region]
      simp only [Bool.false_eq_true, if_false, hideInside_of_delimited]
      exact ⟨by simp, rfl, by rw [← List.cons_append, ← List.cons_append, List.getLast?_concat,
        List.getLast?_concat]⟩

theorem trimmed_text (legible : Legible run) {segment : Segment} (member : segment ∈ run)
    (visible : ∀ blank, segment = .code blank → isBlank blank = false) : Trimmed segment.text := by
  cases segment with
  | code character =>
      have shown := visible character rfl
      exact ⟨bare_cons shown [], by simpa using shown⟩
  | region kind text =>
      have literal := legible.uncommented kind text member
      rcases legible.reads.delimited (by simp) member literal with ⟨delimiter, inside, marked, rfl⟩
      have shown := visible_of_delimiter marked
      refine ⟨bare_cons shown _, fun character last => ?_⟩
      rw [Segment.text_region, ← List.cons_append, List.getLast?_concat] at last
      cases last
      exact shown

theorem head?_maskOf (legible : Legible run) : (maskOf run).head? = (textOf run).head? := by
  cases run with
  | nil => rfl
  | cons segment segments =>
      rcases legible.shown (List.mem_cons_self ..) with ⟨nonempty, first, _⟩
      rcases List.exists_cons_of_ne_nil nonempty with ⟨character, rest, text⟩
      rw [maskOf_cons, textOf_cons, List.head?_append, List.head?_append, first, text]
      rfl

theorem getLast?_maskOf (legible : Legible run) : (maskOf run).getLast? = (textOf run).getLast? := by
  rcases List.eq_nil_or_concat run with rfl | ⟨front, segment, rfl⟩
  · rfl
  · rw [List.concat_eq_append] at legible ⊢
    rcases legible.shown (List.mem_append_right front (List.mem_singleton_self segment)) with
      ⟨nonempty, _, last⟩
    rcases Option.isSome_iff_exists.mp (List.getLast?_isSome.mpr nonempty) with ⟨character, ends⟩
    rw [maskOf_append, textOf_append, List.getLast?_append, List.getLast?_append, maskOf_cons,
      textOf_cons, maskOf_nil, textOf_nil, List.append_nil, List.append_nil, last, ends]
    rfl

theorem trimmed_maskOf (legible : Legible run) (trimmed : Trimmed (textOf run)) :
    Trimmed (maskOf run) := by
  unfold Trimmed Bare
  rw [legible.head?_maskOf, legible.getLast?_maskOf]
  exact trimmed

theorem stripped_eq (legible : Legible run) {segment : Segment} (member : segment ∈ run) :
    segment.stripped = segment.text := by
  cases segment with
  | code => rfl
  | region kind text => exact Segment.stripped_of_literal (legible.uncommented kind text member)

theorem strippedOf_eq (legible : Legible run) : strippedOf run = textOf run := by
  rw [strippedOf, textOf, List.flatMap_def, List.flatMap_def,
    List.map_congr_left fun _ member => legible.stripped_eq member]

/-! ### Trimming -/

theorem exists_leading (legible : Legible run) :
    ∃ blanks rest, run = blanks.map .code ++ rest ∧ AllBlank blanks ∧ Legible rest ∧
      Bare (textOf rest) := by
  induction run with
  | nil => exact ⟨[], [], rfl, allBlank_nil, nil, bare_nil⟩
  | cons segment run induction =>
      by_cases leading : ∃ blank, segment = .code blank ∧ Text.isBlank blank = true
      · rcases leading with ⟨blank, rfl, isBlank⟩
        rcases induction (legible.of_blank_cons isBlank) with
          ⟨blanks, rest, rfl, allBlank, legible, bare⟩
        exact ⟨blank :: blanks, rest, rfl, List.forall_mem_cons.mpr ⟨isBlank, allBlank⟩, legible, bare⟩
      · refine ⟨[], segment :: run, rfl, allBlank_nil, legible, ?_⟩
        have member : segment ∈ segment :: run := List.mem_cons_self ..
        have trimmed := legible.trimmed_text member (by simpa using leading)
        rcases List.exists_cons_of_ne_nil (legible.shown member).1 with ⟨first, others, text⟩
        rw [textOf_cons, text]
        exact bare_cons (trimmed.1 first (by rw [text]; rfl)) _

theorem exists_trailing (legible : Legible run) :
    ∃ rest blanks, run = rest ++ blanks.map .code ∧ AllBlank blanks ∧ Legible rest ∧
      ∀ character ∈ (textOf rest).getLast?, isBlank character = false := by
  induction run using List.reverseRecOn with
  | nil => exact ⟨[], [], rfl, allBlank_nil, nil, by simp⟩
  | append_singleton run segment induction =>
      by_cases trailing : ∃ blank, segment = .code blank ∧ Text.isBlank blank = true
      · rcases trailing with ⟨blank, rfl, isBlank⟩
        rcases induction (legible.of_append _) with ⟨rest, blanks, rfl, allBlank, legible, ends⟩
        refine ⟨rest, blanks ++ [blank], by simp, ?_, legible, ends⟩
        exact List.forall_mem_append.mpr ⟨allBlank, by simpa using isBlank⟩
      · refine ⟨run ++ [segment], [], by simp, allBlank_nil, legible, ?_⟩
        have member : segment ∈ run ++ [segment] := by simp
        have trimmed := legible.trimmed_text member (by simpa using trailing)
        rcases Option.isSome_iff_exists.mp (List.getLast?_isSome.mpr (legible.shown member).1) with
          ⟨last, ends⟩
        rw [textOf_append, textOf_cons, textOf_nil, List.append_nil, List.getLast?_append, ends]
        rintro _ ⟨⟩
        exact trimmed.2 last ends

theorem exists_trimmed (legible : Legible run) :
    ∃ before core after, run = before.map .code ++ (core ++ after.map .code) ∧ AllBlank before ∧
      AllBlank after ∧ trim (textOf run) = textOf core ∧ Legible core ∧
      Trimmed (textOf core) := by
  rcases legible.exists_leading with ⟨before, rest, rfl, blank, legible, bare⟩
  rcases legible.exists_trailing with ⟨core, after, rfl, blank', legible, ends⟩
  have trimmed : Trimmed (textOf core) := by
    refine ⟨fun character first => bare character ?_, ends⟩
    rw [textOf_append, List.head?_append, first]
    rfl
  refine ⟨before, core, after, rfl, blank, blank', ?_, legible, trimmed⟩
  rw [textOf_append, textOf_append, textOf_map_code, textOf_map_code]
  exact trim_blanks blank blank' trimmed

end Legible

end TableSchema.Sql
