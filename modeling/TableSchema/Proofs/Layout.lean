import TableSchema.Proofs.RespacedSegments
import TableSchema.Proofs.VariedScripts

/-! # Layout

Blanks only separate. A script without line comments says the same however it is laid out.
-/

namespace TableSchema

open Sql Text

/-! ## Other layouts -/

/-- The text is what the segments are where runs of blanks outside regions are exchanged for other
runs of blanks: what is visible stays, and so does every region. -/
inductive Sql.LaidOut : List Segment → List Char → Prop
  | nil : LaidOut [] []
  | region (kind : RegionKind) (text : List Char) {rest : List Segment} {laidOut : List Char}
      (later : LaidOut rest laidOut) : LaidOut (.region kind text :: rest) (text ++ laidOut)
  | visible {character : Char} (visible : isBlank character = false) {rest : List Segment}
      {laidOut : List Char} (later : LaidOut rest laidOut) :
      LaidOut (.code character :: rest) (character :: laidOut)
  | blanks {gap gap' : List Char} (nonempty : gap ≠ []) (nonempty' : gap' ≠ [])
      (blank : AllBlank gap)
      (blank' : AllBlank gap') {rest : List Segment} {laidOut : List Char}
      (later : LaidOut rest laidOut) : LaidOut (gap.map .code ++ rest) (gap' ++ laidOut)

def Sql.NoLineComment (sql : List Char) : Prop :=
  ∀ region ∈ scan sql, region.kind ≠ .lineComment

instance (sql : List Char) : Decidable (NoLineComment sql) :=
  inferInstanceAs (Decidable (∀ region ∈ scan sql, _))

namespace Sql

variable {run : List Segment} {text : List Char}

theorem LaidOut.word {word : List Char} (visible : ∀ character ∈ word, isBlank character = false)
    (later : LaidOut run text) : LaidOut (word.map .code ++ run) (word ++ text) := by
  induction word with
  | nil => exact later
  | cons character word induction =>
      rcases List.forall_mem_cons.mp visible with ⟨here, others⟩
      exact .visible here (induction others)

theorem LaidOut.respaced (laidOut : LaidOut run text) :
    Respaced False (textOf run) text := by
  induction laidOut with
  | nil => exact .nil
  | region _ text _ induction => exact (SameBut.refl text).append induction
  | visible _ _ induction => exact .cons _ induction
  | blanks nonempty nonempty' blank blank' _ induction =>
      rw [textOf_append, textOf_map_code]
      exact .part ⟨nonempty, nonempty', blank, blank', False.elim⟩ induction

/-- Laid out in another way, a script is cut into the same segments, but for blanks. -/
theorem LaidOut.exists_segments (laidOut : LaidOut run text) {behind behind' : Behind}
    (reads : Reads behind run []) (agree : behind.Agrees behind')
    (noLineComment : ∀ segment ∈ run, segment.isLineComment = false) :
    ∃ run', textOf run' = text ∧ Reads behind' run' [] ∧ Varied False False run run' ∧
      ∀ segment ∈ run', segment.isLineComment = false := by
  -- A segment is cut off in front of other blanks as before.
  have kept {segment : Segment} {rest : List Segment} {laidOut : List Char} {behind behind' : Behind}
      (later : LaidOut rest laidOut) (agree : behind.Agrees behind')
      (stands : segment.StandsAt behind (textOf rest ++ []))
      (other : segment.isLineComment = false) : segment.StandsAt behind' (laidOut ++ []) := by
    rw [List.append_nil] at stands ⊢
    exact (stands.congr agree).respaced other later.respaced
  induction laidOut generalizing behind behind' with
  | nil => exact ⟨[], rfl, trivial, .nil, fun _ member => by cases member⟩
  | region kind text later induction =>
      rcases List.forall_mem_cons.mp noLineComment with ⟨here, others⟩
      rcases induction reads.2 (agree.pushAll text) others with ⟨rest', rfl, alone, same, none⟩
      exact ⟨.region kind text :: rest', rfl, ⟨kept later agree reads.1 here, alone⟩, .cons _ same,
        List.forall_mem_cons.mpr ⟨here, none⟩⟩
  | @visible character _ _ _ later induction =>
      rcases List.forall_mem_cons.mp noLineComment with ⟨here, others⟩
      rcases induction reads.2 (agree.push character) others with ⟨rest', rfl, alone, same, none⟩
      exact ⟨.code character :: rest', rfl, ⟨kept later agree reads.1 here, alone⟩, .cons _ same,
        List.forall_mem_cons.mpr ⟨here, none⟩⟩
  | @blanks gap gap' nonempty nonempty' blank blank' rest laidOut later induction =>
      have fresh := pushAll_blanks_fresh behind blank nonempty
      have fresh' := pushAll_blanks_fresh behind' blank' nonempty'
      have reads' := (reads_append.mp reads).2
      rw [textOf_map_code] at reads'
      rcases induction reads' (fresh.agrees fresh')
        (fun segment member => noLineComment segment (List.mem_append_right _ member)) with
        ⟨rest', rfl, alone, same, none⟩
      refine ⟨gap'.map .code ++ rest', by rw [textOf_append, textOf_map_code], ?_, ?_, ?_⟩
      · rw [reads_append, textOf_map_code]
        exact ⟨reads_blanks behind' blank' _, alone⟩
      · exact .part (.blanks ⟨nonempty, nonempty', blank, blank', False.elim⟩) same
      · refine List.forall_mem_append.mpr ⟨fun segment member => ?_, none⟩
        rcases List.mem_map.mp member with ⟨_, _, rfl⟩
        rfl

theorem NoLineComment.isLineComment_eq_false {sql : List Char} (none : NoLineComment sql) :
    ∀ segment ∈ segments sql, segment.isLineComment = false := by
  intro segment member
  cases segment with
  | code => rfl
  | region kind text =>
      rcases exists_region_of_mem member 0 with ⟨region, listed, rfl, _⟩
      have other := none region listed
      cases comment : region.kind with
      | lineComment => exact absurd comment other
      | blockComment | string | dollarString | quotedIdentifier => rfl

theorem mem_segments_of_mem_body {sql : List Char} {statement : Statement}
    (member : statement ∈ statements sql) {segment : Segment}
    (inside : segment ∈ segments statement.body.toList) : segment ∈ segments sql := by
  rw [statements_eq] at member
  rcases List.mem_map.mp member with ⟨place, listed, rfl⟩
  rcases exists_body_segments listed with ⟨before, after, cut, _⟩
  rw [StatementPlace.statement, String.toList_ofList] at inside
  rw [cut]
  simp [inside]

theorem ownedComments_of_noLineComment {sql : List Char}
    (none : ∀ segment ∈ segments sql, segment.isLineComment = false) {statement : Statement}
    (member : statement ∈ statements sql) : ownedComments statement.body.toList = [] := by
  refine ownedComments_eq_nil fun text inside => ?_
  have line := none _ (mem_segments_of_mem_body member inside)
  cases line

end Sql

/-! ## Scripts -/

/-- Layout does not matter to a script without line comments: laid out with other blanks, it has the
same tables, and leaves the same out for the same reasons. -/
theorem layout_does_not_matter {sql sql' : String} (noLineComment : NoLineComment sql.toList)
    (laidOut : LaidOut (segments sql.toList) sql'.toList) :
    (parse sql).document = (parse sql').document ∧
      List.Forall₂ (Diagnostic.Agrees False) (parse sql).diagnostics (parse sql').diagnostics := by
  have none := noLineComment.isLineComment_eq_false
  rcases laidOut.exists_segments (reads_segments sql.toList) (Behind.Agrees.refl _) none with
    ⟨run', text, reads, varied, none'⟩
  have same : segments sql'.toList = run' := by
    rw [← text]
    exact segments_textOf reads
  rw [← same] at varied none'
  have agrees : (parse sql).Agrees False (¬ False) (parse sql') :=
    parseChars_varied varied fun statement member statement' member' _ => by
      rw [ownedComments_of_noLineComment none member, ownedComments_of_noLineComment none' member']
  exact ⟨agrees.document_eq not_false, agrees.diagnostics⟩

/-- A script with blanks in a comment and in a string, on one line and spread over more of them. -/
theorem spread_out_script_says_the_same :
    let sql := "create table t(id int/* x  y */not null,a 'b  c');"
    let sql' := "create\n\ntable\u2003t(id\tint/* x  y */not\r\nnull,a\x1c'b  c');"
    LaidOut (segments sql.toList) sql'.toList ∧ (parse sql).document = (parse sql').document := by
  intro sql sql'
  have word (word : String) (visible : (word.toList.all fun character => !isBlank character) = true)
      {rest : List Segment} {laidOut : List Char} (later : LaidOut rest laidOut) :=
    LaidOut.word (by simpa using visible) later
  have gap (gap gap' : String) (nonempty : gap.toList ≠ [] ∧ gap'.toList ≠ [])
      (blank : AllBlank gap.toList ∧ AllBlank gap'.toList) {rest : List Segment}
      {laidOut : List Char} (later : LaidOut rest laidOut) :=
    LaidOut.blanks nonempty.1 nonempty.2 blank.1 blank.2 later
  have laidOut : LaidOut (segments sql.toList) sql'.toList := by
    have spread := word "create" (by decide) <| gap " " "\n\n" (by decide) (by decide) <|
      word "table" (by decide) <| gap " " "\u2003" (by decide) (by decide) <|
      word "t(id" (by decide) <| gap " " "\t" (by decide) (by decide) <| word "int" (by decide) <|
      .region .blockComment "/* x  y */".toList <| word "not" (by decide) <|
      gap " " "\r\n" (by decide) (by decide) <| word "null,a" (by decide) <|
      gap " " "\x1c" (by decide) (by decide) <| .region .string "'b  c'".toList <|
      word ");" (by decide) .nil
    convert spread using 1 <;> decide +kernel
  exact ⟨laidOut, (layout_does_not_matter (by decide +kernel) laidOut).1⟩

end TableSchema
