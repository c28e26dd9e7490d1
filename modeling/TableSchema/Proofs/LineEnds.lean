import TableSchema.Proofs.RespacedSegments
import TableSchema.Proofs.VariedScripts

/-! # Line ends

A carriage return in front of a line feed is one more blank: at the end of a line comment it is
trimmed away, in a block comment it is hidden, and elsewhere it only separates what the line feed
separates.
-/

namespace TableSchema

open Sql Text

/-! ## Carriage returns -/

def Text.crlf (text : List Char) : List Char :=
  text.flatMap fun character => if character = '\n' then ['\r', '\n'] else [character]

namespace Text

@[simp] theorem crlf_nil : crlf [] = [] := rfl

@[simp] theorem crlf_lineFeed (rest : List Char) : crlf ('\n' :: rest) = '\r' :: '\n' :: crlf rest :=
  rfl

theorem crlf_cons {character : Char} (other : character ≠ '\n') (rest : List Char) :
    crlf (character :: rest) = character :: crlf rest := by
  rw [crlf, List.flatMap_cons, if_neg other]
  rfl

@[simp] theorem crlf_append (first second : List Char) :
    crlf (first ++ second) = crlf first ++ crlf second :=
  List.flatMap_append

theorem eq_cons_of_crlf {mark : Char} (other : mark ≠ '\r') {text more : List Char}
    (same : crlf text = mark :: more) : ∃ rest, text = mark :: rest := by
  cases text with
  | nil => cases same
  | cons character rest =>
      by_cases feed : character = '\n'
      · subst feed
        exact absurd (List.cons.inj same).1.symm other
      · rw [crlf_cons feed] at same
        exact ⟨rest, by rw [(List.cons.inj same).1]⟩

theorem crlf_of_oneLine {text : List Char} (oneLine : '\n' ∉ text) : crlf text = text := by
  induction text with
  | nil => rfl
  | cons character rest induction =>
      rcases not_or.mp (mt List.mem_cons.mpr oneLine) with ⟨here, later⟩
      rw [crlf_cons (Ne.symm here), induction later]

theorem respaced_crlf (text : List Char) : Respaced True text (crlf text) := by
  induction text with
  | nil => exact .nil
  | cons character rest induction =>
      by_cases feed : character = '\n'
      · subst feed
        have runs : BlankRuns True ['\n'] ['\r', '\n'] :=
          ⟨by simp, by simp, by decide, by decide, fun _ => rfl⟩
        exact .part runs induction
      · rw [crlf_cons feed]
        exact .cons character induction

end Text

namespace Sql

/-! ## Block comments -/

def crlfParts (parts : List Char × List Char) : List Char × List Char :=
  (crlf parts.1, crlf parts.2)

theorem map_inFront_crlf (read : List Char) (split : Option (List Char × List Char)) :
    (inFront read split).map crlfParts = inFront (crlf read) (split.map crlfParts) := by
  cases split with
  | none => rfl
  | some parts => simp only [inFront, Option.map_some, crlfParts, crlf_append]

theorem blockEnd?_other (outer : Nat) {character : Char} (slash : character ≠ '/')
    (star : character ≠ '*') (rest : List Char) :
    blockEnd? outer (character :: rest) = inFront [character] (blockEnd? outer rest) :=
  blockEnd?.eq_5 outer character rest (fun _ same _ => slash same) (fun _ _ same _ => star same)
    fun _ _ _ same _ => star same

theorem blockEnd?_crlf (outer : Nat) (text : List Char) :
    blockEnd? outer (crlf text) = (blockEnd? outer text).map crlfParts := by
  fun_induction blockEnd? outer text with
  | case1 => rfl
  | case2 outer rest induction =>
      rw [map_inFront_crlf, ← induction]
      exact blockEnd?.eq_2 outer (crlf rest)
  | case3 => rfl
  | case4 outer rest induction =>
      rw [map_inFront_crlf, ← induction]
      rfl
  | case5 outer character rest opens closes ends induction =>
      rw [map_inFront_crlf, ← induction]
      by_cases feed : character = '\n'
      · subst feed
        rw [crlf_lineFeed, blockEnd?_other outer (by decide) (by decide),
          blockEnd?_other outer (by decide) (by decide)]
        cases blockEnd? outer (crlf rest) <;> rfl
      · rw [crlf_cons feed, crlf_cons feed, crlf_nil]
        refine blockEnd?.eq_5 outer character (crlf rest) ?_ ?_ ?_
        · intro more slash star
          rcases eq_cons_of_crlf (by decide) star with ⟨rest', same⟩
          exact opens rest' slash same
        · intro more zero star slash
          rcases eq_cons_of_crlf (by decide) slash with ⟨rest', same⟩
          exact closes rest' zero star same
        · intro outer' more succ star slash
          rcases eq_cons_of_crlf (by decide) slash with ⟨rest', same⟩
          exact ends outer' rest' succ star same

/-! ## Segments -/

/-- The segments of a text with a carriage return in front of every line feed: line comments take
theirs in. -/
def crlfSegments : List Segment → List Segment
  | [] => []
  | .code '\n' :: rest => .code '\r' :: .code '\n' :: crlfSegments rest
  | .region .lineComment text :: .code '\n' :: rest =>
      .region .lineComment (text ++ ['\r']) :: .code '\n' :: crlfSegments rest
  | .region .blockComment text :: rest => .region .blockComment (crlf text) :: crlfSegments rest
  | segment :: rest => segment :: crlfSegments rest

/-- Nothing but block comments goes over more than one line. -/
def OneLine (segments : List Segment) : Prop :=
  ∀ kind text, .region kind text ∈ segments → kind ≠ .blockComment → '\n' ∉ text

theorem OneLine.tail {segment : Segment} {segments : List Segment}
    (oneLine : OneLine (segment :: segments)) : OneLine segments :=
  fun kind text member => oneLine kind text (List.mem_cons_of_mem _ member)

theorem textOf_crlfSegments {segments : List Segment} (oneLine : OneLine segments) :
    textOf (crlfSegments segments) = crlf (textOf segments) := by
  fun_induction crlfSegments segments with
  | case1 => rfl
  | case2 rest induction =>
      rw [textOf_cons, textOf_cons, textOf_cons, induction oneLine.tail]
      rfl
  | case3 text rest induction =>
      have here := oneLine _ _ (List.mem_cons_self ..) (by simp)
      rw [textOf_cons, textOf_cons, textOf_cons, textOf_cons, induction oneLine.tail.tail,
        crlf_append, Segment.text_region, Segment.text_region, crlf_of_oneLine here,
        List.append_assoc]
      rfl
  | case4 text rest induction =>
      rw [textOf_cons, textOf_cons, crlf_append, induction oneLine.tail]
      rfl
  | case5 segment rest noFeed noLine noBlock induction =>
      rw [textOf_cons, textOf_cons, crlf_append, induction oneLine.tail]
      congr 1
      cases segment with
      | code character =>
          have other : character ≠ '\n' := by
            rintro rfl
            exact noFeed rfl
          exact (crlf_cons other []).symm
      | region kind text =>
          refine (crlf_of_oneLine (oneLine _ _ (List.mem_cons_self ..) ?_)).symm
          rintro rfl
          exact noBlock text rfl

theorem pushAll_crlf {behind behind' : Behind} (agree : behind.Agrees behind') (text : List Char) :
    (behind.pushAll text).Agrees (behind'.pushAll (crlf text)) := by
  induction text generalizing behind behind' with
  | nil => exact agree
  | cons character rest induction =>
      by_cases feed : character = '\n'
      · subst feed
        exact induction ((Behind.push_fresh behind (by decide)).agrees
          (Behind.push_fresh (behind'.push '\r') (by decide)))
      · rw [crlf_cons feed]
        exact induction (agree.push character)

theorem blockComment_crlf {behind behind' : Behind} {text after : List Char}
    (stands : (Segment.region .blockComment text).StandsAt behind after) :
    (Segment.region .blockComment (crlf text)).StandsAt behind' (crlf after) := by
  have found : regionAt? behind (text ++ after) = some (.blockComment, text, after) := stands
  change regionAt? behind' (crlf text ++ crlf after) = some (.blockComment, crlf text, crlf after)
  rw [← crlf_append]
  generalize text ++ after = whole at found
  cases startsRegion_of_regionAt? found with
  | lineComment _ region => cases region
  | blockComment rest region =>
      rw [crlf_cons (by decide), crlf_cons (by decide), regionAt?, blockEnd?_crlf]
      generalize blockEnd? 0 rest = split at region
      cases split <;> cases region <;> rfl
  | string _ region | quotedIdentifier _ region | dollarString _ _ region =>
      cases (opening_of_closedRegion region).1

theorem lineComment_crlf {behind behind' : Behind} {text after after' : List Char}
    (stands : (Segment.region .lineComment text).StandsAt behind ('\n' :: after)) :
    (Segment.region .lineComment (text ++ ['\r'])).StandsAt behind' ('\n' :: after') := by
  have closed := stands.closed (by simp)
  apply regionAt?_of_closedRegion
  cases closed with
  | @lineComment inside _ oneLine _ =>
      exact .lineComment (by simpa using oneLine) (by simp [RegionKind.MayEndBefore])

theorem eq_code_of_lineFeed {behind : Behind} {segment : Segment} {after tail : List Char}
    (stands : segment.StandsAt behind after) (first : segment.text = '\n' :: tail) :
    segment = .code '\n' := by
  cases segment with
  | code character =>
      cases first
      rfl
  | region kind text =>
      cases first
      have found : regionAt? behind ('\n' :: (tail ++ after)) = some (kind, '\n' :: tail, after) :=
        stands
      rw [regionAt?_eq_none (by decide)] at found
      cases found

theorem eq_nil_of_lineComment {behind : Behind} {text : List Char} {segments : List Segment}
    (reads : Reads behind (.region .lineComment text :: segments) [])
    (noFeed : ∀ rest, segments ≠ .code '\n' :: rest) : segments = [] := by
  rcases reads with ⟨stands, later⟩
  cases segments with
  | nil => rfl
  | cons segment segments =>
      rcases List.exists_cons_of_ne_nil later.1.text_ne_nil with ⟨first, tail, shown⟩
      have more : textOf (segment :: segments) ++ [] ≠ [] := by
        rw [textOf_cons, shown]
        simp
      have feed := (stands.closed more).mayEndBefore first (by rw [textOf_cons, shown]; rfl)
      rw [feed] at shown
      exact absurd (by rw [eq_code_of_lineFeed later.1 shown]) (noFeed segments)

theorem reads_crlfSegments {behind behind' : Behind} {segments : List Segment}
    (reads : Reads behind segments []) (agree : behind.Agrees behind') (oneLine : OneLine segments) :
    Reads behind' (crlfSegments segments) [] := by
  fun_induction crlfSegments segments generalizing behind behind' with
  | case1 => trivial
  | case2 rest induction =>
      have feeds : AllBlank ['\r', '\n'] := by decide
      exact reads_append.mpr ⟨reads_blanks behind' feeds _, induction reads.2
        ((Behind.push_fresh behind (by decide)).agrees
          (pushAll_blanks_fresh behind' feeds (by simp))) oneLine.tail⟩
  | case3 text rest induction =>
      refine ⟨lineComment_crlf reads.1, regionAt?_eq_none (by decide) _ _, ?_⟩
      exact induction reads.2.2 ((Behind.push_fresh _ (by decide)).agrees
        (Behind.push_fresh _ (by decide))) oneLine.tail.tail
  | case4 text rest induction =>
      refine ⟨?_, induction reads.2 (pushAll_crlf agree text) oneLine.tail⟩
      rw [textOf_crlfSegments oneLine.tail, ← crlf_nil, ← crlf_append]
      exact blockComment_crlf reads.1
  | case5 segment rest noFeed noLine noBlock induction =>
      refine ⟨?_, induction reads.2 (agree.pushAll segment.text) oneLine.tail⟩
      cases line : segment.isLineComment with
      | false =>
          rw [textOf_crlfSegments oneLine.tail, List.append_nil]
          have stands := reads.1.congr agree
          rw [List.append_nil] at stands
          exact stands.respaced line (respaced_crlf _)
      | true =>
          have comment : ∃ text, segment = .region .lineComment text := by
            cases segment with
            | code => cases line
            | region kind text =>
                cases kind with
                | lineComment => exact ⟨text, rfl⟩
                | blockComment | string | dollarString | quotedIdentifier => cases line
          rcases comment with ⟨text, rfl⟩
          cases eq_nil_of_lineComment reads fun more same => noLine text more rfl same
          exact reads.1.congr agree

theorem segments_crlf {sql : List Char} (oneLine : OneLine (segments sql)) :
    segments (crlf sql) = crlfSegments (segments sql) := by
  have reads := reads_crlfSegments (reads_segments sql) (Behind.Agrees.refl _) oneLine
  have text : textOf (segments sql) = sql := text_segments sql
  rw [← segments_textOf reads, textOf_crlfSegments oneLine, text]

/-! ## Variations -/

theorem newlines_hide (text : List Char) : newlines (text.map hide) = newlines text := by
  rw [newlines_eq, newlines_eq, List.map_map]
  congr 1
  exact List.map_congr_left fun character _ => lineFeed_hide character

theorem blankRuns_hide {text text' : List Char} (nonempty : text ≠ []) (nonempty' : text' ≠ [])
    (same : newlines text = newlines text') :
    BlankRuns True (text.map hide) (text'.map hide) where
  nonempty_left := by simpa using nonempty
  nonempty_right := by simpa using nonempty'
  blank_left := allBlank_map_hide text
  blank_right := allBlank_map_hide text'
  newlines _ := by rw [newlines_hide, newlines_hide, same]

theorem trim_append_blank (text : List Char) {blank : Char} (isBlank : isBlank blank = true) :
    trim (text ++ [blank]) = trim text := by
  rw [trim, trim, trimLeft, trimLeft, List.dropWhile_append]
  split
  · rename_i none
    rw [List.isEmpty_iff.mp none, List.dropWhile_cons_of_pos isBlank]
    rfl
  · rw [trimRight, List.reverse_append, List.reverse_singleton, List.singleton_append,
      List.dropWhile_cons_of_pos isBlank, trimRight]

/-- A text with a carriage return in front of every line feed is a variation of what it was. -/
theorem varied_crlfSegments {behind : Behind} {segments : List Segment}
    (reads : Reads behind segments []) :
    Varied True False segments (crlfSegments segments) := by
  fun_induction crlfSegments segments generalizing behind with
  | case1 => exact .nil
  | case2 rest induction =>
      have runs : BlankRuns True ['\n'] ['\r', '\n'] :=
        ⟨by simp, by simp, by decide, by decide, fun _ => rfl⟩
      exact .part (.blanks runs) (induction reads.2)
  | case3 text rest induction =>
      have sameText : commentText text = commentText (text ++ ['\r']) := by
        cases reads.1.closed (by simp) with
        | @lineComment inside => exact (trim_append_blank inside (by decide)).symm
      have exchanged : Variation True False [.region .lineComment text]
          [.region .lineComment (text ++ ['\r'])] :=
        .comment rfl (blankRuns_hide reads.1.text_ne_nil (by simp) (by simp [newlines]))
          fun _ => sameText
      exact .part exchanged (.cons _ (induction reads.2.2))
  | case4 text rest induction =>
      have nonempty := reads.1.text_ne_nil
      have exchanged : Variation True False [.region .blockComment text]
          [.region .blockComment (crlf text)] :=
        .comment rfl (blankRuns_hide nonempty (mt (respaced_crlf text).nil_iff.mpr nonempty)
          ((respaced_crlf text).newlines_eq trivial)) (by rintro ⟨⟩)
      exact .part exchanged (induction reads.2)
  | case5 segment rest noFeed noLine noBlock induction => exact .cons segment (induction reads.2)

def LiteralsOnLines (sql : List Char) : Prop :=
  ∀ region ∈ scan sql, region.kind.isLiteral = true → '\n' ∉ slice sql region.start region.stop

instance (sql : List Char) : Decidable (LiteralsOnLines sql) :=
  inferInstanceAs (Decidable (∀ region ∈ scan sql, _))

theorem LiteralsOnLines.oneLine {sql : List Char} (onLines : LiteralsOnLines sql) :
    OneLine (segments sql) := by
  intro kind text member notBlock
  cases comment : kind.isComment with
  | true =>
      cases kind with
      | lineComment => exact oneLine_of_reads (reads_segments sql) member
      | blockComment => exact absurd rfl notBlock
      | string | dollarString | quotedIdentifier => cases comment
  | false =>
      rcases exists_region_of_mem member 0 with ⟨region, listed, rfl, shown⟩
      rw [textOf, text_segments, Nat.sub_zero, Nat.sub_zero] at shown
      rw [← shown]
      exact onLines region listed (by rw [RegionKind.isLiteral, comment]; rfl)

end Sql

/-! ## Scripts -/

/-- Line ends do not matter: with a carriage return in front of every line feed, a script whose
literals stay on their lines has the same tables, with the same descriptions, and leaves the same out
for the same reasons, on the same lines. -/
theorem carriage_returns_do_not_matter {sql : String} (onLines : LiteralsOnLines sql.toList) :
    (parse sql).document = (parse (String.ofList (crlf sql.toList))).document ∧
      List.Forall₂ (Diagnostic.Agrees True) (parse sql).diagnostics
        (parse (String.ofList (crlf sql.toList))).diagnostics := by
  have varied : Varied True False (segments sql.toList) (segments (crlf sql.toList)) := by
    rw [segments_crlf onLines.oneLine]
    exact varied_crlfSegments (reads_segments sql.toList)
  have agrees := parseChars_varied_of_lines varied
  rw [parse, parse, String.toList_ofList]
  exact ⟨agrees.document_eq not_false, agrees.diagnostics⟩

/-- A type on two lines, a comment behind the comma on the next line, one alone on its line, and
block comments over more than one line. -/
theorem script_of_many_lines_says_the_same :
    let sql :=
      "create table t (\n a double\n precision --1\n, -- 2\n--3\nid /*\n/* ,\n*/*/ x,)\n;--\n"
    LiteralsOnLines sql.toList ∧
      (parse sql).document = (parse (String.ofList (crlf sql.toList))).document := by
  intro sql
  have onLines : LiteralsOnLines sql.toList := by decide +kernel
  exact ⟨onLines, (carriage_returns_do_not_matter onLines).1⟩

end TableSchema
