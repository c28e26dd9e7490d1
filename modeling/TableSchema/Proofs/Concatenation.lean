import TableSchema.Proofs.HeaderAccount

/-! # Scripts one after the other

Behind a script that ends with a semicolon everything starts anew: no region, no header and no
statement reaches over the seam. So a script that is put behind it says what it says alone, only
some lines further down.
-/

namespace TableSchema.Sql

open Text

/-- A script behind which another one starts anew. -/
structure Finished (sql : List Char) : Prop where
  semicolon : sql.getLast? = some ';'
  closed : ∀ region ∈ scan sql, region.stop ≠ sql.length
  balanced : ∀ diagnostic ∈ statementDiagnostics sql, diagnostic.kind ≠ .unbalancedParentheses

/-! ## Regions -/

theorem Finished.exists_segments {sql : List Char} (finished : Finished sql) :
    ∃ front, segments sql = front ++ [.code ';'] := by
  have whole := text_segments sql
  rcases List.eq_nil_or_concat (segments sql) with nothing | ⟨front, last, cut⟩
  · rw [nothing] at whole
    rw [← whole] at finished
    cases finished.semicolon
  · rw [List.concat_eq_append] at cut
    refine ⟨front, ?_⟩
    cases last with
    | code character =>
        have ends := finished.semicolon
        rw [← whole, cut] at ends
        simp at ends
        rw [cut, ends]
    | region kind text =>
        refine absurd ?_ (finished.closed
          ⟨kind, (textOf front).length, (textOf front).length + text.length⟩ ?_)
        · rw [← congrArg List.length whole, cut, List.flatMap_append]
          simp [textOf]
        · rw [scan, cut, regionsFrom_append]
          simp [regionsFrom]

theorem Reads.mayEndBefore {behind : Behind} {segments : List Segment} {after : List Char}
    {kind : RegionKind} {text : List Char} (reads : Reads behind segments after)
    (last : segments.getLast? = some (.region kind text)) (more : after ≠ []) :
    kind.MayEndBefore after := by
  rcases List.getLast?_eq_some_iff.mp last with ⟨front, rfl⟩
  exact ((reads_append.mp reads).2.1.closed more).mayEndBefore

/-- A semicolon of code ends whatever stands before it. -/
theorem Reads.semicolon {front : List Segment} {after : List Char}
    (reads : Reads .start (front ++ [.code ';']) []) :
    Reads .start (front ++ [.code ';']) after := by
  have before := (reads_append.mp reads).1
  refine reads_append.mpr ⟨before.followedBy (quiet_cons (by decide) _) fun kind text last =>
    ⟨by simp, ?_⟩, by simp [Segment.StandsAt, regionAt?], trivial⟩
  have ended := before.mayEndBefore last (by simp)
  cases kind <;> exact ended

theorem Finished.segments_append {first : List Char} (finished : Finished first)
    (second : List Char) : segments (first ++ second) = segments first ++ segments second := by
  rcases finished.exists_segments with ⟨front, cut⟩
  have reads := reads_segments first
  rw [cut] at reads
  have whole : Reads .start (segments first ++ segments second) [] := by
    rw [cut]
    -- To a scan a semicolon looks like the start of a text: no word character, no letter E.
    refine reads_append.mpr ⟨reads.semicolon, (reads_segments second).congr ?_⟩
    rw [textOf_append, Behind.pushAll_append]
    exact Behind.start_fresh.agrees (Behind.push_fresh _ (by decide))
  have again := segments_textOf whole
  rwa [textOf_append, textOf, textOf, text_segments, text_segments] at again

theorem Finished.mask_append {first : List Char} (finished : Finished first)
    (second : List Char) : mask (first ++ second) = mask first ++ mask second := by
  rw [mask, finished.segments_append, List.flatMap_append]
  rfl

theorem Finished.getLast?_mask {sql : List Char} (finished : Finished sql) :
    (mask sql).getLast? = some ';' := by
  rcases finished.exists_segments with ⟨front, cut⟩
  rw [mask, cut, List.flatMap_append]
  simp

/-! ## Headers -/

theorem HeaderMatch.semicolon_not_mem {parts : HeaderMatch} (fits : parts.Fits)
    (masked : parts.Masked) : ';' ∉ parts.whole := by
  have blank {text : List Char} (blank : AllBlank text) : ';' ∉ text := fun member =>
    absurd (blank _ member) (by decide)
  have identifier {text : List Char} (masked : IsMasked text) : ';' ∉ text := by
    intro member
    rcases masked with plain | marked
    · exact absurd (isNamePart_of_isPlainName plain member) (by decide)
    · exact absurd (marked _ member) (by decide)
  have words : ';' ∉ parts.words := fun member =>
    absurd (fits.isWord_of_visible member (by decide)) (by decide)
  have qualifier : ';' ∉ parts.qualifier := by
    rcases masked.qualifier with none | ⟨owner, gap, blanks, same, isMasked, blank', blank''⟩
    · simp [none]
    · simp [same, identifier isMasked, blank blank', blank blank'']
  simp [HeaderMatch.whole, words, qualifier, identifier masked.name, blank fits.gap]

theorem headerAt?_append {sql front text other : List Char}
    (masked : mask sql = front ++ (text ++ other)) (ends : text.getLast? = some ';')
    (previous : Option Char) : headerAt? previous (text ++ other) = headerAt? previous text := by
  apply Option.ext
  intro header
  rw [headerAt?_eq_some_iff, headerAt?_eq_some_iff]
  refine and_congr_right fun _ => ⟨?_, ?_⟩
  · rintro ⟨parts, rest, fits, whole, same⟩
    rw [whole] at masked
    have none := HeaderMatch.semicolon_not_mem fits (fits.isMasked masked)
    rw [parts.text_eq_whole] at whole
    rcases List.append_eq_append_iff.mp whole with ⟨more, long, _⟩ | ⟨more, short, _⟩
    · rw [long] at none
      exact absurd (List.mem_append_left _ (List.mem_of_getLast? ends)) none
    · exact ⟨parts, more, fits, by rw [short, parts.text_eq_whole], same⟩
  · rintro ⟨parts, rest, fits, rfl, same⟩
    exact ⟨parts, rest ++ other, fits, by simp [parts.text_eq_whole], same⟩

theorem getLast?_of_append {front rest : List Char} {last : Char}
    (ends : (front ++ rest).getLast? = some last) (other : front.getLast? ≠ some last) :
    rest.getLast? = some last := by
  rw [List.getLast?_append] at ends
  cases nothing : rest.getLast? with
  | none =>
      rw [nothing, Option.none_or] at ends
      exact absurd ends other
  | some character => rwa [nothing, Option.some_or] at ends

theorem endingOf_append {inside : Nat} {rest : List Char} (ends : rest.getLast? = some ';')
    (closed : endingOf inside rest ≠ .unbalanced) (other : List Char) :
    endingOf inside (rest ++ other) = endingOf inside rest := by
  rw [ne_eq, endingOf_eq_unbalanced_iff, not_not] at closed
  rcases closed with ⟨body, tail, rfl, nested⟩
  rcases exists_blanks tail with ⟨blanks, separated, blank⟩
  cases trimmed : trimLeft tail with
  | nil =>
      -- The last character would be the parenthesis or a blank.
      rw [trimmed, List.append_nil] at separated
      rw [separated, List.append_cons] at ends
      have last := getLast?_of_append ends (by simp)
      exact absurd (blank _ (List.mem_of_getLast? last)) (by decide)
  | cons character more =>
      have visible : isBlank character = false :=
        bare_trimLeft tail character (by rw [trimmed]; rfl)
      rw [trimmed] at separated
      rw [separated, List.append_assoc, List.cons_append, List.append_assoc, List.cons_append,
        endingOf_eq_ite (balanced_iff_wellNested.mpr nested) blank visible,
        endingOf_eq_ite (balanced_iff_wellNested.mpr nested) blank visible]

theorem getLast?_eq_semicolon {character : Char} {rest : List Char}
    (ends : ∀ last ∈ (character :: rest).getLast?, last = ';') :
    (character :: rest).getLast? = some ';' := by
  rw [List.getLast?_cons] at ends ⊢
  rw [ends _ rfl]

theorem getLast?_rest {character : Char} {rest : List Char}
    (ends : ∀ last ∈ (character :: rest).getLast?, last = ';') :
    ∀ last ∈ rest.getLast?, last = ';' := by
  intro last member
  apply ends
  rw [List.getLast?_cons, member]
  rfl

namespace HeaderMatch

variable {parts : HeaderMatch} {rest : List Char} {position : Nat}

theorem next_le (parts : HeaderMatch) (position : Nat) (rest : List Char) :
    (HeaderPlace.ofHeader position parts.header (parts.text rest)).next ≤
      position + (parts.text rest).length := by
  have long : (parts.text rest).length = parts.header.opening + 1 + rest.length := by
    rw [parts.text_eq_whole, List.length_append, parts.length_whole]
  unfold HeaderPlace.next
  cases ending : (HeaderPlace.ofHeader position parts.header (parts.text rest)).ending with
  | unbalanced | unterminated =>
      simp only [HeaderPlace.ofHeader]
      omega
  | complete closing semicolon =>
      rcases rest_of_complete ending with ⟨body, blanks, tail, rfl, _, _, closes, ends⟩
      simp only [List.length_append, List.length_cons] at long ⊢
      omega

theorem ofHeader_append (ends : (parts.text rest).getLast? = some ';')
    (closed : (HeaderPlace.ofHeader position parts.header (parts.text rest)).ending ≠ .unbalanced)
    (other : List Char) :
    HeaderPlace.ofHeader position parts.header (parts.text rest ++ other) =
      .ofHeader position parts.header (parts.text rest) := by
  have whole : parts.text rest ++ other = parts.text (rest ++ other) := by
    simp [parts.text_eq_whole]
  rw [whole]
  simp only [HeaderPlace.ofHeader, parts.drop_whole] at closed ⊢
  rw [parts.text_eq_whole] at ends
  have opening : parts.whole.getLast? ≠ some ';' := by simp [HeaderMatch.whole]
  rw [endingOf_append (getLast?_of_append ends opening) closed]

end HeaderMatch

/-- The headers before the semicolon at the end of a text and the ones behind it are found apart
from each other. -/
theorem headersFrom_append_of_semicolon {sql front text other : List Char}
    {previous : Option Char} {position skip : Nat} (masked : mask sql = front ++ (text ++ other))
    (ends : ∀ last ∈ text.getLast?, last = ';') (short : skip ≤ text.length)
    (closed : ∀ place ∈ headersFrom previous position skip text, place.ending ≠ .unbalanced) :
    headersFrom previous position skip (text ++ other) =
      headersFrom previous position skip text ++
        headersFrom (text.getLast?.or previous) (position + text.length) 0 other := by
  have whole {front text : List Char} {character : Char}
      (masked : mask sql = front ++ (character :: text ++ other)) :
      mask sql = (front ++ [character]) ++ (text ++ other) := by
    rw [masked]
    simp
  have found_append {previous : Option Char} {front rest : List Char} {character : Char}
      (masked : mask sql = front ++ (character :: rest ++ other))
      (ends : ∀ last ∈ (character :: rest).getLast?, last = ';') :
      headerAt? previous (character :: (rest ++ other)) =
        headerAt? previous (character :: rest) :=
    headerAt?_append masked (getLast?_eq_semicolon ends) previous
  -- What is left of the text is empty or ends with the semicolon, and the search never goes on
  -- behind it. So each step is the one that is made without the other text.
  fun_induction headersFrom previous position skip text generalizing front with
  | case1 previous position skip =>
      cases short with
      | refl => rfl
  | case2 previous position skip character rest induction =>
      rw [List.cons_append, headersFrom, induction (whole masked) (getLast?_rest ends)
        (Nat.le_of_succ_le_succ short) closed, getLast?_cons_or, List.length_cons, Nat.add_assoc,
        Nat.add_comm 1]
  | case3 previous position character rest none induction =>
      rw [List.cons_append, headersFrom, found_append masked ends, none]
      simp only
      rw [induction (whole masked) (getLast?_rest ends) (Nat.zero_le _) closed,
        getLast?_cons_or, List.length_cons, Nat.add_assoc, Nat.add_comm 1]
  | case4 previous position character rest header found place =>
      rename_i induction
      rcases headerAt?_eq_some_iff.mp found with ⟨_, parts, tail, _, split, rfl⟩
      have last : (parts.text tail).getLast? = some ';' := by
        rw [← split, getLast?_eq_semicolon ends]
      have same : HeaderPlace.ofHeader position parts.header (character :: (rest ++ other)) =
          place := by
        have appended := HeaderMatch.ofHeader_append last
          (by rw [← split]; exact closed place (List.mem_cons_self ..)) other
        rwa [← split] at appended
      have bound : place.next ≤ position + (character :: rest).length := by
        have bound := parts.next_le position tail
        rwa [← split] at bound
      rw [List.cons_append, headersFrom, found_append masked ends, found]
      simp only
      rw [same, induction (whole masked) (getLast?_rest ends)
        (by rw [List.length_cons] at bound; omega)
        (fun other member => closed other (List.mem_cons_of_mem _ member)),
        getLast?_cons_or, List.length_cons, Nat.add_assoc, Nat.add_comm 1, List.cons_append]

/-! ## Headers further down -/

def HeaderEnding.shift (ending : HeaderEnding) (distance : Nat) : HeaderEnding :=
  match ending with
  | .complete closing semicolon => .complete (closing + distance) (semicolon + distance)
  | incomplete => incomplete

namespace HeaderPlace

def shift (place : HeaderPlace) (distance : Nat) : HeaderPlace where
  start := place.start + distance
  nameStart := place.nameStart + distance
  nameStop := place.nameStop + distance
  opening := place.opening + distance
  ending := place.ending.shift distance

theorem next_shift (place : HeaderPlace) (distance : Nat) :
    (place.shift distance).next = place.next + distance := by
  unfold next shift HeaderEnding.shift
  cases place.ending with
  | complete closing semicolon => exact Nat.add_right_comm ..
  | unbalanced => exact Nat.add_right_comm ..
  | unterminated => exact Nat.add_right_comm ..

theorem ofHeader_add (position distance : Nat) (header : Header) (masked : List Char) :
    ofHeader (position + distance) header masked =
      (ofHeader position header masked).shift distance := by
  have ending (inside : Nat) (text : List Char) :
      endingOf (inside + distance) text = (endingOf inside text).shift distance := by
    unfold endingOf HeaderEnding.shift
    cases closingAt? 0 text with
    | none => rfl
    | some length =>
        simp only
        split
        · simp only [HeaderEnding.complete.injEq]
          omega
        · rfl
  simp only [ofHeader, shift, Nat.add_right_comm _ distance, ending]

end HeaderPlace

theorem headersFrom_add (previous : Option Char) (position distance skip : Nat)
    (masked : List Char) : headersFrom previous (position + distance) skip masked =
      (headersFrom previous position skip masked).map (·.shift distance) := by
  fun_induction headersFrom previous position skip masked with
  | case1 => rfl
  | case2 previous position skip character rest induction =>
      rw [headersFrom, Nat.add_right_comm, induction]
  | case3 previous position character rest none induction =>
      rw [headersFrom, none, Nat.add_right_comm]
      exact induction
  | case4 previous position character rest header found place induction =>
      rw [headersFrom, found]
      have skip : (place.shift distance).next - (position + distance) - 1 =
          place.next - position - 1 := by
        rw [place.next_shift, Nat.add_sub_add_right]
      simp only [HeaderPlace.ofHeader_add]
      rw [skip, Nat.add_right_comm, induction]
      rfl

/-- Of what stands before a text only matters whether it is a word character. -/
theorem headersFrom_congr {left right : Option Char} (agree : isWordAt left = isWordAt right)
    (position skip : Nat) (masked : List Char) :
    headersFrom left position skip masked = headersFrom right position skip masked := by
  have found (text : List Char) : headerAt? left text = headerAt? right text := by
    rw [headerAt?, headerAt?, agree]
  cases masked with
  | nil => rfl
  | cons character rest =>
      cases skip with
      | zero => rw [headersFrom, headersFrom, found]
      | succ skip => rfl

theorem Finished.headers_append {first : List Char} (finished : Finished first)
    (second : List Char) : headers (mask (first ++ second)) =
      headers (mask first) ++ (headers (mask second)).map (·.shift first.length) := by
  have closed : ∀ place ∈ headersFrom none 0 0 (mask first), place.ending ≠ .unbalanced := by
    intro place member ending
    have listed : place.diagnostic? first =
        some (.unbalancedParentheses (place.name first) (lineAt first place.start)) := by
      rw [place.diagnostic?_eq, ending]
    have reported : .unbalancedParentheses (place.name first) (lineAt first place.start) ∈
        statementDiagnostics first := by
      rw [statementDiagnostics_eq]
      exact List.mem_filterMap.mpr ⟨place, member, listed⟩
    exact finished.balanced _ reported rfl
  have masked : mask (first ++ second) = [] ++ (mask first ++ mask second) :=
    finished.mask_append second
  have fresh : isWordAt ((mask first).getLast?.or none) = isWordAt none := by
    rw [finished.getLast?_mask]
    decide
  rw [masked, List.nil_append, headers, headersFrom_append_of_semicolon masked
    (by rw [finished.getLast?_mask]; simp) (Nat.zero_le _) closed,
    headersFrom_congr fresh, headersFrom_add, length_mask]
  rfl

/-! ## Findings -/

def Statement.below (statement : Statement) (lines : Nat) : Statement :=
  { statement with line := statement.line + lines }

def Finding.below (lines : Nat) : Finding → Finding
  | .statement complete => .statement (complete.below lines)
  | .unbalanced table line => .unbalanced table (line + lines)
  | .unterminated table line => .unterminated table (line + lines)

theorem slice_append_left {first : List Char} {stop : Nat} (short : stop ≤ first.length)
    (start : Nat) (second : List Char) :
    slice (first ++ second) start stop = slice first start stop := by
  rw [slice, slice, List.drop_append, List.take_append_of_le_length]
  rw [List.length_drop]
  omega

theorem lineAt_append_left {first : List Char} {position : Nat} (short : position ≤ first.length)
    (second : List Char) : lineAt (first ++ second) position = lineAt first position := by
  rw [lineAt, lineAt, List.take_append_of_le_length short]

theorem lineAt_append_right (first second : List Char) (position : Nat) :
    lineAt (first ++ second) (position + first.length) =
      lineAt second position + newlines first := by
  rw [lineAt, lineAt, Nat.add_comm position, List.take_length_add_append, newlines, newlines,
    newlines, List.count_append]
  omega

theorem within_of_mem_headers {masked : List Char} {place : HeaderPlace}
    (member : place ∈ headers masked) :
    place.start ≤ masked.length ∧ place.nameStop ≤ masked.length ∧
      place.opening ≤ masked.length ∧
        ∀ closing semicolon, place.ending = .complete closing semicolon →
          closing ≤ masked.length := by
  rcases exists_standsAt_of_mem_headers member with ⟨parts, rest, stands, same⟩
  have long : masked.length = place.start + (parts.header.opening + 1 + rest.length) := by
    rw [← List.take_append_drop place.start masked, List.length_append, stands.length_take,
      stands.text, parts.text_eq_whole, List.length_append, parts.length_whole]
  have nameStop : place.nameStop = place.start + parts.header.nameStop :=
    congrArg HeaderPlace.nameStop same
  have opening : place.opening = place.start + parts.header.opening :=
    congrArg HeaderPlace.opening same
  have early : parts.header.nameStop ≤ parts.header.opening := Nat.le_add_right _ _
  refine ⟨by omega, by omega, by omega, fun closing semicolon ending => ?_⟩
  rw [same] at ending
  rcases HeaderMatch.rest_of_complete ending with ⟨body, blanks, tail, rfl, _, _, closes, _⟩
  simp only [List.length_append, List.length_cons] at long
  omega

theorem finding_append_left {first : List Char} {place : HeaderPlace}
    (member : place ∈ headers (mask first)) (second : List Char) :
    place.finding (first ++ second) = place.finding first := by
  have within := within_of_mem_headers member
  rw [length_mask] at within
  rcases within with ⟨start, nameStop, opening, closes⟩
  unfold HeaderPlace.finding HeaderPlace.name
  rw [slice_append_left nameStop, lineAt_append_left start, lineAt_append_left opening]
  cases ending : place.ending with
  | unbalanced => rfl
  | unterminated => rfl
  | complete closing semicolon =>
      simp only
      rw [slice_append_left (closes closing semicolon ending)]

theorem finding_append_right (first second : List Char) (place : HeaderPlace) :
    (place.shift first.length).finding (first ++ second) =
      (place.finding second).below (newlines first) := by
  have part (start stop : Nat) : slice (first ++ second) (start + first.length)
      (stop + first.length) = slice second start stop := by
    rw [Nat.add_comm start, Nat.add_comm stop, slice_append_right]
  unfold HeaderPlace.finding HeaderPlace.name HeaderPlace.shift HeaderEnding.shift
  cases place.ending with
  | unbalanced => simp only [part, lineAt_append_right, Finding.below]
  | unterminated => simp only [part, lineAt_append_right, Finding.below]
  | complete closing semicolon =>
      simp only [Nat.add_right_comm _ first.length 1, part, lineAt_append_right, Finding.below,
        Statement.below]

theorem Finished.findings_append {first : List Char} (finished : Finished first)
    (second : List Char) : findings (first ++ second) =
      findings first ++ (findings second).map (·.below (newlines first)) := by
  rw [findings_eq, findings_eq, findings_eq, finished.headers_append, List.map_append,
    List.map_map, List.map_map]
  congr 1
  · exact List.map_congr_left fun place member => finding_append_left member second
  · exact List.map_congr_left fun place _ => finding_append_right first second place

end TableSchema.Sql

namespace TableSchema

open Sql Text

def Diagnostic.below (lines : Nat) : Diagnostic → Diagnostic
  | .unbalancedParentheses table line => .unbalancedParentheses table (line + lines)
  | .unterminatedStatement table line => .unterminatedStatement table (line + lines)
  | .emptyTable table line => .emptyTable table (line + lines)
  | .refusedClause refusal table clause line => .refusedClause refusal table clause (line + lines)

theorem Sql.Finished.statements_append {first : List Char} (finished : Finished first)
    (second : List Char) : statements (first ++ second) =
      statements first ++ (statements second).map (·.below (newlines first)) := by
  rw [statements, finished.findings_append, List.filterMap_append, List.filterMap_map, statements,
    statements, List.map_filterMap]
  congr 2
  funext finding
  cases finding <;> rfl

theorem Sql.Finished.statementDiagnostics_append {first : List Char} (finished : Finished first)
    (second : List Char) : statementDiagnostics (first ++ second) =
      statementDiagnostics first ++
        (statementDiagnostics second).map (·.below (newlines first)) := by
  rw [statementDiagnostics, finished.findings_append, List.filterMap_append, List.filterMap_map,
    statementDiagnostics, statementDiagnostics, List.map_filterMap]
  congr 2
  funext finding
  cases finding <;> rfl

theorem readStatement_below (statement : Statement) (lines : Nat) :
    (readStatement (statement.below lines)).1 = (readStatement statement).1 := by
  have field : Sum.getLeft? ∘ readClause (statement.below lines) =
      Sum.getLeft? ∘ readClause statement := by
    funext clause
    simp only [Function.comp_apply, readClause]
    cases classify clause.text <;> rfl
  have body : (statement.below lines).body = statement.body := rfl
  have name : (statement.below lines).name = statement.name := rfl
  simp only [readStatement, body, name, List.filterMap_map, field]
  split <;> rfl

/-- A script behind a finished one adds its own statements, reports and tables, further down. -/
theorem parse_append (first second : String) (finished : Finished first.toList) :
    statements (first ++ second).toList = statements first.toList ++
        (statements second.toList).map (·.below (newlines first.toList)) ∧
      statementDiagnostics (first ++ second).toList = statementDiagnostics first.toList ++
        (statementDiagnostics second.toList).map (·.below (newlines first.toList)) ∧
      (parseDocument (first ++ second)).tables =
        (parseDocument first).tables ++ (parseDocument second).tables := by
  rw [String.toList_append]
  have statements_append := finished.statements_append second.toList
  refine ⟨statements_append, finished.statementDiagnostics_append second.toList, ?_⟩
  have read : (·.1) ∘ readStatement ∘ (Statement.below · (newlines first.toList)) =
      (·.1) ∘ readStatement := by
    funext statement
    simp only [Function.comp_apply, readStatement_below]
  simp only [parseDocument, parse, parseChars, String.toList_append, statements_append,
    List.map_append, List.filterMap_append, List.map_map, List.filterMap_map, read]

/-- A statement that is not terminated is none either when another script follows, and what that one
leaves open does not matter. -/
theorem parse_append_unterminated :
    let first := "create table a (x int); -- ;\ncreate table b (y int) as;"
    let second := "\ncreate table c (z int); create table d ('(;"
    Finished first.toList ∧ (parseDocument (first ++ second)).tables =
        [⟨"a", [⟨"x", "INT", false, none⟩]⟩, ⟨"c", [⟨"z", "INT", false, none⟩]⟩] ∧
      statementDiagnostics (first ++ second).toList =
        [.unterminatedStatement "b" 2, .unbalancedParentheses "d" 3] := by
  intro first second
  have scanned : scan first.toList = [⟨.lineComment, 24, 28⟩] := by decide +kernel
  have length : first.toList.length = 55 := by decide +kernel
  have finished : Finished first.toList :=
    ⟨by decide +kernel, by simp [scanned, length], by decide +kernel⟩
  rcases parse_append first second finished with ⟨_, reported, tables⟩
  rw [tables, reported]
  exact ⟨finished, by decide +kernel, by decide +kernel⟩

end TableSchema
