import TableSchema.Proofs.CommentFree
import TableSchema.Proofs.RespacedHeaders

/-! # Variations of scripts

A script is varied by exchanging blanks for blanks, comments for comments that say the same and, if
so wanted, strings for strings. Its headers stay what they are: their names and lines are the same,
and their bodies are variations of one another.
-/

namespace TableSchema.Sql

open Text

/-! ## Variations -/

/-- Segments that may be exchanged for one another. Where `lines` matter, they end equally many, and
what line comments say is kept; `strings` may be exchanged as far as their masks are the same. -/
inductive Variation (lines strings : Prop) : List Segment → List Segment → Prop
  | blanks {text text' : List Char} (runs : BlankRuns lines text text') :
      Variation lines strings (text.map .code) (text'.map .code)
  | comment {kind : RegionKind} {text text' : List Char} (comment : kind.isComment = true)
      (runs : BlankRuns lines (text.map hide) (text'.map hide))
      (meaning : kind = .lineComment → commentText text = commentText text') :
      Variation lines strings [.region kind text] [.region kind text']
  | string {text text' : List Char} (allowed : strings) (nonempty : text ≠ [])
      (masked : hideInside text = hideInside text') :
      Variation lines strings [.region .string text] [.region .string text']

abbrev Varied (lines strings : Prop) : List Segment → List Segment → Prop :=
  SameBut (Variation lines strings)

variable {lines strings : Prop}

theorem hideInside_ne_nil {text : List Char} (nonempty : text ≠ []) : hideInside text ≠ [] := by
  rw [← List.length_pos_iff, length_hideInside]
  exact List.length_pos_iff.mpr nonempty

namespace Variation

variable {part part' : List Segment}

theorem lasting : Lasting (Variation lines strings) := by
  rintro part part' (⟨runs⟩ | _ | _)
  · exact ⟨by simpa using runs.nonempty_left, by simpa using runs.nonempty_right⟩
  · exact ⟨by simp, by simp⟩
  · exact ⟨by simp, by simp⟩

theorem symm (varied : Variation lines strings part part') : Variation lines strings part' part := by
  cases varied with
  | blanks runs => exact .blanks runs.symm
  | comment comment runs meaning => exact .comment comment runs.symm fun line => (meaning line).symm
  | string allowed nonempty masked =>
      refine .string allowed ?_ masked.symm
      rintro rfl
      exact hideInside_ne_nil nonempty masked

theorem reverse (varied : Variation lines strings part part') :
    Variation lines strings part.reverse part'.reverse := by
  cases varied with
  | blanks runs =>
      rw [← List.map_reverse, ← List.map_reverse]
      exact .blanks runs.reverse
  | comment comment runs meaning => exact .comment comment runs meaning
  | string allowed nonempty masked => exact .string allowed nonempty masked

theorem maskOf (varied : Variation lines strings part part') :
    Respaced lines (maskOf part) (Sql.maskOf part') := by
  cases varied with
  | blanks runs =>
      rw [maskOf_map_code, maskOf_map_code]
      exact .single runs
  | comment comment runs _ =>
      simp only [maskOf_cons, maskOf_nil, List.append_nil, Segment.masked, if_pos comment]
      exact .single runs
  | string _ _ masked =>
      simp only [maskOf_cons, maskOf_nil, List.append_nil, Segment.masked, RegionKind.isComment,
        Bool.false_eq_true, if_false, masked]
      exact .refl _

theorem code_not_mem {character : Char} (visible : isBlank character = false)
    (part part' : List Segment) (varied : Variation lines strings part part') : .code character ∉ part := by
  intro member
  cases varied with
  | blanks runs =>
      rcases List.mem_map.mp member with ⟨blank, listed, same⟩
      cases same
      rw [runs.blank_left _ listed] at visible
      cases visible
  | comment | string => simp at member

theorem region_not_mem {kind : RegionKind} {text : List Char} (literal : kind.isComment = false)
    (noString : kind ≠ .string) (part part' : List Segment)
    (varied : Variation lines strings part part') : .region kind text ∉ part := by
  intro member
  cases varied with
  | blanks => simp at member
  | comment comment =>
      cases List.mem_singleton.mp member
      rw [comment] at literal
      cases literal
  | string =>
      cases List.mem_singleton.mp member
      exact noString rfl

end Variation

theorem Varied.symm {first second : List Segment} (same : Varied lines strings first second) :
    Varied lines strings second first :=
  SameBut.symm (fun _ _ => Variation.symm) same

theorem Varied.maskOf {first second : List Segment} (same : Varied lines strings first second) :
    Respaced lines (maskOf first) (Sql.maskOf second) :=
  same.flatMap _ fun _ _ => Variation.maskOf

/-! ## Dividing scripts -/

theorem visibleCount_append (first second : List Char) :
    Respaced.visibleCount (first ++ second) =
      Respaced.visibleCount first + Respaced.visibleCount second :=
  List.countP_append

theorem eq_of_visibleCount {first second rest rest' : List Segment} {segment segment' : Segment}
    (shown : 0 < Respaced.visibleCount segment.masked)
    (shown' : 0 < Respaced.visibleCount segment'.masked)
    (same : first ++ segment :: rest = second ++ segment' :: rest')
    (count : Respaced.visibleCount (maskOf first) = Respaced.visibleCount (maskOf second)) :
    first = second ∧ segment = segment' ∧ rest = rest' := by
  rcases List.append_eq_append_iff.mp same with ⟨more, rfl, tail⟩ | ⟨more, rfl, tail⟩
  · cases more with
    | nil => exact ⟨by simp, List.cons.inj tail⟩
    | cons other more =>
        cases (List.cons.inj tail).1
        rw [maskOf_append, maskOf_cons, visibleCount_append, visibleCount_append] at count
        omega
  · cases more with
    | nil => exact ⟨by simp, (List.cons.inj tail).1.symm, (List.cons.inj tail).2.symm⟩
    | cons other more =>
        cases (List.cons.inj tail).1
        rw [maskOf_append, maskOf_cons, visibleCount_append, visibleCount_append] at count
        omega

theorem Varied.divide {first second rest rest' : List Segment} {segment segment' : Segment}
    (same : Varied lines strings (first ++ segment :: rest) (second ++ segment' :: rest'))
    (kept : ∀ part part', Variation lines strings part part' → segment ∉ part)
    (shown : 0 < Respaced.visibleCount segment.masked)
    (shown' : 0 < Respaced.visibleCount segment'.masked)
    (count : Respaced.visibleCount (Sql.maskOf first) = Respaced.visibleCount (Sql.maskOf second)) :
    segment = segment' ∧ Varied lines strings first second ∧ Varied lines strings rest rest' := by
  rcases same.exists_of_append_cons kept with ⟨before, after, split, front, back⟩
  have count' := (Varied.maskOf front).visibleCount_eq
  rcases eq_of_visibleCount shown' shown split (count.symm.trans count') with ⟨rfl, rfl, rfl⟩
  exact ⟨rfl, front, back⟩

/-! ## Lines -/

theorem Segment.lineFeeds_masked (segment : Segment) :
    segment.masked.map (· == '\n') = segment.text.map (· == '\n') := by
  have hidden (text : List Char) :
      (text.map hide).map (· == '\n') = text.map (· == '\n') := by
    rw [List.map_map]
    exact List.map_congr_left fun character _ => lineFeed_hide character
  cases segment with
  | code => rfl
  | region kind text =>
      rw [masked, text_region]
      split
      · exact hidden text
      · rcases List.eq_nil_or_concat text with rfl | ⟨front, last, rfl⟩
        · rfl
        · rw [List.concat_eq_append]
          cases front with
          | nil => simp [hideInside, lineFeed_hide]
          | cons first inside =>
              rw [List.cons_append, hideInside_of_delimited]
              simp only [List.map_cons, List.map_append, hidden, List.map_nil]

theorem newlines_take_mask (sql : List Char) (place : Nat) :
    newlines ((mask sql).take place) = newlines (sql.take place) := by
  have same : (mask sql).map (· == '\n') = sql.map (· == '\n') := by
    rw [← congrArg (List.map (· == '\n')) (text_segments sql), mask, List.map_flatMap,
      List.map_flatMap]
    congr 1
    funext segment
    exact segment.lineFeeds_masked
  rw [newlines_eq, newlines_eq, List.map_take, List.map_take, same]

variable {sql sql' : List Char}

theorem Meet.lineAt_eq {place place' : Nat} (meet : Meet lines (mask sql) (mask sql') place place')
    (matter : lines) : lineAt sql place = lineAt sql' place' := by
  have same := Respaced.newlines_eq meet matter
  rw [newlines_take_mask, newlines_take_mask] at same
  rw [lineAt, lineAt, same]

/-! ## Names -/

theorem kind_of_quote {behind : Behind} {kind : RegionKind} {tail after : List Char}
    (stands : (Segment.region kind ('"' :: tail)).StandsAt behind after) :
    kind = .quotedIdentifier := by
  have found : closedRegion .quotedIdentifier ['"'] (tail ++ after)
      (quoteEnd? '"' false (tail ++ after)) = (kind, '"' :: tail, after) := Option.some.inj stands
  exact (opening_of_closedRegion found).1

theorem visibleCount_of_quote {text : List Char} (first : text.head? = some '"') :
    0 < Respaced.visibleCount text := by
  rcases List.head?_eq_some_iff.mp first with ⟨rest, rfl⟩
  rw [Respaced.visibleCount, List.countP_cons_of_pos (by decide)]
  omega

theorem head?_ne_quote {name : List Char} (plain : isPlainName name = true) :
    name.head? ≠ some '"' := by
  intro first
  rcases List.head?_eq_some_iff.mp first with ⟨rest, rfl⟩
  cases plain

theorem take_mask {before rest : List Segment} (cut : segments sql = before ++ rest) :
    (mask sql).take (textOf before).length = maskOf before := by
  rw [mask, cut, List.flatMap_append, ← length_maskOf]
  exact List.take_left

theorem HeaderPlace.Meets.name_eq (same : Varied lines strings (segments sql) (segments sql'))
    {place place' : HeaderPlace} (member : place ∈ headers (mask sql))
    (member' : place' ∈ headers (mask sql'))
    (meets : place.Meets lines (mask sql) (mask sql') place') :
    place.name sql = place'.name sql' := by
  unfold HeaderPlace.name
  congr 2
  rcases literal_or_plain member with
    ⟨before, kind, tail, rest, cut, literal, starts, stops, masked, first⟩ | plain
  · rcases literal_or_plain member' with
      ⟨before', kind', tail', rest', cut', literal', starts', stops', masked', first'⟩ | plain'
    · have quoted {before rest : List Segment} {kind : RegionKind} {tail sql : List Char}
          (cut : segments sql = before ++ .region kind ('"' :: tail) :: rest) :
          kind = .quotedIdentifier := by
        have reads := reads_segments sql
        rw [cut] at reads
        exact kind_of_quote (reads_append.mp reads).2.1
      cases quoted cut
      cases quoted cut'
      have count := Respaced.visibleCount_eq meets.nameStart
      rw [starts, starts', take_mask cut, take_mask cut'] at count
      rw [cut, cut'] at same
      have token := (same.divide (Variation.region_not_mem rfl (by simp))
        (visibleCount_of_quote first) (visibleCount_of_quote first') count).1
      cases token
      have name := slice_of_literal cut starts stops (fun segment => rfl) (Segment.text_region ..)
      have name' := slice_of_literal cut' starts' stops' (fun segment => rfl)
        (Segment.text_region ..)
      rw [text_segments] at name name'
      rw [name, name']
    · have word := Respaced.word_eq (fun _ => visible_of_isPlainName plain') meets.name.symm
      rw [← word, masked] at plain'
      exact absurd first (head?_ne_quote plain')
  · have word := Respaced.word_eq (fun _ => visible_of_isPlainName plain) meets.name
    have plain' := plain
    rw [← word] at plain'
    have name := slice_of_plain Segment.length_masked Segment.getElem?_masked plain
    have name' := slice_of_plain Segment.length_masked Segment.getElem?_masked plain'
    rw [← name, ← name']
    exact word.symm

/-! ## Findings -/

structure Statement.Varies (lines strings : Prop) (statement statement' : Statement) : Prop where
  name : statement.name = statement'.name
  line : lines → statement.line = statement'.line
  body : Varied lines strings (segments statement.body.toList) (segments statement'.body.toList)

inductive Finding.Varies (lines strings : Prop) : Finding → Finding → Prop
  | statement {statement statement' : Statement}
      (varies : statement.Varies lines strings statement') :
      Finding.Varies lines strings (.statement statement) (.statement statement')
  | unbalanced (table : String) {line line' : Nat} (same : lines → line = line') :
      Finding.Varies lines strings (.unbalanced table line) (.unbalanced table line')
  | unterminated (table : String) {line line' : Nat} (same : lines → line = line') :
      Finding.Varies lines strings (.unterminated table line) (.unterminated table line')

theorem code_visible {character : Char} (visible : isBlank character = false) :
    0 < Respaced.visibleCount (Segment.code character).masked := by
  rw [Segment.masked_code, Respaced.visibleCount, List.countP_singleton, visible]
  decide

theorem exists_body_segments {place : StatementPlace} (member : place ∈ statementPlaces sql) :
    ∃ before after,
      segments sql = before ++ .code '(' :: (segments (place.body sql) ++ .code ')' :: after) ∧
        place.opening = (textOf before).length ∧
        place.closing =
          (textOf before).length + 1 + (textOf (segments (place.body sql))).length := by
  rcases exists_segments_of_mem_statementPlaces member with
    ⟨before, inside, after, cut, opens, closes⟩
  have body : segments (place.body sql) = inside := by
    have part := slice_view cut fun segment => (rfl : segment.text.length = _)
    rw [text_segments] at part
    rw [StatementPlace.body, opens, closes, part]
    exact segments_textOf (reads_inside (by decide) cut quiet_nil
      (by simp [RegionKind.MayEndBefore]))
  refine ⟨before, after, ?_, opens, ?_⟩
  · rw [body, cut, List.append_assoc, List.singleton_append]
  · rw [body]
    exact closes

theorem body_varies (same : Varied lines strings (segments sql) (segments sql'))
    {place place' : StatementPlace} (member : place ∈ statementPlaces sql)
    (member' : place' ∈ statementPlaces sql')
    (opening : Meet lines (mask sql) (mask sql') place.opening place'.opening)
    (closing : Meet lines (mask sql) (mask sql') place.closing place'.closing) :
    Varied lines strings (segments (place.body sql)) (segments (place'.body sql')) := by
  rcases exists_body_segments member with ⟨before, after, cut, opens, closes⟩
  rcases exists_body_segments member' with ⟨before', after', cut', opens', closes'⟩
  generalize segments (place.body sql) = inside at cut closes ⊢
  generalize segments (place'.body sql') = inside' at cut' closes' ⊢
  have upToClosing {sql : List Char} {before inside after : List Segment}
      (cut : segments sql = before ++ .code '(' :: (inside ++ .code ')' :: after)) :
      (mask sql).take ((textOf before).length + 1 + (textOf inside).length) =
        maskOf before ++ '(' :: maskOf inside := by
    rw [← List.cons_append, ← List.append_assoc] at cut
    have taken := take_mask cut
    simp only [textOf_append, textOf_cons, Segment.text_code, List.length_append,
      List.length_singleton, maskOf_append, maskOf_cons, Segment.masked_code] at taken
    rwa [Nat.add_assoc]
  have count := Respaced.visibleCount_eq opening
  have count' := Respaced.visibleCount_eq closing
  rw [opens, opens', take_mask cut, take_mask cut'] at count
  rw [closes, closes', upToClosing cut, upToClosing cut', visibleCount_append, visibleCount_append,
    Respaced.visibleCount, Respaced.visibleCount, Respaced.visibleCount, Respaced.visibleCount,
    List.countP_cons, List.countP_cons] at count'
  rw [cut, cut'] at same
  have parenthesis : isBlank '(' = false ∧ isBlank ')' = false := by decide
  have behind := (same.divide (Variation.code_not_mem parenthesis.1) (code_visible parenthesis.1)
    (code_visible parenthesis.1) count).2.2
  refine (behind.divide (Variation.code_not_mem parenthesis.2) (code_visible parenthesis.2)
    (code_visible parenthesis.2) ?_).2.1
  unfold Respaced.visibleCount at count ⊢
  omega

theorem HeaderPlace.Meets.finding (same : Varied lines strings (segments sql) (segments sql'))
    {place place' : HeaderPlace} (member : place ∈ headers (mask sql))
    (member' : place' ∈ headers (mask sql'))
    (meets : place.Meets lines (mask sql) (mask sql') place') :
    (place.finding sql).Varies lines strings (place'.finding sql') := by
  have name := meets.name_eq same member member'
  have endings := meets.ending
  unfold HeaderPlace.finding
  rw [name]
  cases first : place.ending with
  | unbalanced =>
      cases second : place'.ending with
      | unbalanced => exact .unbalanced _ meets.start.lineAt_eq
      | unterminated | complete => rw [first, second] at endings; cases endings
  | unterminated =>
      cases second : place'.ending with
      | unterminated => exact .unterminated _ meets.start.lineAt_eq
      | unbalanced | complete => rw [first, second] at endings; cases endings
  | complete closing semicolon =>
      cases second : place'.ending with
      | unbalanced | unterminated => rw [first, second] at endings; cases endings
      | complete closing' semicolon' =>
          rw [first, second] at endings
          cases endings with
          | complete _ _ closes =>
              have listed {sql : List Char} {place : HeaderPlace} {closing semicolon : Nat}
                  (member : place ∈ headers (mask sql))
                  (ending : place.ending = .complete closing semicolon) :
                  ⟨place.nameStart, place.nameStop, place.opening, closing⟩ ∈
                    statementPlaces sql :=
                List.mem_filterMap.mpr ⟨place, member, by rw [HeaderPlace.statement?, ending]⟩
              have body := body_varies same (listed member first) (listed member' second)
                meets.opening closes
              refine .statement ⟨rfl, meets.opening.lineAt_eq, ?_⟩
              rw [String.toList_ofList, String.toList_ofList]
              exact body

theorem findings_varied (same : Varied lines strings (segments sql) (segments sql')) :
    List.Forall₂ (Finding.Varies lines strings) (findings sql) (findings sql') := by
  rw [findings_eq, findings_eq, List.forall₂_map_left_iff, List.forall₂_map_right_iff]
  have listed := headers_respaced same.maskOf
  have both := (List.forall₂_and_left _ _).mpr ⟨fun place member => member, listed⟩
  have flipped := (List.forall₂_and_left _ _).mpr ⟨fun place member => member, both.flip⟩
  exact flipped.flip.imp fun place place' related =>
    HeaderPlace.Meets.finding same related.2.1 related.1 related.2.2

/-- Both lists of statements are variations of one another. -/
theorem statements_varied (same : Varied lines strings (segments sql) (segments sql')) :
    List.Forall₂ (Statement.Varies lines strings) (statements sql) (statements sql') := by
  refine List.rel_filterMap ?_ (findings_varied same)
  rintro _ _ (varies | _ | _)
  · exact .some varies
  · exact .none
  · exact .none

end TableSchema.Sql
