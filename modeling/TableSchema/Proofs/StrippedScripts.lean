import TableSchema.Proofs.Bodies
import TableSchema.Proofs.Stripping

/-! # Scripts without comments

Stripping comments keeps the mask of a script, so headers stand at the same places and end in the
same way. It keeps every line and every name too, and a body without its comments is what stands in
the place of the body.
-/

namespace TableSchema.Sql

open Text

/-! ## Lines -/

theorem lineFeed_hide (character : Char) : (hide character == '\n') = (character == '\n') := by
  unfold hide
  split
  · rename_i same
    rw [same]
  · rename_i different
    rw [beq_eq_false_iff_ne.mpr different]
    rfl

namespace Segment

theorem lineFeeds_stripped (segment : Segment) :
    segment.stripped.map (· == '\n') = segment.text.map (· == '\n') := by
  cases segment with
  | code character => rfl
  | region kind text =>
      cases comment : kind.isComment with
      | false => rw [stripped_of_literal comment, text_region]
      | true =>
          rw [stripped_of_comment comment, text_region, List.map_map]
          exact List.map_congr_left fun character _ => lineFeed_hide character

end Segment

theorem lineFeeds_stripComments (sql : List Char) :
    (stripComments sql).map (· == '\n') = sql.map (· == '\n') := by
  rw [← congrArg (List.map (· == '\n')) (text_segments sql), stripComments, List.map_flatMap,
    List.map_flatMap]
  congr 1
  funext segment
  exact segment.lineFeeds_stripped

theorem newlines_eq (text : List Char) : newlines text = (text.map (· == '\n')).count true := by
  rw [newlines, List.count, List.count, List.countP_map]
  congr 1
  funext character
  simp

theorem newlines_take_stripComments (sql : List Char) (place : Nat) :
    newlines ((stripComments sql).take place) = newlines (sql.take place) := by
  rw [newlines_eq, newlines_eq, List.map_take, List.map_take, lineFeeds_stripComments]

theorem lineAt_stripComments (sql : List Char) (place : Nat) :
    lineAt (stripComments sql) place = lineAt sql place := by
  rw [lineAt, lineAt, newlines_take_stripComments]

/-! ## Names -/

namespace Segment

theorem getElem?_stripped (segment : Segment) (place : Nat) :
    segment.stripped[place]? = segment.text[place]? ∨
      ∃ blank ∈ [' ', '\n'], segment.masked[place]? = some blank := by
  cases segment with
  | code character => exact .inl rfl
  | region kind text =>
      cases comment : kind.isComment with
      | false => exact .inl (by rw [stripped_of_literal comment, text_region])
      | true =>
          rw [stripped_of_comment comment, masked, if_pos comment, text_region]
          by_cases inside : place < text.length
          · right
            refine ⟨hide text[place], ?_, by simp [inside]⟩
            unfold hide
            split <;> decide
          · left
            rw [List.getElem?_eq_none (by simpa using inside),
              List.getElem?_eq_none (by simpa using inside)]

end Segment

theorem Segment.getElem?_masked (segment : Segment) (place : Nat) :
    segment.masked[place]? = segment.text[place]? ∨
      ∃ blank ∈ [' ', '\n'], segment.masked[place]? = some blank := by
  have hidden (shown : Option Char) :
      shown.map hide = shown ∨ ∃ blank ∈ [' ', '\n'], shown.map hide = some blank := by
    cases shown with
    | none => exact .inl rfl
    | some character =>
        refine .inr ⟨hide character, ?_, rfl⟩
        unfold hide
        split <;> decide
  cases segment with
  | code => exact .inl rfl
  | region kind text =>
      rw [masked, text_region]
      split
      · rw [List.getElem?_map]
        exact hidden _
      · rw [getElem?_hideInside]
        split
        · exact .inl rfl
        · exact hidden _

/-- A view of single segments that shows them where another one shows no blank does so for any
run. -/
theorem getElem?_flatMap {view other : Segment → List Char}
    (same : ∀ segment, (view segment).length = segment.text.length)
    (same' : ∀ segment, (other segment).length = segment.text.length)
    (shown : ∀ (segment : Segment) (place : Nat), (view segment)[place]? = segment.text[place]? ∨
      ∃ blank ∈ [' ', '\n'], (other segment)[place]? = some blank)
    (segments : List Segment) (place : Nat) :
    (segments.flatMap view)[place]? = (textOf segments)[place]? ∨
      ∃ blank ∈ [' ', '\n'], (segments.flatMap other)[place]? = some blank := by
  induction segments generalizing place with
  | nil => exact .inl rfl
  | cons segment segments induction =>
      rw [List.flatMap_cons, List.flatMap_cons, textOf_cons, List.getElem?_append,
        List.getElem?_append, List.getElem?_append, same, same']
      split
      · exact shown segment place
      · exact induction _

theorem getElem?_slice (text : List Char) (start stop place : Nat) :
    (slice text start stop)[place]? =
      if place < stop - start then text[start + place]? else none := by
  rw [slice, List.getElem?_take, List.getElem?_drop]

theorem slice_flatMap_of_visible {view : Segment → List Char}
    (same : ∀ segment, (view segment).length = segment.text.length)
    (shown : ∀ (segment : Segment) (place : Nat), (view segment)[place]? = segment.text[place]? ∨
      ∃ blank ∈ [' ', '\n'], segment.masked[place]? = some blank)
    {segments : List Segment} {start stop : Nat}
    (visible : ∀ character ∈ slice (maskOf segments) start stop, character ∉ [' ', '\n']) :
    slice (segments.flatMap view) start stop = slice (textOf segments) start stop := by
  apply List.ext_getElem?
  intro place
  rw [getElem?_slice, getElem?_slice]
  split
  · rename_i inside
    rcases getElem?_flatMap same Segment.length_masked shown segments (start + place) with
      here | ⟨blank, hidden, masked⟩
    · exact here
    · refine absurd hidden (visible blank ?_)
      apply List.mem_of_getElem? (i := place)
      rw [getElem?_slice, if_pos inside]
      exact masked
  · rfl

theorem quote_not_mem_hidden (text : List Char) : '"' ∉ text.map hide := by
  intro member
  rcases List.mem_map.mp member with ⟨character, _, same⟩
  unfold hide at same
  split at same <;> cases same

theorem eq_nil_of_delimiter {delimiter : Char} {blanks rest rest' : List Char}
    (marked : delimiter ∈ ['\'', '"', '$']) (blank : AllBlank blanks)
    (same : delimiter :: rest = blanks ++ rest') : blanks = [] := by
  cases blanks with
  | nil => rfl
  | cons first blanks =>
      have shown := blank first (List.mem_cons_self ..)
      rw [← (List.cons.inj same).1, visible_of_delimiter marked] at shown
      cases shown

theorem ne_nil_of_quoted {behind : Behind} {kind : RegionKind} {text : List Char}
    {segments : List Segment} {after blanks inside more : List Char}
    (stands : (Segment.region kind text).StandsAt behind (textOf segments ++ after))
    (literal : kind.isComment = false) (blank : AllBlank blanks) (nonempty : more ≠ [])
    (masked : (Segment.region kind text).masked ++ maskOf segments =
      blanks ++ '"' :: (inside ++ '"' :: more)) : textOf segments ++ after ≠ [] := by
  intro nothing
  have none := maskOf_eq_nil_iff.mpr (List.append_eq_nil_iff.mp nothing).1
  rcases opening_of_literal stands literal with ⟨delimiter, tail, marked, rfl⟩
  rw [none, List.append_nil, Segment.masked, literal] at masked
  simp only [Bool.false_eq_true, if_false] at masked
  rcases List.eq_nil_or_concat tail with rfl | ⟨front, last, rfl⟩
  · have long := congrArg List.length masked
    simp [hideInside] at long
    omega
  · rw [List.concat_eq_append, hideInside_of_delimited] at masked
    cases eq_nil_of_delimiter marked blank masked
    rcases List.eq_nil_or_concat more with rfl | ⟨front', last', rfl⟩
    · exact nonempty rfl
    · have tails := (List.cons.inj masked).2
      rw [List.concat_eq_append, ← List.cons_append, ← List.append_assoc] at tails
      have fronts := (List.append_inj' tails rfl).1
      exact absurd (by rw [fronts]; simp) (quote_not_mem_hidden front)

theorem length_of_quoted {behind : Behind} {kind : RegionKind}
    {text after blanks inside more shown : List Char} (closed : ClosedRegion behind kind text after)
    (literal : kind.isComment = false) (blank : AllBlank blanks) (absent : '"' ∉ inside)
    (masked : (Segment.region kind text).masked ++ shown =
      blanks ++ '"' :: (inside ++ '"' :: more)) :
    blanks = [] ∧ text.length = inside.length + 2 := by
  rcases closed.delimited literal with ⟨delimiter, hidden, marked, rfl⟩
  simp only [Segment.masked, literal, Bool.false_eq_true, if_false, hideInside_of_delimited,
    List.cons_append, List.append_assoc, List.nil_append] at masked
  cases eq_nil_of_delimiter marked blank masked
  rcases List.cons.inj masked with ⟨rfl, tail⟩
  have same := (eq_of_stop (quote_not_mem_hidden hidden) absent tail).1
  refine ⟨rfl, ?_⟩
  rw [← same]
  simp

theorem exists_blanks_of_hidden {text blanks shown more : List Char}
    (masked : text.map hide ++ shown = blanks ++ '"' :: more) :
    ∃ left, blanks = text.map hide ++ left ∧ shown = left ++ '"' :: more := by
  rcases List.append_eq_append_iff.mp masked with ⟨left, split, tail⟩ | ⟨left, split, tail⟩
  · exact ⟨left, split, tail⟩
  · cases left with
    | nil => exact ⟨[], by rw [split, List.append_nil, List.append_nil], tail.symm⟩
    | cons first left =>
        cases (List.cons.inj tail).1
        exact absurd (by rw [split]; simp) (quote_not_mem_hidden text)

theorem exists_literal {behind : Behind} {segments : List Segment}
    {after blanks inside more : List Char} (reads : Reads behind segments after)
    (blank : AllBlank blanks) (absent : '"' ∉ inside) (nonempty : more ≠ [])
    (masked : maskOf segments = blanks ++ '"' :: (inside ++ '"' :: more)) :
    ∃ before kind text rest, segments = before ++ .region kind text :: rest ∧
      kind.isComment = false ∧ (textOf before).length = blanks.length ∧
      text.length = inside.length + 2 := by
  induction segments generalizing behind blanks with
  | nil => simp at masked
  | cons segment segments induction =>
      have later (left : List Char) (split : blanks = segment.masked ++ left)
          (tail : maskOf segments = left ++ '"' :: (inside ++ '"' :: more)) :
          ∃ before kind text rest, segment :: segments = before ++ .region kind text :: rest ∧
            kind.isComment = false ∧ (textOf before).length = blanks.length ∧
            text.length = inside.length + 2 := by
        have blank' : AllBlank left := fun character member => blank character (by simp [split, member])
        rcases induction reads.2 blank' tail with ⟨before, kind, text, rest, rfl, literal, long, size⟩
        refine ⟨segment :: before, kind, text, rest, rfl, literal, ?_, size⟩
        rw [split, textOf_cons, List.length_append, List.length_append, long, segment.length_masked]
      rw [maskOf_cons] at masked
      cases segment with
      | code character =>
          cases blanks with
          | nil =>
              cases (List.cons.inj masked).1
              cases reads.1
          | cons blank blanks =>
              rcases List.cons.inj masked with ⟨rfl, tail⟩
              exact later blanks rfl tail
      | region kind text =>
          cases comment : kind.isComment with
          | true =>
              have hidden : (Segment.region kind text).masked = text.map hide := if_pos comment
              rw [hidden] at masked later
              rcases exists_blanks_of_hidden masked with ⟨left, split, tail⟩
              exact later left split tail
          | false =>
              have closed := reads.1.closed (ne_nil_of_quoted reads.1 comment blank nonempty masked)
              rcases length_of_quoted closed comment blank absent masked with ⟨rfl, size⟩
              exact ⟨[], kind, text, segments, rfl, comment, rfl, size⟩

theorem exists_literal_of_parts {sql front inside : List Char} {parts : HeaderParts}
    (whole : mask sql = front ++ parts.text) (good : parts.WellFormed)
    (quoted : parts.identifier = '"' :: (inside ++ ['"'])) (absent : '"' ∉ inside) :
    ∃ before kind text rest, segments sql = before ++ .region kind text :: rest ∧
      kind.isComment = false ∧ (textOf before).length = front.length + parts.header.nameStart ∧
      text.length = parts.identifier.length := by
  rw [HeaderParts.text, ← List.append_assoc, quoted] at whole
  rcases exists_code_of_maskOf (reads_segments sql) whole good.lead_visible (.inl (by simp)) with
    ⟨first, second, cut, masked, masked'⟩
  have reads := reads_segments sql
  rw [cut] at reads
  have token : maskOf second =
      parts.blanks ++ '"' :: (inside ++ '"' :: parts.afterName) := by simp [masked']
  rcases exists_literal (reads_append.mp reads).2.2 good.blanks_blank absent
    (by simp [HeaderParts.afterName]) token with
    ⟨before, kind, text, rest, rfl, literal, long, size⟩
  refine ⟨first ++ .code parts.lead :: before, kind, text, rest, by simp [cut], literal, ?_, ?_⟩
  · rw [textOf_append, textOf_cons, List.length_append, List.length_append, long,
      ← length_maskOf, masked, List.length_append, HeaderParts.header]
    simp only [Segment.text_code, List.length_singleton]
    omega
  · simp [quoted, size]

/-- A name in a header is the whole of a literal that starts with a double quote, or a plain name
that the mask shows. -/
theorem literal_or_plain {sql : List Char} {place : HeaderPlace}
    (member : place ∈ headers (mask sql)) :
    (∃ before kind tail rest, segments sql = before ++ .region kind ('"' :: tail) :: rest ∧
        kind.isComment = false ∧ place.nameStart = (textOf before).length ∧
        place.nameStop = (textOf before).length + ('"' :: tail).length ∧
        slice (mask sql) place.nameStart place.nameStop = hideInside ('"' :: tail) ∧
        (hideInside ('"' :: tail)).head? = some '"') ∨
      isPlainName (slice (mask sql) place.nameStart place.nameStop) = true := by
  rcases standsIn_of_mem_headersFrom member with ⟨front, tail, found, whole, read, rfl⟩
  rcases exists_parts_of_headerAt? read with ⟨_, parts, good, rfl, rfl⟩
  have stop : parts.header.nameStop = parts.header.nameStart + parts.identifier.length := rfl
  simp only [HeaderPlace.ofHeader, Nat.zero_add, stop, ← Nat.add_assoc]
  have shown := slice_append (front ++ parts.beforeName) parts.identifier parts.afterName
  rw [List.append_assoc, ← parts.text_eq_name, ← whole, List.length_append,
    parts.length_beforeName] at shown
  rw [shown]
  rcases quoted_or_plain good.identifier_read with ⟨inside, quoted, absent⟩ | plain
  · rcases exists_literal_of_parts whole good quoted absent with
      ⟨before, kind, text, rest, cut, literal, start, size⟩
    have token := slice_flatMap Segment.length_masked before [.region kind text] rest
    have length : (textOf [.region kind text]).length = parts.identifier.length := by simp [size]
    rw [start, length, List.singleton_append, ← cut] at token
    have opens : hideInside text = '"' :: (inside ++ ['"']) := by
      have same := token.symm.trans (shown.trans quoted)
      simpa [Segment.masked, literal] using same
    have first : text.head? = some '"' := by
      cases text with
      | nil => cases opens
      | cons first text =>
          cases text with
          | nil => simp [hideInside] at opens
          | cons => exact congrArg some (List.cons.inj opens).1
    rcases List.head?_eq_some_iff.mp first with ⟨tail, rfl⟩
    exact .inl ⟨before, kind, tail, rest, cut, literal, start.symm, by rw [start, size],
      by rw [opens, quoted], by rw [opens]; rfl⟩
  · exact .inr plain

theorem slice_of_plain {sql : List Char} {view : Segment → List Char}
    (same : ∀ segment, (view segment).length = segment.text.length)
    (shown : ∀ (segment : Segment) (place : Nat), (view segment)[place]? = segment.text[place]? ∨
      ∃ blank ∈ [' ', '\n'], segment.masked[place]? = some blank)
    {start stop : Nat} (plain : isPlainName (slice (mask sql) start stop) = true) :
    slice ((segments sql).flatMap view) start stop = slice sql start stop := by
  have visible : ∀ character ∈ slice (maskOf (segments sql)) start stop,
      character ∉ [' ', '\n'] := by
    intro character member
    have nameCharacter := isNamePart_of_isPlainName plain member
    simp only [List.mem_cons, List.not_mem_nil, or_false]
    rintro (rfl | rfl) <;> cases nameCharacter
  have text := slice_flatMap_of_visible same shown visible
  rwa [textOf, text_segments] at text

theorem slice_of_literal {sql token : List Char} {kind : RegionKind} {before rest : List Segment}
    {start stop : Nat} (cut : segments sql = before ++ .region kind token :: rest)
    (starts : start = (textOf before).length) (stops : stop = (textOf before).length + token.length)
    {view : Segment → List Char} (same : ∀ segment, (view segment).length = segment.text.length)
    (readable : view (.region kind token) = token) :
    slice ((segments sql).flatMap view) start stop = token := by
  have part := slice_flatMap same before [.region kind token] rest
  rw [cut, starts, stops]
  simpa [readable] using part

theorem slice_name_stripComments {sql : List Char} {place : HeaderPlace}
    (member : place ∈ headers (mask sql)) :
    slice (stripComments sql) place.nameStart place.nameStop =
      slice sql place.nameStart place.nameStop := by
  rcases literal_or_plain member with ⟨before, kind, tail, rest, cut, literal, starts, stops, _⟩ | plain
  · have text : slice ((segments sql).flatMap Segment.text) _ _ = '"' :: tail :=
      slice_of_literal cut starts stops (fun _ => rfl) rfl
    rw [text_segments] at text
    rw [text]
    exact slice_of_literal cut starts stops Segment.length_stripped
      (Segment.stripped_of_literal literal)
  · exact slice_of_plain Segment.length_stripped Segment.getElem?_stripped plain

/-! ## Statements -/

def Statement.withoutComments (statement : Statement) : Statement :=
  { statement with body := String.ofList (stripComments statement.body.toList) }

def Finding.withoutComments : Finding → Finding
  | .statement complete => .statement complete.withoutComments
  | incomplete => incomplete

theorem name_stripComments {sql : List Char} {place : HeaderPlace}
    (member : place ∈ headers (mask sql)) : place.name (stripComments sql) = place.name sql := by
  rw [HeaderPlace.name, HeaderPlace.name, slice_name_stripComments member]

theorem finding_stripComments {sql : List Char} {place : HeaderPlace}
    (member : place ∈ headers (mask sql)) :
    place.finding (stripComments sql) = (place.finding sql).withoutComments := by
  unfold HeaderPlace.finding
  rw [name_stripComments member, lineAt_stripComments, lineAt_stripComments]
  cases ending : place.ending with
  | unbalanced => rfl
  | unterminated => rfl
  | complete closing semicolon =>
      have listed : ⟨place.nameStart, place.nameStop, place.opening, closing⟩ ∈
          statementPlaces sql :=
        List.mem_filterMap.mpr ⟨place, member, by rw [HeaderPlace.statement?, ending]⟩
      rcases exists_segments_of_mem_statementPlaces listed with
        ⟨before, inside, after, cut, opening, closing⟩
      have alone := standsAlone_of_segments (by decide) cut
      simp only at opening closing
      rw [← closing, ← opening] at alone
      simp only [Finding.withoutComments, Statement.withoutComments, String.toList_ofList,
        alone.stripped]

/-- The same headers are found in a script without its comments. -/
theorem findings_stripComments (sql : List Char) :
    findings (stripComments sql) = (findings sql).map Finding.withoutComments := by
  rw [findings_eq, findings_eq, mask_stripComments, List.map_map]
  exact List.map_congr_left fun place member => finding_stripComments member

theorem statements_stripComments (sql : List Char) :
    statements (stripComments sql) = (statements sql).map Statement.withoutComments := by
  rw [statements, findings_stripComments, List.filterMap_map, statements, List.map_filterMap]
  congr 1
  funext finding
  cases finding <;> rfl

end TableSchema.Sql
