import TableSchema.Proofs.Headers
import TableSchema.Proofs.Scanning

/-! # Bodies of statements

The body of a statement is cut out of a script between two parentheses that the mask shows. So
both are code, nothing reaches over them, and the body scanned alone is what the script says of
it.
-/

namespace TableSchema.Sql

open Text

/-! ## Parts that stand alone -/

theorem slice_append (before inside after : List Char) :
    slice (before ++ (inside ++ after)) before.length (before.length + inside.length) = inside := by
  rw [slice, List.drop_left, Nat.add_sub_cancel_left, List.take_left]

theorem slice_eq {text before inside after : List Char} {start stop : Nat}
    (whole : text = before ++ (inside ++ after)) (starts : start = before.length)
    (stops : stop = before.length + inside.length) : slice text start stop = inside := by
  rw [whole, starts, stops, slice_append]

theorem slice_append_right (before text : List Char) (start stop : Nat) :
    slice (before ++ text) (before.length + start) (before.length + stop) =
      slice text start stop := by
  rw [slice, slice, List.drop_length_add_append, Nat.add_sub_add_left]

theorem slice_flatMap {view : Segment → List Char}
    (same : ∀ segment, (view segment).length = segment.text.length)
    (before inside after : List Segment) :
    slice ((before ++ (inside ++ after)).flatMap view) (textOf before).length
      ((textOf before).length + (textOf inside).length) = inside.flatMap view := by
  have length (segments : List Segment) :
      (segments.flatMap view).length = (textOf segments).length := by
    rw [textOf, List.length_flatMap, List.length_flatMap,
      List.map_congr_left fun segment _ => same segment]
  rw [List.flatMap_append, List.flatMap_append, ← length, ← length]
  exact slice_append _ _ _

/-- The part of a text from place `start` up to place `stop` says the same alone as in the
text. -/
structure StandsAlone (text : List Char) (start stop : Nat) : Prop where
  regions : (scan (slice text start stop)).map (·.shift start) =
    (scan text).filter (·.Within start stop)
  closed : Closed (slice text start stop)
  /-- No region reaches over the characters before and behind the part. -/
  apart : ∀ region ∈ scan text,
    region.stop < start ∨ region.Within start stop ∨ stop < region.start
  masked : mask (slice text start stop) = slice (mask text) start stop
  stripped : stripComments (slice text start stop) = slice (stripComments text) start stop

/-! ### A part between two characters of code

The part follows a character that is no word character.
-/

section

variable {text : List Char} {opening closing : Char} {before inside after : List Segment}

theorem reads_inside (outside : isWord opening = false)
    (cut : segments text = (before ++ [.code opening]) ++ (inside ++ .code closing :: after))
    {other : List Char} (quiet : Quiet other)
    (ends : RegionKind.lineComment.MayEndBefore other) : Reads .start inside other := by
  have reads := reads_segments text
  rw [cut] at reads
  have fresh : (Behind.start.pushAll (textOf (before ++ [.code opening]))).Fresh := by
    rw [textOf_append, Behind.pushAll_append]
    exact Behind.push_fresh _ outside
  refine (reads_append.mp (reads_append.mp reads).2).1.alone fresh quiet fun kind text _ => ?_
  refine ⟨by simp, ?_⟩
  cases kind with
  | lineComment => exact ends
  | _ => exact quiet.mayEndBefore (by simp)

theorem slice_view
    (cut : segments text = (before ++ [.code opening]) ++ (inside ++ .code closing :: after))
    {view : Segment → List Char}
    (same : ∀ segment, (view segment).length = segment.text.length) :
    slice ((segments text).flatMap view) ((textOf before).length + 1)
      ((textOf before).length + 1 + (textOf inside).length) = inside.flatMap view := by
  have place : (textOf (before ++ [.code opening])).length = (textOf before).length + 1 := by
    simp
  rw [cut, ← place]
  exact slice_flatMap same ..

theorem scan_eq
    (cut : segments text = (before ++ [.code opening]) ++ (inside ++ .code closing :: after)) :
    scan text = regionsFrom 0 before ++
      (regionsFrom ((textOf before).length + 1) inside ++
        regionsFrom ((textOf before).length + 1 + (textOf inside).length + 1) after) := by
  rw [scan, cut]
  simp [regionsFrom_append, regionsFrom, Nat.add_assoc, Nat.add_comm]

theorem filter_within
    (cut : segments text = (before ++ [.code opening]) ++ (inside ++ .code closing :: after)) :
    (scan text).filter (·.Within ((textOf before).length + 1)
        ((textOf before).length + 1 + (textOf inside).length)) =
      regionsFrom ((textOf before).length + 1) inside := by
  rw [scan_eq cut, List.filter_append, List.filter_append]
  rw [List.filter_eq_nil_iff.mpr, List.filter_eq_self.mpr, List.filter_eq_nil_iff.mpr]
  · rw [List.append_nil, List.nil_append]
  · intro region member within
    have bounds := bounds_of_mem_regionsFrom member
    have inside := of_decide_eq_true within
    exact absurd inside.2 (by omega)
  · intro region member
    have bounds := bounds_of_mem_regionsFrom member
    exact decide_eq_true ⟨bounds.1, bounds.2.2⟩
  · intro region member within
    have bounds := bounds_of_mem_regionsFrom member
    have inside := of_decide_eq_true within
    exact absurd inside.1 (by omega)

theorem apart_of_mem_scan
    (cut : segments text = (before ++ [.code opening]) ++ (inside ++ .code closing :: after))
    {region : Region} (member : region ∈ scan text) :
    region.stop < (textOf before).length + 1 ∨
      region.Within ((textOf before).length + 1)
        ((textOf before).length + 1 + (textOf inside).length) ∨
      (textOf before).length + 1 + (textOf inside).length < region.start := by
  rw [scan_eq cut] at member
  rcases List.mem_append.mp member with member | member
  · have bounds := bounds_of_mem_regionsFrom member
    left
    omega
  · rcases List.mem_append.mp member with member | member
    · have bounds := bounds_of_mem_regionsFrom member
      right
      left
      exact ⟨bounds.1, bounds.2.2⟩
    · have bounds := bounds_of_mem_regionsFrom member
      right
      right
      omega

theorem standsAlone_of_segments (outside : isWord opening = false)
    (cut : segments text = (before ++ [.code opening]) ++ (inside ++ .code closing :: after)) :
    StandsAlone text ((textOf before).length + 1)
      ((textOf before).length + 1 + (textOf inside).length) := by
  have part : slice text ((textOf before).length + 1)
      ((textOf before).length + 1 + (textOf inside).length) = textOf inside := by
    have shown := slice_view cut fun segment => (rfl : segment.text.length = _)
    rwa [text_segments] at shown
  have again : segments (textOf inside) = inside :=
    segments_textOf (reads_inside outside cut quiet_nil (by simp [RegionKind.MayEndBefore]))
  constructor
  · rw [part, filter_within cut, scan, again, ← regionsFrom_add, Nat.zero_add]
  · rw [part]
    exact closed_of_reads (reads_inside outside cut (quiet_cons (by decide) [])
      (by simp [RegionKind.MayEndBefore]))
  · exact fun region => apart_of_mem_scan cut
  · rw [part, mask, again]
    exact (slice_view cut Segment.length_masked).symm
  · rw [part, stripComments, again]
    exact (slice_view cut Segment.length_stripped).symm

end

/-! ## Statements by their places -/

structure StatementPlace where
  nameStart : Nat
  nameStop : Nat
  opening : Nat
  closing : Nat
  deriving DecidableEq

namespace StatementPlace

def body (sql : List Char) (place : StatementPlace) : List Char :=
  slice sql (place.opening + 1) place.closing

def statement (sql : List Char) (place : StatementPlace) : Statement where
  name := String.ofList (unquote (slice sql place.nameStart place.nameStop))
  body := String.ofList (place.body sql)
  line := lineAt sql place.opening

end StatementPlace

def HeaderPlace.statement? (place : HeaderPlace) : Option StatementPlace :=
  match place.ending with
  | .complete closing _ => some ⟨place.nameStart, place.nameStop, place.opening, closing⟩
  | _ => none

def statementPlaces (sql : List Char) : List StatementPlace :=
  (headers (mask sql)).filterMap HeaderPlace.statement?

theorem statements_eq (sql : List Char) :
    statements sql = (statementPlaces sql).map (·.statement sql) := by
  rw [statements, findings_eq, statementPlaces, List.filterMap_map, List.map_filterMap]
  congr 1
  funext place
  simp only [Function.comp_apply, HeaderPlace.finding, HeaderPlace.statement?]
  cases place.ending <;> rfl

theorem exists_segments_of_parts {sql front body tail : List Char} {parts : HeaderParts}
    (whole : mask sql = front ++ parts.text) (split : parts.rest = body ++ ')' :: tail)
    (nonempty : tail ≠ []) :
    ∃ before inside after,
      segments sql = (before ++ [.code '(']) ++ (inside ++ .code ')' :: after) ∧
        (textOf before).length = front.length + parts.header.opening ∧ maskOf inside = body := by
  rw [parts.text_eq, ← List.append_assoc, split] at whole
  rcases exists_code_of_maskOf (reads_segments sql) whole (by decide) (.inl (by simp)) with
    ⟨before, behind, cut, masked, rest⟩
  have reads := reads_segments sql
  rw [cut] at reads
  rcases exists_code_of_maskOf (reads_append.mp reads).2.2 rest (by decide) (.inl nonempty) with
    ⟨inside, after, rfl, masked', _⟩
  refine ⟨before, inside, after, by rw [cut]; simp, ?_, masked'⟩
  rw [← length_maskOf, masked, List.length_append, parts.length_beforeOpening]

theorem exists_segments_of_mem_statementPlaces {sql : List Char} {place : StatementPlace}
    (member : place ∈ statementPlaces sql) :
    ∃ before inside after,
      segments sql = (before ++ [.code '(']) ++ (inside ++ .code ')' :: after) ∧
        place.opening = (textOf before).length ∧
        place.closing = (textOf before).length + 1 + (textOf inside).length := by
  rcases List.mem_filterMap.mp member with ⟨header, listed, complete⟩
  rcases standsIn_of_mem_headersFrom listed with ⟨front, tail, found, whole, read, rfl⟩
  rcases exists_parts_of_headerAt? read with ⟨_, parts, _, rfl, rfl⟩
  simp only [HeaderPlace.statement?, HeaderPlace.ofHeader, parts.drop_opening] at complete
  split at complete
  · rename_i closing semicolon ending
    cases complete
    rcases complete_of_endingOf ending with ⟨body, blanks, rest, split, _, _, rfl, rfl⟩
    rcases exists_segments_of_parts whole split (by simp) with
      ⟨before, inside, after, cut, opening, rfl⟩
    refine ⟨before, inside, after, cut, ?_, ?_⟩
    · rw [opening, Nat.zero_add]
    · rw [← length_maskOf inside, opening]
      simp only
      omega
  · cases complete

/-- Every statement lies between two parentheses of the script, and its body is scanned, masked and
freed of comments alone as it is in the script. -/
theorem statements_stand_alone (sql : List Char) :
    statements sql = (statementPlaces sql).map (·.statement sql) ∧
      ∀ place ∈ statementPlaces sql,
        sql[place.opening]? = some '(' ∧ sql[place.closing]? = some ')' ∧
          StandsAlone sql (place.opening + 1) place.closing := by
  refine ⟨statements_eq sql, fun place member => ?_⟩
  rcases exists_segments_of_mem_statementPlaces member with
    ⟨before, inside, after, cut, opening, closing⟩
  have whole : sql = textOf before ++ '(' :: (textOf inside ++ ')' :: textOf after) := by
    rw [← text_segments sql, cut]
    simp [textOf]
  rw [opening, closing]
  refine ⟨?_, ?_, standsAlone_of_segments (by decide) cut⟩
  · rw [whole, List.getElem?_append_right (Nat.le_refl _), Nat.sub_self]
    rfl
  · rw [whole, Nat.add_assoc, List.getElem?_append_right (Nat.le_add_right _ _),
      Nat.add_sub_cancel_left, Nat.add_comm 1, List.getElem?_cons_succ,
      List.getElem?_append_right (Nat.le_refl _), Nat.sub_self]
    rfl

/-- Parentheses, commas and semicolons in comments and literals are neither the end of the body nor
lost from it. -/
theorem tricky_statement_stands_alone :
    let sql := "CREATE TABLE t (a text DEFAULT ')', /* ; */ b int -- (\n);".toList
    ⟨13, 14, 15, 55⟩ ∈ statementPlaces sql ∧ StandsAlone sql 16 55 :=
  have member : ⟨13, 14, 15, 55⟩ ∈
      statementPlaces "CREATE TABLE t (a text DEFAULT ')', /* ; */ b int -- (\n);".toList := by
    decide +kernel
  ⟨member, ((statements_stand_alone _).2 _ member).2.2⟩

end TableSchema.Sql
