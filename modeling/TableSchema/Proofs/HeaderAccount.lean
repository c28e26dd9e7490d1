import TableSchema.Parsing
import TableSchema.Proofs.HeaderSites
import TableSchema.Proofs.Tokenisation

/-! # Every header is accounted for

Wherever the header pattern stands in a mask, it begins a statement, lies inside a complete one, or
is reported, and only one of these. The statements are told apart from the reported headers by
counting parentheses and by what follows the closing one.
-/

namespace TableSchema.Sql

open Text

/-! ## What follows a header -/

def Closes (rest : List Char) : Prop :=
  ∃ body tail, rest = body ++ ')' :: tail ∧ WellNested body

/-- A text in which a parenthesis that stands before it is closed and a semicolon follows. -/
def Ends (rest : List Char) : Prop :=
  ∃ body blanks tail, rest = body ++ ')' :: (blanks ++ ';' :: tail) ∧ WellNested body ∧
    AllBlank blanks

theorem Ends.closes {rest : List Char} (ends : Ends rest) : Closes rest := by
  rcases ends with ⟨body, blanks, tail, whole, nested, _⟩
  exact ⟨body, _, whole, nested⟩

theorem closingAt?_eq_none_iff {rest : List Char} : closingAt? 0 rest = none ↔ ¬ Closes rest := by
  rw [Option.eq_none_iff_forall_ne_some]
  constructor
  · rintro unclosed ⟨body, tail, rfl, nested⟩
    exact unclosed _
      (closingAt?_eq_some.mpr ⟨body, tail, rfl, rfl, balanced_iff_wellNested.mpr nested⟩)
  · intro unclosed length closes
    rcases closingAt?_eq_some.mp closes with ⟨body, tail, whole, _, balanced⟩
    exact unclosed ⟨body, tail, whole, balanced_iff_wellNested.mp balanced⟩

theorem endingOf_eq_unbalanced_iff (inside : Nat) {rest : List Char} :
    endingOf inside rest = .unbalanced ↔ ¬ Closes rest := by
  rw [← closingAt?_eq_none_iff, endingOf]
  cases closingAt? 0 rest with
  | none => simp
  | some length =>
      simp only [reduceCtorEq, iff_false]
      split <;> simp

theorem exists_complete_iff (inside : Nat) {rest : List Char} :
    (∃ closing semicolon, endingOf inside rest = .complete closing semicolon) ↔ Ends rest := by
  constructor
  · rintro ⟨closing, semicolon, ending⟩
    rcases complete_of_endingOf ending with ⟨body, blanks, tail, whole, balanced, blank, _⟩
    exact ⟨body, blanks, tail, whole, balanced_iff_wellNested.mp balanced, blank⟩
  · rintro ⟨body, blanks, tail, rfl, nested, blank⟩
    rw [endingOf_eq_ite (balanced_iff_wellNested.mpr nested) blank (by decide), if_pos rfl]
    exact ⟨_, _, rfl⟩

theorem endingOf_eq_unterminated_iff (inside : Nat) {rest : List Char} :
    endingOf inside rest = .unterminated ↔ Closes rest ∧ ¬ Ends rest := by
  rw [← exists_complete_iff inside, ← not_not (a := Closes rest),
    ← endingOf_eq_unbalanced_iff inside]
  cases endingOf inside rest <;> simp

/-! ## Places of headers -/

namespace HeaderMatch

/-- The header pattern stands at place `position` of a masked text, with the text `rest` behind its
parenthesis. -/
structure StandsAt (parts : HeaderMatch) (masked : List Char) (position : Nat)
    (rest : List Char) : Prop where
  outside : isWordAt (masked.take position).getLast? = false
  fits : parts.Fits
  text : masked.drop position = parts.text rest

variable {parts : HeaderMatch} {masked rest : List Char} {position : Nat}

def place (parts : HeaderMatch) (position : Nat) (rest : List Char) : HeaderPlace :=
  .ofHeader position parts.header (parts.text rest)

theorem StandsAt.length_take (stands : parts.StandsAt masked position rest) :
    (masked.take position).length = position := by
  rw [List.length_take, Nat.min_eq_left]
  rw [← Nat.not_lt]
  intro beyond
  have text := stands.text
  rw [List.drop_eq_nil_of_le (Nat.le_of_lt beyond), text_eq_whole] at text
  have size := congrArg List.length text
  rw [List.length_append, length_whole, List.length_nil] at size
  omega

theorem StandsAt.standsIn (stands : parts.StandsAt masked position rest) :
    (parts.place position rest).StandsIn none 0 masked := by
  refine ⟨masked.take position, parts.text rest, parts.header, ?_, ?_, ?_⟩
  · rw [← stands.text, List.take_append_drop]
  · rw [Option.or_none]
    exact headerAt?_eq_some_iff.mpr ⟨stands.outside, parts, rest, stands.fits, rfl, rfl⟩
  · rw [stands.length_take, Nat.zero_add]
    rfl

end HeaderMatch

theorem exists_standsAt_of_mem_headers {masked : List Char} {place : HeaderPlace}
    (member : place ∈ headers masked) :
    ∃ parts rest, HeaderMatch.StandsAt parts masked place.start rest ∧
      place = parts.place place.start rest := by
  rcases standsIn_of_mem_headersFrom member with ⟨before, after, header, rfl, found, rfl⟩
  rw [Option.or_none] at found
  rcases headerAt?_eq_some_iff.mp found with ⟨outside, parts, rest, fits, rfl, rfl⟩
  simp only [HeaderPlace.ofHeader, Nat.zero_add]
  exact ⟨parts, rest, ⟨by rwa [List.take_left], fits, List.drop_left⟩, rfl⟩

theorem headers_increasing (masked : List Char) :
    (headers masked).Pairwise fun first second =>
      first.start < first.next ∧ first.next ≤ second.start :=
  pairwise_headersFrom none 0 0 masked

theorem headers_apart {masked : List Char} {place other : HeaderPlace}
    (member : place ∈ headers masked) (member' : other ∈ headers masked) :
    other.start ≤ place.start ∨ place.next ≤ other.start := by
  have increasing := headers_increasing masked
  refine List.Pairwise.forall_of_forall_of_flip
    (R := fun place other : HeaderPlace => other.start ≤ place.start ∨ place.next ≤ other.start)
    (fun _ _ => .inl (Nat.le_refl _)) (increasing.imp fun apart => .inr apart.2)
    (increasing.imp fun apart => .inl ?_) member member'
  exact Nat.le_of_lt (Nat.lt_of_lt_of_le apart.1 apart.2)

theorem filter_start_eq {masked : List Char} {site : HeaderPlace} (member : site ∈ headers masked) :
    (headers masked).filter (·.start = site.start) = [site] := by
  have apart := headers_increasing masked
  generalize headers masked = places at member apart ⊢
  induction places with
  | nil => cases member
  | cons place places induction =>
      rcases List.pairwise_cons.mp apart with ⟨first, later⟩
      rcases List.mem_cons.mp member with rfl | member
      · rw [List.filter_cons_of_pos (by simp), List.filter_eq_nil_iff.mpr]
        intro other listed same
        have behind := first other listed
        simp only [decide_eq_true_eq] at same
        omega
      · have behind := first site member
        rw [List.filter_cons_of_neg (by simp only [decide_eq_true_eq]; omega)]
        exact induction member later

/-! ## Places in code -/

def InCode (sql : List Char) (place : Nat) : Prop := ∀ region ∈ scan sql, ¬ region.Covers place

theorem inCode_of_segments {sql : List Char} {before after : List Segment} {character : Char}
    (cut : segments sql = before ++ .code character :: after) :
    InCode sql (textOf before).length := by
  intro region member covers
  rw [scan, cut, regionsFrom_append] at member
  rcases List.mem_append.mp member with member | member
  · have bounds := bounds_of_mem_regionsFrom member
    rw [Region.Covers] at covers
    omega
  · rw [regionsFrom] at member
    have bounds := bounds_of_mem_regionsFrom member
    rw [Region.Covers] at covers
    omega

/-- What a mask shows that no region does is code, unless it is the last character. -/
theorem inCode_of_mask {sql front rest : List Char} {character : Char}
    (masked : mask sql = front ++ character :: rest) (structural : character ∉ regionMarks)
    (nonempty : rest ≠ []) : InCode sql front.length := by
  rcases exists_code_of_maskOf (reads_segments sql) masked structural (.inl nonempty) with
    ⟨before, after, cut, rfl, _⟩
  rw [length_maskOf]
  exact inCode_of_segments cut

theorem HeaderMatch.StandsAt.keywords {parts : HeaderMatch} {sql rest : List Char}
    {position place : Nat} {character : Char} (stands : parts.StandsAt (mask sql) position rest)
    (here : parts.words[place]? = some character) (visible : isBlank character = false) :
    InCode sql (position + place) := by
  have word := stands.fits.isWord_of_visible (List.mem_of_getElem? here) visible
  rcases List.getElem?_eq_some_iff.mp here with ⟨short, rfl⟩
  have whole : mask sql = ((mask sql).take position ++ parts.words.take place) ++
      parts.words[place] :: (parts.words.drop (place + 1) ++
        (parts.qualifier ++ (parts.name ++ (parts.gap ++ '(' :: rest)))) := by
    rw [List.append_assoc, ← List.cons_append, ← List.drop_eq_getElem_cons short,
      ← List.append_assoc (parts.words.take place), List.take_append_drop, ← HeaderMatch.text,
      ← stands.text, List.take_append_drop]
  have code := inCode_of_mask whole (not_mem_regionMarks_of_isWord word) (by simp)
  rwa [List.length_append, stands.length_take, List.length_take,
    Nat.min_eq_left (Nat.le_of_lt short)] at code

theorem HeaderMatch.StandsAt.opening {parts : HeaderMatch} {sql rest : List Char} {position : Nat}
    (stands : parts.StandsAt (mask sql) position rest) (nonempty : rest ≠ []) :
    InCode sql (position + parts.header.opening) := by
  have whole : mask sql = ((mask sql).take position ++
      (parts.words ++ (parts.qualifier ++ (parts.name ++ parts.gap)))) ++ '(' :: rest := by
    have text : parts.text rest =
        (parts.words ++ (parts.qualifier ++ (parts.name ++ parts.gap))) ++ '(' :: rest := by
      simp [HeaderMatch.text]
    rw [List.append_assoc, ← text, ← stands.text, List.take_append_drop]
  have code := inCode_of_mask whole (by decide) nonempty
  rw [List.length_append, stands.length_take] at code
  simpa [HeaderMatch.header, Nat.add_assoc] using code

theorem HeaderMatch.StandsAt.closing {parts : HeaderMatch} {sql body tail : List Char}
    {position : Nat} (stands : parts.StandsAt (mask sql) position (body ++ ')' :: tail))
    (nonempty : tail ≠ []) :
    InCode sql (position + parts.header.opening + 1 + body.length) := by
  have whole : mask sql = ((mask sql).take position ++ (parts.whole ++ body)) ++ ')' :: tail := by
    rw [List.append_assoc, List.append_assoc, ← parts.text_eq_whole, ← stands.text,
      List.take_append_drop]
  have code := inCode_of_mask whole (by decide) nonempty
  rwa [List.length_append, List.length_append, stands.length_take, parts.length_whole,
    ← Nat.add_assoc, ← Nat.add_assoc] at code

/-! ## Complete statements -/

structure StatementSpan extends StatementPlace where
  start : Nat
  semicolon : Nat
  deriving DecidableEq

def HeaderPlace.span? (place : HeaderPlace) : Option StatementSpan :=
  match place.ending with
  | .complete closing semicolon =>
      some ⟨⟨place.nameStart, place.nameStop, place.opening, closing⟩, place.start, semicolon⟩
  | _ => none

def statementSpans (sql : List Char) : List StatementSpan :=
  (headers (mask sql)).filterMap HeaderPlace.span?

theorem statements_eq_spans (sql : List Char) :
    statements sql = (statementSpans sql).map (·.statement sql) := by
  rw [statements_eq, statementPlaces, statementSpans, List.map_filterMap, List.map_filterMap]
  congr 1
  funext place
  simp only [HeaderPlace.statement?, HeaderPlace.span?]
  cases place.ending <;> rfl

structure IsStatementOf (sql : List Char) (span : StatementSpan) (parts : HeaderMatch)
    (body blanks rest : List Char) : Prop where
  stands : parts.StandsAt (mask sql) span.start (body ++ ')' :: (blanks ++ ';' :: rest))
  nested : WellNested body
  blank : AllBlank blanks
  nameStart : span.nameStart = span.start + parts.header.nameStart
  nameStop : span.nameStop = span.start + parts.header.nameStop
  opening : span.opening = span.start + parts.header.opening
  closing : span.closing = span.opening + 1 + body.length
  semicolon : span.semicolon = span.closing + 1 + blanks.length
  keywords : ∀ place character, parts.words[place]? = some character →
    isBlank character = false → InCode sql (span.start + place)
  parentheses : InCode sql span.opening ∧ InCode sql span.closing

theorem HeaderPlace.span?_eq_some {place : HeaderPlace} {span : StatementSpan} :
    place.span? = some span ↔ ∃ closing semicolon, place.ending = .complete closing semicolon ∧
      span = ⟨⟨place.nameStart, place.nameStop, place.opening, closing⟩, place.start,
        semicolon⟩ := by
  rw [span?]
  constructor
  · intro complete
    split at complete
    · cases complete
      exact ⟨_, _, ‹_›, rfl⟩
    · cases complete
  · rintro ⟨closing, semicolon, ending, rfl⟩
    rw [ending]

theorem mem_statementSpans {sql : List Char} {span : StatementSpan} :
    span ∈ statementSpans sql ↔ ∃ place ∈ headers (mask sql), place.span? = some span :=
  List.mem_filterMap

theorem exists_isStatementOf {sql : List Char} {span : StatementSpan}
    (member : span ∈ statementSpans sql) :
    ∃ parts body blanks rest, IsStatementOf sql span parts body blanks rest := by
  rcases mem_statementSpans.mp member with ⟨place, listed, complete⟩
  rcases HeaderPlace.span?_eq_some.mp complete with ⟨closing, semicolon, ending, rfl⟩
  rcases exists_standsAt_of_mem_headers listed with ⟨parts, rest, stands, same⟩
  have shown := ending
  rw [same] at shown
  rcases HeaderMatch.rest_of_complete shown with
    ⟨body, blanks, tail, rfl, balanced, blank, closes, ends⟩
  have opening : place.opening = place.start + parts.header.opening :=
    congrArg HeaderPlace.opening same
  refine ⟨parts, body, blanks, tail, stands, balanced_iff_wellNested.mp balanced, blank,
    congrArg HeaderPlace.nameStart same, congrArg HeaderPlace.nameStop same, opening, ?_, ends,
    fun place character => stands.keywords, ?_, ?_⟩
  · simp only [closes, opening]
  · simpa only [opening] using stands.opening (by simp)
  · simpa only [closes] using stands.closing (by simp)

theorem HeaderPlace.next_of_span? {place : HeaderPlace} {span : StatementSpan}
    (complete : place.span? = some span) :
    place.next = span.semicolon + 1 ∧ place.start = span.start := by
  rcases span?_eq_some.mp complete with ⟨closing, semicolon, ending, rfl⟩
  rw [next, ending]
  exact ⟨rfl, rfl⟩

theorem statementSpans_increasing (sql : List Char) :
    (statementSpans sql).Pairwise fun first second => first.semicolon < second.start := by
  refine List.pairwise_filterMap.mpr ((headers_increasing (mask sql)).imp ?_)
  rintro first second ⟨_, behind⟩ span complete span' complete'
  rw [(HeaderPlace.next_of_span? complete).1, (HeaderPlace.next_of_span? complete').2] at behind
  exact behind

/-! ## Roles of headers -/

def HeaderPlace.diagnostic? (sql : List Char) (place : HeaderPlace) : Option Diagnostic :=
  (place.finding sql).diagnostic?

theorem HeaderPlace.diagnostic?_eq (sql : List Char) (place : HeaderPlace) :
    place.diagnostic? sql = match place.ending with
      | .unbalanced => some (.unbalancedParentheses (place.name sql) (lineAt sql place.start))
      | .unterminated => some (.unterminatedStatement (place.name sql) (lineAt sql place.start))
      | .complete _ _ => none := by
  rw [diagnostic?, finding]
  cases place.ending <;> rfl

def diagnosticsAt (sql : List Char) (position : Nat) : List Diagnostic :=
  ((headers (mask sql)).filter (·.start = position)).filterMap (·.diagnostic? sql)

theorem statementDiagnostics_eq (sql : List Char) :
    statementDiagnostics sql = (headers (mask sql)).filterMap (·.diagnostic? sql) := by
  rw [statementDiagnostics, findings_eq, List.filterMap_map]
  rfl

def HeaderMatch.tableName (parts : HeaderMatch) (sql : List Char) (position : Nat) : String :=
  String.ofList
    (unquote (slice sql (position + parts.header.nameStart) (position + parts.header.nameStop)))

inductive HeaderRole where
  | statement
  | inside
  | unbalanced
  | unterminated
  deriving DecidableEq

namespace HeaderRole

/-- A header begins a complete statement, stands inside one, or is what one report is about. -/
def Holds (sql : List Char) (position : Nat) (parts : HeaderMatch) : HeaderRole → Prop
  | statement => ∃ span ∈ statementSpans sql, span.start = position
  | inside => ∃ span ∈ statementSpans sql, span.start < position ∧ position < span.semicolon
  | unbalanced => diagnosticsAt sql position =
      [.unbalancedParentheses (parts.tableName sql position) (lineAt sql position)]
  | unterminated => diagnosticsAt sql position =
      [.unterminatedStatement (parts.tableName sql position) (lineAt sql position)]

end HeaderRole

namespace HeaderMatch.StandsAt

variable {parts : HeaderMatch} {sql rest : List Char} {position : Nat}

/-- Where a header stands, it is listed, or it stands inside a complete statement. -/
theorem listed_or_inside (stands : parts.StandsAt (mask sql) position rest) :
    parts.place position rest ∈ headers (mask sql) ∨
      HeaderRole.inside.Holds sql position parts := by
  have late : 0 + 0 ≤ (parts.place position rest).start := Nat.zero_le _
  rcases listed_of_standsIn stands.standsIn late fun front parts rest masked fits =>
    fits.isMasked masked with listed | ⟨place, listed, closing, semicolon, ending, late, early⟩
  · exact .inl listed
  · exact .inr ⟨_, mem_statementSpans.mpr ⟨place, listed,
      HeaderPlace.span?_eq_some.mpr ⟨closing, semicolon, ending, rfl⟩⟩, late, early⟩

end HeaderMatch.StandsAt

theorem start_ne_of_inside {sql : List Char} {position : Nat} {parts : HeaderMatch}
    (inside : HeaderRole.inside.Holds sql position parts) {place : HeaderPlace}
    (member : place ∈ headers (mask sql)) : place.start ≠ position := by
  rcases inside with ⟨span, spanned, late, early⟩
  rcases mem_statementSpans.mp spanned with ⟨around, listed, complete⟩
  rcases HeaderPlace.next_of_span? complete with ⟨next, start⟩
  have apart := headers_apart listed member
  omega

theorem diagnosticsAt_of_inside {sql : List Char} {position : Nat} {parts : HeaderMatch}
    (inside : HeaderRole.inside.Holds sql position parts) : diagnosticsAt sql position = [] := by
  rw [diagnosticsAt, List.filter_eq_nil_iff.mpr]
  · rfl
  · intro place member
    simpa using start_ne_of_inside inside member

theorem diagnosticsAt_of_listed {sql : List Char} {place : HeaderPlace}
    (listed : place ∈ headers (mask sql)) :
    diagnosticsAt sql place.start = (place.diagnostic? sql).toList := by
  rw [diagnosticsAt, filter_start_eq listed]
  cases found : place.diagnostic? sql <;> simp [found]

theorem statement_holds_iff {sql : List Char} {place : HeaderPlace} {parts : HeaderMatch}
    (listed : place ∈ headers (mask sql)) :
    HeaderRole.statement.Holds sql place.start parts ↔
      ∃ closing semicolon, place.ending = .complete closing semicolon := by
  constructor
  · rintro ⟨span, member, start⟩
    rcases mem_statementSpans.mp member with ⟨other, listed', complete⟩
    -- The statement that starts here is the listed header, since two are never listed at one place.
    have here := filter_start_eq listed
    have shared : other ∈ (headers (mask sql)).filter (·.start = place.start) := by
      rw [List.mem_filter]
      exact ⟨listed', by simpa using (HeaderPlace.next_of_span? complete).2.trans start⟩
    rw [here, List.mem_singleton] at shared
    rw [← shared]
    rcases HeaderPlace.span?_eq_some.mp complete with ⟨closing, semicolon, ending, _⟩
    exact ⟨closing, semicolon, ending⟩
  · rintro ⟨closing, semicolon, ending⟩
    exact ⟨_, mem_statementSpans.mpr ⟨place, listed,
      HeaderPlace.span?_eq_some.mpr ⟨closing, semicolon, ending, rfl⟩⟩, rfl⟩

/-- What becomes of a header that stands inside no complete statement is decided by what follows
it. -/
theorem holds_of_listed {sql rest : List Char} {position : Nat} {parts : HeaderMatch}
    (listed : parts.place position rest ∈ headers (mask sql)) :
    (HeaderRole.statement.Holds sql position parts ↔ Ends rest) ∧
      (HeaderRole.unbalanced.Holds sql position parts ↔ ¬ Closes rest) ∧
      (HeaderRole.unterminated.Holds sql position parts ↔ Closes rest ∧ ¬ Ends rest) := by
  have ending : (parts.place position rest).ending =
      endingOf (position + parts.header.opening + 1) rest := by
    rw [HeaderMatch.place, HeaderPlace.ofHeader, parts.drop_whole]
  have reported := diagnosticsAt_of_listed listed
  rw [HeaderPlace.diagnostic?_eq, ending] at reported
  change diagnosticsAt sql position = _ at reported
  -- Where the inside starts moves the places of an ending, not which ending it is.
  generalize position + parts.header.opening + 1 = inside at ending reported
  refine ⟨?_, ?_, ?_⟩
  · rw [← exists_complete_iff inside, ← ending]
    exact statement_holds_iff listed
  · rw [← endingOf_eq_unbalanced_iff inside, HeaderRole.Holds, reported]
    cases endingOf inside rest with
    | unbalanced => exact iff_of_true rfl rfl
    | unterminated => exact iff_of_false (by simp) (by simp)
    | complete closing semicolon => exact iff_of_false (by simp) (by simp)
  · rw [← endingOf_eq_unterminated_iff inside, HeaderRole.Holds, reported]
    cases endingOf inside rest with
    | unbalanced => exact iff_of_false (by simp) (by simp)
    | unterminated => exact iff_of_true rfl rfl
    | complete closing semicolon => exact iff_of_false (by simp) (by simp)

theorem existsUnique_role_of_inside {sql : List Char} {position : Nat} {parts : HeaderMatch}
    (inside : HeaderRole.inside.Holds sql position parts) :
    ∃! role : HeaderRole, role.Holds sql position parts := by
  have unreported := diagnosticsAt_of_inside inside
  refine ⟨.inside, inside, ?_⟩
  rintro (_ | _ | _ | _) holds
  · rcases holds with ⟨span, member, start⟩
    rcases mem_statementSpans.mp member with ⟨place, listed, complete⟩
    have same := (HeaderPlace.next_of_span? complete).2.trans start
    exact absurd same (start_ne_of_inside inside listed)
  · rfl
  · cases unreported.symm.trans holds
  · cases unreported.symm.trans holds

theorem existsUnique_role_of_listed {sql rest : List Char} {position : Nat} {parts : HeaderMatch}
    (listed : parts.place position rest ∈ headers (mask sql)) :
    ∃! role : HeaderRole, role.Holds sql position parts := by
  have outside : ¬ HeaderRole.inside.Holds sql position parts := fun inside =>
    start_ne_of_inside inside listed rfl
  rcases holds_of_listed listed with ⟨statement, unbalanced, unterminated⟩
  by_cases ends : Ends rest
  · refine ⟨.statement, statement.mpr ends, ?_⟩
    rintro (_ | _ | _ | _) holds
    · rfl
    · exact absurd holds outside
    · exact absurd ends.closes (unbalanced.mp holds)
    · exact absurd ends (unterminated.mp holds).2
  · by_cases closes : Closes rest
    · refine ⟨.unterminated, unterminated.mpr ⟨closes, ends⟩, ?_⟩
      rintro (_ | _ | _ | _) holds
      · exact absurd (statement.mp holds) ends
      · exact absurd holds outside
      · exact absurd closes (unbalanced.mp holds)
      · rfl
    · refine ⟨.unbalanced, unbalanced.mpr closes, ?_⟩
      rintro (_ | _ | _ | _) holds
      · exact absurd (statement.mp holds) ends
      · exact absurd holds outside
      · rfl
      · exact absurd (unterminated.mp holds).1 closes

namespace HeaderMatch.StandsAt

variable {parts : HeaderMatch} {sql rest : List Char} {position : Nat}

theorem existsUnique_role (stands : parts.StandsAt (mask sql) position rest) :
    ∃! role : HeaderRole, role.Holds sql position parts := by
  rcases stands.listed_or_inside with listed | inside
  · exact existsUnique_role_of_listed listed
  · exact existsUnique_role_of_inside inside

theorem reported (stands : parts.StandsAt (mask sql) position rest) :
    (HeaderRole.unbalanced.Holds sql position parts → ¬ Closes rest) ∧
      (HeaderRole.unterminated.Holds sql position parts → Closes rest ∧ ¬ Ends rest) := by
  rcases stands.listed_or_inside with listed | inside
  · exact ⟨(holds_of_listed listed).2.1.mp, (holds_of_listed listed).2.2.mp⟩
  · have unreported := diagnosticsAt_of_inside inside
    constructor
    · intro holds
      cases unreported.symm.trans holds
    · intro holds
      cases unreported.symm.trans holds

end HeaderMatch.StandsAt

/-- The statements of a script are what its mask shows of headers, nested parentheses and
semicolons, one behind the other; and every place where a header stands is one of the four things
that it can be. -/
theorem headers_accounted_for (sql : List Char) :
    statements sql = (statementSpans sql).map (·.statement sql) ∧
      (∀ span ∈ statementSpans sql, ∃ parts body blanks rest,
        IsStatementOf sql span parts body blanks rest) ∧
      (statementSpans sql).Pairwise (fun first second => first.semicolon < second.start) ∧
      statementDiagnostics sql = (headers (mask sql)).filterMap (·.diagnostic? sql) ∧
      ∀ position parts rest, HeaderMatch.StandsAt parts (mask sql) position rest →
        (∃! role : HeaderRole, role.Holds sql position parts) ∧
          (HeaderRole.unbalanced.Holds sql position parts → ¬ Closes rest) ∧
          (HeaderRole.unterminated.Holds sql position parts → Closes rest ∧ ¬ Ends rest) :=
  ⟨statements_eq_spans sql, fun _ => exists_isStatementOf, statementSpans_increasing sql,
    statementDiagnostics_eq sql, fun _ _ _ stands => ⟨stands.existsUnique_role, stands.reported⟩⟩

/-- A header that is never closed stands in front of a complete statement, which holds another
header, and of one that no semicolon ends. -/
theorem nested_headers_accounted_for :
    let sql := "create table a (create table b (create table c (x)); create table d (y)".toList
    let parts : HeaderMatch := ⟨"create table ".toList, [], "a".toList, " ".toList⟩
    parts.StandsAt (mask sql) 0 (sql.drop 16) ∧ HeaderRole.unbalanced.Holds sql 0 parts ∧
      ¬ Closes (sql.drop 16) := by
  intro sql parts
  have words : IsPhrase createPhrase
      ("create".toList ++ ([' '] ++ ("table".toList ++ ([' '] ++ [])))) :=
    .cons rfl (by decide) blank_allBlank (.cons rfl (by decide) blank_allBlank .nil)
  have stands : parts.StandsAt (mask sql) 0 (sql.drop 16) :=
    ⟨rfl, ⟨.inl words, .inl rfl, .inr (by decide), blank_allBlank⟩, by decide +kernel⟩
  have holds : HeaderRole.unbalanced.Holds sql 0 parts := by
    change diagnosticsAt sql 0 = [.unbalancedParentheses "a" 1]
    decide +kernel
  exact ⟨stands, holds, ((headers_accounted_for sql).2.2.2.2 0 parts _ stands).2.1 holds⟩

end TableSchema.Sql
