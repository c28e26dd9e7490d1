import TableSchema.Proofs.HeaderPattern
import TableSchema.Proofs.StrippedScripts

/-! # No header inside another

A second header could only start inside a name. A plain name is followed by a dot or a parenthesis
and not by the word that a header goes on with, and of a quoted one the mask shows nothing. So the
search that goes on behind a header misses none, and the places it lists are in order.
-/

namespace TableSchema.Sql

open Text

/-! ## Texts in which no header starts -/

def Headerless (text rest : List Char) : Prop :=
  ∀ before after, text = before ++ after → after ≠ [] →
    ∀ previous, headerAt? previous (after ++ rest) = none

/-- No character of the text could be the first one of a header. -/
def Dull (text : List Char) : Prop := ∀ character ∈ text, fold character ≠ 'c'

theorem Dull.cons {character : Char} {rest : List Char} (other : fold character ≠ 'c')
    (dull : Dull rest) : Dull (character :: rest) :=
  List.forall_mem_cons.mpr ⟨other, dull⟩

theorem Dull.append {first second : List Char} (dull : Dull first) (dull' : Dull second) :
    Dull (first ++ second) := by
  intro character member
  rcases List.mem_append.mp member with member | member
  · exact dull character member
  · exact dull' character member

theorem dull_of_blank {text : List Char} (blank : AllBlank text) : Dull text := by
  intro character member read
  have word := isWord_of_fold read (by decide)
  rw [isWord_eq_false_of_isBlank (blank character member)] at word
  cases word

theorem dull_of_regionMarks {text : List Char}
    (marked : ∀ character ∈ text, character ∈ regionMarks) : Dull text := by
  have apart : ∀ mark ∈ regionMarks, fold mark ≠ 'c' := List.all_iff_forall_prop.mp (by decide)
  exact fun character member => apart character (marked character member)

theorem Dull.headerless {text : List Char} (dull : Dull text) (rest : List Char) :
    Headerless text rest := by
  rintro before after rfl nonempty previous
  rcases List.exists_cons_of_ne_nil nonempty with ⟨character, after, rfl⟩
  exact headerAt?_eq_none (dull character (by simp)) (after ++ rest)

theorem Headerless.append {first second rest : List Char}
    (headerless : Headerless first (second ++ rest)) (headerless' : Headerless second rest) :
    Headerless (first ++ second) rest := by
  intro before after split nonempty previous
  rcases List.append_eq_append_iff.mp split with ⟨more, rfl, rfl⟩ | ⟨more, rfl, rfl⟩
  · exact headerless' more after rfl nonempty previous
  · rw [List.append_assoc]
    by_cases nothing : more = []
    · subst nothing
      exact headerless' [] second rfl nonempty previous
    · exact headerless before more rfl nothing previous

theorem headerAt?_of_afterWords? {text : List Char} (none : afterWords? createPhrase text = none)
    (previous : Option Char) : headerAt? previous text = Option.none := by
  cases outside : isWordAt previous with
  | true => rw [headerAt?, if_pos outside]
  | false =>
      rw [headerAt?_eq_bind outside, none]
      rfl

theorem headerless_of_plain {name gap : List Char}
    (parts : ∀ character ∈ name, isNamePart character = true) (blank : AllBlank gap) {mark : Char}
    (isMark : IsMark mark) (differs : fold mark ≠ 't') (rest : List Char) :
    Headerless name (gap ++ mark :: rest) := by
  rintro before after rfl _ previous
  have none : afterPhrase? createPhrase (after ++ (gap ++ mark :: rest)) = none :=
    afterPhrase?_of_mark (List.forall_mem_cons.mp words_createPhrase).1.2 (by decide)
      (fun character member => parts character (List.mem_append_right _ member)) blank isMark
      (by rintro _ ⟨⟩; exact differs) rest
  exact headerAt?_of_afterWords? (by rw [afterWords?, none]; rfl) previous

/-! ## Headers in which no other one starts -/

/-- A name as a mask shows it: a plain one, or nothing but delimiters and blanks. -/
def IsMasked (identifier : List Char) : Prop :=
  isPlainName identifier = true ∨ ∀ character ∈ identifier, character ∈ regionMarks

theorem IsMasked.headerless {identifier gap : List Char} (masked : IsMasked identifier)
    (blank : AllBlank gap) {mark : Char} (isMark : IsMark mark) (differs : fold mark ≠ 't')
    (rest : List Char) : Headerless identifier (gap ++ mark :: rest) := by
  rcases masked with plain | marked
  · exact headerless_of_plain (fun _ => isNamePart_of_isPlainName plain) blank isMark differs rest
  · exact (dull_of_regionMarks marked).headerless _

namespace HeaderMatch

structure Masked (parts : HeaderMatch) : Prop where
  qualifier : parts.qualifier = [] ∨ ∃ owner gap blanks,
    parts.qualifier = owner ++ (gap ++ '.' :: blanks) ∧ IsMasked owner ∧ AllBlank gap ∧
      AllBlank blanks
  name : IsMasked parts.name

end HeaderMatch

theorem IsPhrase.dull {phrase : List (List Char)} {text : List Char}
    (isPhrase : IsPhrase phrase text) (absent : ∀ keyword ∈ phrase, 'c' ∉ keyword) :
    Dull text := by
  induction isPhrase with
  | nil => exact fun _ member => by cases member
  | @cons keyword word blanks rest phrase read _ blank _ induction =>
      rcases List.forall_mem_cons.mp absent with ⟨here, later⟩
      refine Dull.append (fun character member same => here ?_)
        ((dull_of_blank blank).append (induction later))
      rw [← read, ← same]
      exact List.mem_map_of_mem member

theorem exists_words {words : List Char}
    (phrase : IsPhrase createPhrase words ∨ IsPhrase (createPhrase ++ existencePhrase) words) :
    ∃ first later, words = first :: later ∧ Dull later := by
  have divided {phrase : List (List Char)} (isPhrase : IsPhrase ("create".toList :: phrase) words)
      (absent : ∀ keyword ∈ phrase, 'c' ∉ keyword) :
      ∃ first later, words = first :: later ∧ Dull later := by
    cases isPhrase with
    | @cons _ word blanks rest _ read nonempty blank isPhrase =>
        cases word with
        | nil => cases read
        | cons first word =>
            refine ⟨first, word ++ (blanks ++ rest), rfl, Dull.append ?_
              ((dull_of_blank blank).append (isPhrase.dull absent))⟩
            intro character member same
            have tail : word.map fold = "reate".toList := (List.cons.inj read).2
            have letter : fold character ∈ "reate".toList := tail ▸ List.mem_map_of_mem member
            rw [same] at letter
            exact absurd letter (by decide)
  rcases phrase with phrase | phrase
  · exact divided phrase (by decide)
  · exact divided phrase (by decide)

namespace HeaderMatch

variable {parts : HeaderMatch}

def whole (parts : HeaderMatch) : List Char :=
  parts.words ++ (parts.qualifier ++ (parts.name ++ (parts.gap ++ ['('])))

theorem text_eq_whole (parts : HeaderMatch) (rest : List Char) :
    parts.text rest = parts.whole ++ rest := by
  simp [text, whole]

theorem length_whole (parts : HeaderMatch) : parts.whole.length = parts.header.opening + 1 := by
  simp only [whole, header, List.length_append, List.length_singleton]
  omega

theorem headerless_names (masked : parts.Masked) (fits : parts.Fits) (rest : List Char) :
    Headerless (parts.qualifier ++ (parts.name ++ (parts.gap ++ ['(']))) rest := by
  have closing : Headerless (parts.gap ++ ['(']) rest :=
    Dull.headerless ((dull_of_blank fits.gap).append
      (.cons (by decide) (dull_of_blank allBlank_nil))) rest
  have name : Headerless parts.name (parts.gap ++ ['('] ++ rest) := by
    rw [List.append_assoc]
    exact masked.name.headerless fits.gap isMark_opening (by decide) rest
  have names : Headerless (parts.name ++ (parts.gap ++ ['('])) rest := name.append closing
  rcases masked.qualifier with none | ⟨owner, gap, blanks, same, isMasked, blank, blank'⟩
  · rwa [none]
  · rw [same, List.append_assoc]
    have dot : Headerless (gap ++ '.' :: blanks) (parts.name ++ (parts.gap ++ ['(']) ++ rest) :=
      Dull.headerless ((dull_of_blank blank).append
        (.cons (by decide) (dull_of_blank blank'))) _
    have qualifier := isMasked.headerless blank isMark_dot (by decide)
      (blanks ++ (parts.name ++ (parts.gap ++ ['(']) ++ rest))
    refine Headerless.append ?_ (dot.append names)
    simpa using qualifier

theorem drop_whole (parts : HeaderMatch) (rest : List Char) :
    (parts.text rest).drop (parts.header.opening + 1) = rest := by
  rw [text_eq_whole, ← length_whole, List.drop_left]

/-- Behind its first character no header starts in a header. -/
theorem headerAt?_inside (masked : parts.Masked) (fits : parts.Fits)
    {rest before after : List Char} (split : parts.text rest = before ++ after)
    (nonempty : before ≠ []) (short : before.length ≤ parts.header.opening)
    (previous : Option Char) :
    headerAt? previous after = none := by
  rcases exists_words fits.words with ⟨first, later, words, dull⟩
  have headerless := (dull.headerless _).append (headerless_names masked fits rest)
  have whole : parts.whole =
      first :: (later ++ (parts.qualifier ++ (parts.name ++ (parts.gap ++ ['('])))) := by
    rw [HeaderMatch.whole, words]
    rfl
  rw [text_eq_whole] at split
  rcases List.append_eq_append_iff.mp split with ⟨more, long, rfl⟩ | ⟨more, long, rfl⟩
  · have size := congrArg List.length long
    rw [List.length_append, length_whole] at size
    omega
  · rcases List.exists_cons_of_ne_nil nonempty with ⟨character, before, rfl⟩
    rw [whole] at long
    have later := (List.cons.inj long).2
    refine headerless before more later (fun nothing => ?_) previous
    have size := congrArg List.length long
    rw [← whole, length_whole, nothing, List.append_nil] at size
    omega

end HeaderMatch

/-! ## Headers in a mask -/

theorem mem_regionMarks_of_quoted {sql front text inside more : List Char}
    (masked : mask sql = front ++ text) (led : Led text ('"' :: (inside ++ '"' :: more)))
    (absent : '"' ∉ inside) (nonempty : more ≠ []) {character : Char}
    (member : character ∈ inside) :
    character ∈ regionMarks := by
  rcases led with ⟨front', lead, blanks, rfl, visible, blank⟩
  rw [← List.append_assoc] at masked
  rcases exists_code_of_maskOf (reads_segments sql) masked visible (.inl (by simp)) with
    ⟨first, second, cut, _, shown⟩
  have reads := reads_segments sql
  rw [cut] at reads
  -- Behind a visible character the segments are cut, so the quoted token is a region of its own.
  have reads := (reads_append.mp reads).2.2
  rcases exists_literal reads blank absent nonempty shown with
    ⟨before, kind, literal, rest, rfl, isLiteral, long, size⟩
  rw [maskOf_append, maskOf_cons] at shown
  have fronts := List.append_inj shown (by rw [length_maskOf, long])
  have tokens : (Segment.region kind literal).masked ++ maskOf rest =
      ('"' :: (inside ++ ['"'])) ++ more := by
    rw [fronts.2]
    simp
  have parts := List.append_inj tokens (by
    rw [Segment.length_masked, Segment.text_region, size]
    simp)
  have behind : textOf rest ++ [] ≠ [] := by
    intro nothing
    apply nonempty
    rw [List.append_nil] at nothing
    rw [← parts.2, maskOf_eq_nil_iff, nothing]
  apply mem_regionMarks_of_closed ((reads_append.mp reads).2.1.closed behind)
  rw [parts.1]
  simp [member]

theorem isMasked_of_mask {sql front text identifier more : List Char}
    (masked : mask sql = front ++ text) (isIdentifier : IsIdentifier identifier)
    (led : Led text (identifier ++ more)) (nonempty : more ≠ []) : IsMasked identifier := by
  rcases isIdentifier with ⟨inside, rfl, absent⟩ | plain
  · right
    have token : '"' :: (inside ++ ['"']) ++ more = '"' :: (inside ++ '"' :: more) := by simp
    rw [token] at led
    rw [List.forall_mem_cons, List.forall_mem_append, List.forall_mem_singleton]
    exact ⟨by decide, fun _ => mem_regionMarks_of_quoted masked led absent nonempty, by decide⟩
  · exact .inl plain

namespace HeaderMatch

variable {parts : HeaderMatch}

theorem Fits.led_words (fits : parts.Fits) (rest : List Char) :
    Led (parts.text rest) (parts.qualifier ++ (parts.name ++ (parts.gap ++ '(' :: rest))) := by
  have bare : Bare (parts.qualifier ++ (parts.name ++ (parts.gap ++ '(' :: rest))) := by
    rcases fits.exists_identifier rest with ⟨identifier, gap, mark, more, isIdentifier, _, _, same⟩
    rw [same]
    exact isIdentifier.bare _
  have create := (List.forall_mem_cons.mp words_createPhrase).2
  have whole := (List.forall_mem_cons.mp words_phrase).2
  rcases fits.words with words | words
  · exact (led_of_afterPhrase? rfl (by decide)
      ((afterWords?_eq_some create).mpr ⟨_, rfl, words, bare⟩)).1
  · exact (led_of_afterPhrase? rfl (by decide)
      ((afterWords?_eq_some whole).mpr ⟨_, rfl, words, bare⟩)).1

theorem Fits.isMasked {sql front rest : List Char} (fits : parts.Fits)
    (masked : mask sql = front ++ parts.text rest) : parts.Masked := by
  have led := fits.led_words rest
  rcases fits.qualifier with none | ⟨owner, gap, blanks, same, isIdentifier, blank, blank'⟩
  · have name : Led (parts.text rest) (parts.name ++ (parts.gap ++ '(' :: rest)) := by
      rwa [none] at led
    exact ⟨.inl none, isMasked_of_mask masked fits.name name (by simp)⟩
  · rw [same, List.append_assoc, List.append_assoc, List.cons_append] at led
    have name : Led (parts.text rest) (parts.name ++ (parts.gap ++ '(' :: rest)) :=
      led.trans ⟨owner ++ gap, '.', blanks, by simp, by decide, blank'⟩
    exact ⟨.inr ⟨owner, gap, blanks, same, isMasked_of_mask masked isIdentifier led (by simp),
      blank, blank'⟩, isMasked_of_mask masked fits.name name (by simp)⟩

end HeaderMatch

/-! ## Places -/

theorem endingOf_eq_ite {inside : Nat} {body blanks : List Char} {character : Char}
    (balanced : Balanced body) (blank : AllBlank blanks) (visible : isBlank character = false)
    (rest : List Char) : endingOf inside (body ++ ')' :: (blanks ++ character :: rest)) =
      if character = ';' then
        .complete (inside + body.length) (inside + body.length + 1 + blanks.length)
      else .unterminated := by
  have closes : closingAt? 0 (body ++ ')' :: (blanks ++ character :: rest)) = some body.length :=
    closingAt?_eq_some.mpr ⟨body, _, rfl, rfl, balanced⟩
  have dropped (more : Nat) : (body ++ ')' :: (blanks ++ character :: rest)).drop
      (body.length + 1 + more) = (blanks ++ character :: rest).drop more := by
    rw [Nat.add_assoc, List.drop_length_add_append, Nat.add_comm, List.drop_succ_cons]
  have behind := dropped 0
  rw [Nat.add_zero, List.drop_zero] at behind
  have count : blanksAtStart (blanks ++ character :: rest) = blanks.length :=
    blanksAtStart_blanks blank (bare_cons visible rest)
  unfold endingOf
  simp only [closes, behind, count, dropped, List.drop_left, List.head?_cons, Option.some.injEq]

theorem le_start_of_mem_headersFrom {previous : Option Char} {position skip : Nat}
    {masked : List Char} {place : HeaderPlace}
    (member : place ∈ headersFrom previous position skip masked) :
    position + skip ≤ place.start := by
  fun_induction headersFrom previous position skip masked with
  | case1 => cases member
  | case2 previous position skip character rest induction
  | case3 previous position character rest _ induction =>
      have later := induction member
      omega
  | case4 previous position character rest header found place' induction =>
      rcases List.mem_cons.mp member with rfl | member
      · exact Nat.le_refl _
      · have later := induction member
        omega

theorem pairwise_headersFrom (previous : Option Char) (position skip : Nat)
    (masked : List Char) : (headersFrom previous position skip masked).Pairwise
      fun first second => first.start < first.next ∧ first.next ≤ second.start := by
  fun_induction headersFrom previous position skip masked with
  | case1 => exact .nil
  | case2 previous position skip character rest induction => exact induction
  | case3 previous position character rest _ induction => exact induction
  | case4 previous position character rest header found place induction =>
      refine .cons (fun later member => ?_) induction
      have behind := le_start_of_mem_headersFrom member
      have onwards : position < place.next := HeaderPlace.position_lt_next position header _
      exact ⟨onwards, by omega⟩

namespace HeaderMatch

variable {parts : HeaderMatch} {rest : List Char}

theorem rest_of_complete {position closing semicolon : Nat}
    (ending : (HeaderPlace.ofHeader position parts.header (parts.text rest)).ending =
      .complete closing semicolon) :
    ∃ body blanks tail, rest = body ++ ')' :: (blanks ++ ';' :: tail) ∧ Balanced body ∧
      AllBlank blanks ∧ closing = position + parts.header.opening + 1 + body.length ∧
      semicolon = closing + 1 + blanks.length := by
  simp only [HeaderPlace.ofHeader, parts.drop_whole] at ending
  exact complete_of_endingOf ending

end HeaderMatch

/-- Between a header and where the search goes on, a header only stands inside a complete
statement. -/
theorem exists_semicolon_of_headerAt? {previous previous' : Option Char} {position : Nat}
    {masked before after : List Char} {header header' : Header}
    (found : headerAt? previous masked = some header) (split : masked = before ++ after)
    (found' : headerAt? previous' after = some header') (nonempty : before ≠ [])
    (early : position + before.length < (HeaderPlace.ofHeader position header masked).next)
    (shown : ∀ parts rest, masked = HeaderMatch.text parts rest → parts.Fits → parts.Masked) :
    ∃ closing semicolon,
      (HeaderPlace.ofHeader position header masked).ending = .complete closing semicolon ∧
        position + before.length < semicolon := by
  rcases headerAt?_eq_some_iff.mp found with ⟨_, parts, rest, fits, rfl, rfl⟩
  have late : parts.header.opening < before.length := by
    rw [← Nat.not_le]
    intro short
    have none := HeaderMatch.headerAt?_inside (shown parts rest rfl fits) fits split nonempty short
      previous'
    rw [none] at found'
    cases found'
  simp only [HeaderPlace.next] at early
  cases ending : (HeaderPlace.ofHeader position parts.header (parts.text rest)).ending with
  | unbalanced | unterminated =>
      rw [ending] at early
      simp only [HeaderPlace.ofHeader] at early
      omega
  | complete closing semicolon =>
      refine ⟨closing, semicolon, rfl, ?_⟩
      rw [ending] at early
      simp only at early
      refine Nat.lt_of_le_of_ne (by omega) fun same => ?_
      rcases HeaderMatch.rest_of_complete ending with
        ⟨body, blanks, tail, rfl, _, _, closes, ends⟩
      -- The header would start with the semicolon.
      have whole : before ++ after =
          (parts.whole ++ (body ++ ')' :: blanks)) ++ ';' :: tail := by
        rw [← split, parts.text_eq_whole]
        simp
      have size : before.length = (parts.whole ++ (body ++ ')' :: blanks)).length := by
        simp only [List.length_append, List.length_cons, parts.length_whole]
        omega
      rw [(List.append_inj whole size).2, headerAt?_eq_none (by decide)] at found'
      cases found'

namespace HeaderPlace

variable {previous : Option Char} {position : Nat} {site : HeaderPlace}

theorem not_standsIn_nil : ¬ site.StandsIn previous position [] := by
  rintro ⟨before, after, header, split, found, rfl⟩
  rcases headerAt?_eq_some_iff.mp found with ⟨_, parts, rest, _, rfl, _⟩
  have size := congrArg List.length split
  simp only [HeaderMatch.text_eq_whole, List.length_append, HeaderMatch.length_whole,
    List.length_nil] at size
  omega

theorem le_start_of_standsIn {masked : List Char}
    (stands : site.StandsIn previous position masked) : position ≤ site.start := by
  rcases stands with ⟨before, after, header, rfl, found, rfl⟩
  exact Nat.le_add_right _ _

theorem standsIn_cons_iff {character : Char} {rest : List Char} :
    site.StandsIn previous position (character :: rest) ↔
      (∃ header, headerAt? previous (character :: rest) = some header ∧
        site = ofHeader position header (character :: rest)) ∨
      site.StandsIn (some character) (position + 1) rest := by
  constructor
  · rintro ⟨before, after, header, split, found, rfl⟩
    cases before with
    | nil =>
        subst split
        exact .inl ⟨header, found, rfl⟩
    | cons first before =>
        rcases List.cons.inj split with ⟨rfl, rfl⟩
        refine .inr ⟨before, after, header, rfl, ?_, ?_⟩
        · rw [← found, getLast?_cons_or]
        · rw [List.length_cons, Nat.add_assoc, Nat.add_comm 1]
  · rintro (⟨header, found, rfl⟩ | stands)
    · exact ⟨[], character :: rest, header, rfl, found, rfl⟩
    · exact stands.cons

end HeaderPlace

theorem listed_of_standsIn {previous : Option Char} {position skip : Nat} {masked : List Char}
    {site : HeaderPlace} (stands : site.StandsIn previous position masked)
    (late : position + skip ≤ site.start)
    (shown : ∀ front parts rest, masked = front ++ HeaderMatch.text parts rest → parts.Fits →
      parts.Masked) :
    site ∈ headersFrom previous position skip masked ∨
      ∃ place ∈ headersFrom previous position skip masked, ∃ closing semicolon,
        place.ending = .complete closing semicolon ∧ place.start < site.start ∧
          site.start < semicolon := by
  fun_induction headersFrom previous position skip masked with
  | case1 => exact absurd stands HeaderPlace.not_standsIn_nil
  | case2 previous position skip character rest induction =>
      rcases HeaderPlace.standsIn_cons_iff.mp stands with ⟨header, _, rfl⟩ | stands
      · simp only [HeaderPlace.ofHeader] at late
        omega
      · exact induction stands (by omega) fun front parts rest whole =>
          shown (character :: front) parts rest (by rw [whole]; rfl)
  | case3 previous position character rest none induction =>
      rcases HeaderPlace.standsIn_cons_iff.mp stands with ⟨header, found, rfl⟩ | stands
      · rw [none] at found
        cases found
      · exact induction stands (HeaderPlace.le_start_of_standsIn stands)
          fun front parts rest whole => shown (character :: front) parts rest (by rw [whole]; rfl)
  | case4 previous position character rest header found place induction =>
      rcases HeaderPlace.standsIn_cons_iff.mp stands with ⟨header', found', rfl⟩ | behind
      · cases found.symm.trans found'
        exact .inl (List.mem_cons_self ..)
      · have onwards := HeaderPlace.le_start_of_standsIn behind
        -- What the search passes over is the header itself, or a statement up to its semicolon.
        by_cases early : site.start < place.next
        · rcases behind with ⟨before, after, header', rfl, found', rfl⟩
          have split : character :: (before ++ after) = (character :: before) ++ after := rfl
          have early : position + (character :: before).length < place.next := by
            simpa [HeaderPlace.ofHeader, Nat.add_assoc, Nat.add_comm 1] using early
          rcases exists_semicolon_of_headerAt? found split found' (by simp) early
            (fun parts rest whole => shown [] parts rest whole) with
            ⟨closing, semicolon, ending, inside⟩
          refine .inr ⟨place, List.mem_cons_self .., closing, semicolon, ending, ?_, ?_⟩
          · exact onwards
          · simp only [HeaderPlace.ofHeader, List.length_cons] at inside ⊢
            omega
        · rcases induction behind (by omega) fun front parts rest whole =>
            shown (character :: front) parts rest (by rw [whole]; rfl) with
            listed | ⟨place', listed, inside⟩
          · exact .inl (List.mem_cons_of_mem _ listed)
          · exact .inr ⟨place', List.mem_cons_of_mem _ listed, inside⟩

end TableSchema.Sql
