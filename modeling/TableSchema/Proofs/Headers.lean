import TableSchema.Proofs.Masking
import TableSchema.Proofs.Parentheses

/-! # Headers by their places

Where the headers of a script stand, and what becomes of them, is decided on the mask alone. The
script itself is only asked for the names and bodies that stand at these places.
-/

namespace TableSchema.Sql

open Text

/-! ## Places -/

/-- What a header turns out to belong to, by the places of what ends it. -/
inductive HeaderEnding where
  | unbalanced
  | unterminated
  | complete (closing semicolon : Nat)
  deriving DecidableEq

structure HeaderPlace where
  start : Nat
  nameStart : Nat
  nameStop : Nat
  opening : Nat
  ending : HeaderEnding
  deriving DecidableEq

def endingOf (inside : Nat) (masked : List Char) : HeaderEnding :=
  match closingAt? 0 masked with
  | none => .unbalanced
  | some length =>
      let blanks := blanksAtStart (masked.drop (length + 1))
      if (masked.drop (length + 1 + blanks)).head? = some ';' then
        .complete (inside + length) (inside + length + 1 + blanks)
      else .unterminated

namespace HeaderPlace

def ofHeader (position : Nat) (header : Header) (masked : List Char) : HeaderPlace where
  start := position
  nameStart := position + header.nameStart
  nameStop := position + header.nameStop
  opening := position + header.opening
  ending := endingOf (position + header.opening + 1) (masked.drop (header.opening + 1))

def next (place : HeaderPlace) : Nat :=
  match place.ending with
  | .complete _ semicolon => semicolon + 1
  | _ => place.opening + 1

def name (sql : List Char) (place : HeaderPlace) : String :=
  String.ofList (unquote (slice sql place.nameStart place.nameStop))

def finding (sql : List Char) (place : HeaderPlace) : Finding :=
  match place.ending with
  | .unbalanced => .unbalanced (place.name sql) (lineAt sql place.start)
  | .unterminated => .unterminated (place.name sql) (lineAt sql place.start)
  | .complete closing _ =>
      .statement ⟨place.name sql, String.ofList (slice sql (place.opening + 1) closing),
        lineAt sql place.opening⟩

end HeaderPlace

def headersFrom (previous : Option Char) (position : Nat) :
    (skip : Nat) → List Char → List HeaderPlace
  | _, [] => []
  | skip + 1, character :: rest => headersFrom (some character) (position + 1) skip rest
  | 0, character :: rest =>
      match headerAt? previous (character :: rest) with
      | none => headersFrom (some character) (position + 1) 0 rest
      | some header =>
          let place := HeaderPlace.ofHeader position header (character :: rest)
          place :: headersFrom (some character) (position + 1) (place.next - position - 1) rest

def headers (masked : List Char) : List HeaderPlace := headersFrom none 0 0 masked

theorem findingOf_eq (sql : List Char) (position : Nat) (header : Header) (masked : List Char) :
    findingOf sql position header masked =
      ((HeaderPlace.ofHeader position header masked).finding sql,
        (HeaderPlace.ofHeader position header masked).next - position) := by
  unfold findingOf HeaderPlace.ofHeader HeaderPlace.finding HeaderPlace.next endingOf
    HeaderPlace.name
  simp only [List.drop_drop]
  cases closes : closingAt? 0 (masked.drop (header.opening + 1)) with
  | none =>
      simp only [Prod.mk.injEq, true_and]
      omega
  | some length =>
      simp only [← Nat.add_assoc]
      split
      · simp only [Prod.mk.injEq, Nat.add_assoc, true_and]
        omega
      · simp only [Prod.mk.injEq, true_and]
        omega

theorem HeaderPlace.position_lt_next (position : Nat) (header : Header) (masked : List Char) :
    position < (ofHeader position header masked).next := by
  unfold ofHeader next endingOf
  simp only
  split
  · rename_i equation
    split at equation
    · cases equation
    · split at equation
      · cases equation
        omega
      · cases equation
  · omega

theorem findingsFrom_eq (sql : List Char) (previous : Option Char) (position skip : Nat)
    (masked : List Char) :
    findingsFrom sql previous position skip masked =
      (headersFrom previous position skip masked).map (·.finding sql) := by
  fun_induction headersFrom previous position skip masked with
  | case1 => simp [findingsFrom]
  | case2 previous position skip character rest induction => rw [findingsFrom, induction]
  | case3 previous position character rest none induction =>
      rw [findingsFrom, none]
      exact induction
  | case4 previous position character rest header found place induction =>
      rw [findingsFrom, found]
      simp only [findingOf_eq, List.map_cons]
      rw [← induction]

theorem findings_eq (sql : List Char) :
    findings sql = (headers (mask sql)).map (·.finding sql) :=
  findingsFrom_eq sql none 0 0 (mask sql)

/-! ## Going on -/

theorem headersFrom_eq (previous : Option Char) (position skip : Nat) (masked : List Char) :
    headersFrom previous position skip masked =
      headersFrom ((masked.take skip).getLast?.or previous) (position + skip) 0
        (masked.drop skip) := by
  induction masked generalizing previous position skip with
  | nil => simp [headersFrom]
  | cons character rest induction =>
      cases skip with
      | zero => rfl
      | succ skip =>
          rw [headersFrom, induction, List.take_succ_cons, List.drop_succ_cons, List.getLast?_cons,
            Nat.add_assoc, Nat.add_comm 1]
          congr 1
          cases (rest.take skip).getLast? <;> rfl

theorem headersFrom_of_none {previous : Option Char} {character : Char} {rest : List Char}
    (none : headerAt? previous (character :: rest) = none) (position : Nat) :
    headersFrom previous position 0 (character :: rest) =
      headersFrom (some character) (position + 1) 0 rest := by
  rw [headersFrom, none]

theorem headersFrom_of_some {previous : Option Char} {character : Char} {rest : List Char}
    {header : Header} (found : headerAt? previous (character :: rest) = some header)
    (position : Nat) :
    let place := HeaderPlace.ofHeader position header (character :: rest)
    let consumed := (character :: rest).take (place.next - position)
    headersFrom previous position 0 (character :: rest) =
      place :: headersFrom (consumed.getLast?.or previous) place.next 0
        ((character :: rest).drop (place.next - position)) := by
  intro place consumed
  have later := HeaderPlace.position_lt_next position header (character :: rest)
  change position < place.next at later
  have count : place.next - position = place.next - position - 1 + 1 := by omega
  have next : position + 1 + (place.next - position - 1) = place.next := by omega
  rw [headersFrom, found]
  change place :: headersFrom (some character) (position + 1) (place.next - position - 1) rest = _
  rw [headersFrom_eq, next]
  have last : consumed.getLast? =
      some ((rest.take (place.next - position - 1)).getLast?.getD character) := by
    change ((character :: rest).take (place.next - position)).getLast? = _
    rw [count, List.take_succ_cons, List.getLast?_cons]
    rfl
  have dropped : (character :: rest).drop (place.next - position) =
      rest.drop (place.next - position - 1) := by
    rw [count, List.drop_succ_cons]
    rfl
  rw [last, dropped]
  cases (rest.take (place.next - position - 1)).getLast? <;> rfl

theorem headerAt?_eq_none {previous : Option Char} {character : Char} (other : fold character ≠ 'c')
    (rest : List Char) : headerAt? previous (character :: rest) = none := by
  rw [Option.eq_none_iff_forall_ne_some]
  intro header found
  unfold headerAt? at found
  split at found
  · cases found
  · rcases Option.bind_eq_some_iff.mp found with ⟨after, created, _⟩
    rcases Option.bind_eq_some_iff.mp created with ⟨tail, phrase, _⟩
    rcases exists_word_of_afterPhrase? phrase with ⟨word, more, whole, read⟩
    cases word with
    | nil => cases read
    | cons letter word =>
        cases (List.cons.inj whole).1
        exact other (List.cons.inj read).1

/-- A text in which no header starts is passed over. -/
theorem headersFrom_append {text : List Char} (dull : ∀ character ∈ text, fold character ≠ 'c')
    (previous : Option Char) (position : Nat) (rest : List Char) :
    headersFrom previous position 0 (text ++ rest) =
      headersFrom (text.getLast?.or previous) (position + text.length) 0 rest := by
  induction text generalizing previous position with
  | nil => rfl
  | cons character text induction =>
      have none : headerAt? previous (character :: (text ++ rest)) = none :=
        headerAt?_eq_none (dull character (List.mem_cons_self ..)) (text ++ rest)
      rw [List.cons_append, headersFrom_of_none none,
        induction fun other member => dull other (List.mem_cons_of_mem _ member),
        List.getLast?_cons, List.length_cons, Nat.add_assoc, Nat.add_comm 1]
      congr 1
      cases text.getLast? <;> rfl

/-! ## What stands at a place -/

theorem endingOf_eq_complete {inside : Nat} {body : List Char} (balanced : Balanced body)
    (rest : List Char) : endingOf inside (body ++ ')' :: ';' :: rest) =
      .complete (inside + body.length) (inside + body.length + 1) := by
  have closes : closingAt? 0 (body ++ ')' :: ';' :: rest) = some body.length :=
    closingAt?_eq_some.mpr ⟨body, _, rfl, rfl, balanced⟩
  have dropped : (body ++ ')' :: ';' :: rest).drop (body.length + 1) = ';' :: rest := by
    rw [List.drop_length_add_append]
    rfl
  have none : blanksAtStart (';' :: rest) = 0 :=
    blanksAtStart_blanks allBlank_nil (bare_cons (by decide) rest)
  unfold endingOf
  simp only [closes, dropped, none, Nat.add_zero, List.head?_cons, if_true]

theorem complete_of_endingOf {inside closing semicolon : Nat} {masked : List Char}
    (ending : endingOf inside masked = .complete closing semicolon) :
    ∃ body blanks rest, masked = body ++ ')' :: (blanks ++ ';' :: rest) ∧
      Balanced body ∧ AllBlank blanks ∧ closing = inside + body.length ∧
      semicolon = closing + 1 + blanks.length := by
  unfold endingOf at ending
  cases closes : closingAt? 0 masked with
  | none => simp [closes] at ending
  | some length =>
      rcases closingAt?_eq_some.mp closes with ⟨body, behind, rfl, rfl, balanced⟩
      have dropped (more : Nat) :
          (body ++ ')' :: behind).drop (body.length + 1 + more) = behind.drop more := by
        rw [Nat.add_assoc, List.drop_length_add_append, Nat.add_comm, List.drop_succ_cons]
      have tail := dropped 0
      rw [Nat.add_zero, List.drop_zero] at tail
      simp only [closes, dropped, tail] at ending
      rcases exists_blanks behind with ⟨blanks, separated, blank⟩
      have count : blanksAtStart behind = blanks.length := by
        rw [separated, blanksAtStart_blanks blank (bare_trimLeft behind)]
      rw [count] at ending
      split at ending
      · rename_i semicolon
        cases ending
        rw [separated, List.drop_left] at semicolon
        rcases List.head?_eq_some_iff.mp semicolon with ⟨rest, stop⟩
        exact ⟨body, blanks, rest, by rw [← stop, ← separated], balanced, blank, rfl, rfl⟩
      · cases ending

namespace HeaderPlace

def StandsIn (previous : Option Char) (position : Nat) (masked : List Char)
    (place : HeaderPlace) : Prop :=
  ∃ before after header, masked = before ++ after ∧
    headerAt? (before.getLast?.or previous) after = some header ∧
    place = ofHeader (position + before.length) header after

theorem StandsIn.cons {previous : Option Char} {position : Nat} {character : Char}
    {rest : List Char} {place : HeaderPlace}
    (stands : place.StandsIn (some character) (position + 1) rest) :
    place.StandsIn previous position (character :: rest) := by
  rcases stands with ⟨before, after, header, rfl, found, rfl⟩
  refine ⟨character :: before, after, header, rfl, ?_, ?_⟩
  · rw [List.getLast?_cons, ← found]
    cases before.getLast? <;> rfl
  · rw [List.length_cons, Nat.add_assoc, Nat.add_comm 1]

end HeaderPlace

theorem standsIn_of_mem_headersFrom {previous : Option Char} {position skip : Nat}
    {masked : List Char} {place : HeaderPlace}
    (member : place ∈ headersFrom previous position skip masked) :
    place.StandsIn previous position masked := by
  fun_induction headersFrom previous position skip masked with
  | case1 => cases member
  | case2 previous position skip character rest induction => exact (induction member).cons
  | case3 previous position character rest _ induction => exact (induction member).cons
  | case4 previous position character rest header found place' induction =>
      rcases List.mem_cons.mp member with rfl | member
      · exact ⟨[], character :: rest, header, rfl, found, rfl⟩
      · exact (induction member).cons

/-! ## The parts of a header -/

theorem afterIdentifier?_eq_some {text rest : List Char} :
    afterIdentifier? text = some rest ↔
      (∃ inside, text = '"' :: (inside ++ '"' :: rest) ∧ '"' ∉ inside) ∨
        ∃ name, text = name ++ rest ∧ isPlainName name = true ∧
          ∀ character ∈ rest.head?, isNamePart character = false := by
  have noQuote : isNameStart '"' = false := by decide
  constructor
  · intro found
    unfold afterIdentifier? at found
    split at found
    · cases found
    · rename_i tail
      left
      refine ⟨tail.takeWhile (· ≠ '"'), ?_, fun member => ?_⟩
      · rw [← afterChar?_eq_some.mp found, List.takeWhile_append_dropWhile]
      · simpa using List.mem_takeWhile_imp member
    · rename_i character tail _
      split at found
      · rename_i starts
        cases found
        right
        refine ⟨character :: tail.takeWhile isNamePart, ?_, ?_, fun _ => stop_of_dropWhile⟩
        · rw [List.cons_append, List.takeWhile_append_dropWhile]
        · simp [isPlainName, starts, List.all_takeWhile]
      · cases found
  · rintro (⟨inside, rfl, absent⟩ | ⟨name, rfl, plain, stops⟩)
    · have parts := takeWhile_of_stop (p := (· ≠ '"')) inside ('"' :: rest)
        (fun character member => by
          simp only [ne_eq, decide_not, Bool.not_eq_true', decide_eq_false_iff_not]
          exact fun same => absent (same ▸ member))
        (by simp)
      rw [afterIdentifier?, parts.2, afterChar?_eq_some]
    · cases name with
      | nil => cases plain
      | cons first name =>
          simp only [isPlainName, Bool.and_eq_true, List.all_eq_true] at plain
          rw [List.cons_append, afterIdentifier?, if_pos plain.1,
            (takeWhile_of_stop name rest plain.2 stops).2]
          rintro rfl
          simp [noQuote] at plain

theorem exists_identifier {text rest : List Char} (found : afterIdentifier? text = some rest) :
    ∃ identifier, text = identifier ++ rest := by
  rcases afterIdentifier?_eq_some.mp found with ⟨inside, rfl, _⟩ | ⟨name, rfl, _⟩
  · exact ⟨'"' :: (inside ++ ['"']), by simp⟩
  · exact ⟨name, rfl⟩

theorem isNamePart_of_isPlainName {name : List Char} (plain : isPlainName name = true)
    {character : Char} (member : character ∈ name) : isNamePart character = true := by
  cases name with
  | nil => cases plain
  | cons first rest =>
      simp only [isPlainName, Bool.and_eq_true, List.all_eq_true] at plain
      rcases List.mem_cons.mp member with rfl | member
      · have starts := plain.1
        simp only [isNameStart, Bool.and_eq_true] at starts
        simp [isNamePart, starts.1]
      · exact plain.2 character member

theorem visible_of_isPlainName {name : List Char} (plain : isPlainName name = true)
    {character : Char} (member : character ∈ name) : isBlank character = false := by
  have part := isNamePart_of_isPlainName plain member
  simp only [isNamePart, Bool.or_eq_true, beq_iff_eq] at part
  rcases part with word | rfl
  · exact isBlank_eq_false_of_isWord word
  · decide

theorem quoted_or_plain {identifier rest : List Char}
    (read : afterIdentifier? (identifier ++ rest) = some rest) :
    (∃ inside, identifier = '"' :: (inside ++ ['"']) ∧ '"' ∉ inside) ∨
      isPlainName identifier = true := by
  rcases afterIdentifier?_eq_some.mp read with ⟨inside, whole, absent⟩ | ⟨name, whole, plain, _⟩
  · left
    refine ⟨inside, ?_, absent⟩
    rw [← List.append_left_inj rest, whole]
    simp
  · right
    rwa [List.append_cancel_right whole]

structure HeaderParts where
  front : List Char
  lead : Char
  blanks : List Char
  identifier : List Char
  gap : List Char
  rest : List Char

namespace HeaderParts

def afterName (parts : HeaderParts) : List Char := parts.gap ++ '(' :: parts.rest

def text (parts : HeaderParts) : List Char :=
  parts.front ++ parts.lead :: (parts.blanks ++ (parts.identifier ++ parts.afterName))

def header (parts : HeaderParts) : Header where
  nameStart := parts.front.length + 1 + parts.blanks.length
  nameStop := parts.front.length + 1 + parts.blanks.length + parts.identifier.length
  opening := parts.front.length + 1 + parts.blanks.length + parts.identifier.length +
    parts.gap.length

def beforeName (parts : HeaderParts) : List Char := parts.front ++ parts.lead :: parts.blanks

theorem text_eq_name (parts : HeaderParts) :
    parts.text = parts.beforeName ++ (parts.identifier ++ parts.afterName) := by
  simp [text, beforeName]

theorem length_beforeName (parts : HeaderParts) :
    parts.beforeName.length = parts.header.nameStart := by
  simp only [beforeName, header, List.length_append, List.length_cons]
  omega

def beforeOpening (parts : HeaderParts) : List Char :=
  parts.front ++ parts.lead :: (parts.blanks ++ (parts.identifier ++ parts.gap))

theorem text_eq (parts : HeaderParts) : parts.text = parts.beforeOpening ++ '(' :: parts.rest := by
  simp [text, afterName, beforeOpening]

theorem length_beforeOpening (parts : HeaderParts) :
    parts.beforeOpening.length = parts.header.opening := by
  simp only [beforeOpening, header, List.length_append, List.length_cons]
  omega

theorem drop_opening (parts : HeaderParts) :
    parts.text.drop (parts.header.opening + 1) = parts.rest := by
  rw [text_eq, ← length_beforeOpening, List.drop_length_add_append]
  rfl

structure WellFormed (parts : HeaderParts) : Prop where
  lead_visible : parts.lead ∉ regionMarks
  blanks_blank : AllBlank parts.blanks
  identifier_read :
    afterIdentifier? (parts.identifier ++ parts.afterName) = some parts.afterName
  gap_blank : AllBlank parts.gap
  /-- The words that create a table take up some room. -/
  name_late : 13 ≤ parts.header.nameStart

end HeaderParts

/-- A part of a text that stands behind a visible character and blanks. -/
def Led (text rest : List Char) : Prop :=
  ∃ front lead blanks, text = front ++ lead :: (blanks ++ rest) ∧ lead ∉ regionMarks ∧
    AllBlank blanks

theorem Led.trans {text rest later : List Char} (led : Led text rest) (further : Led rest later) :
    Led text later := by
  rcases led with ⟨front, lead, blanks, rfl, _⟩
  rcases further with ⟨front', lead', blanks', rfl, visible, blank⟩
  exact ⟨front ++ lead :: (blanks ++ front'), lead', blanks', by simp, visible, blank⟩

theorem Led.length_lt {text rest : List Char} (led : Led text rest) :
    rest.length < text.length := by
  rcases led with ⟨front, lead, blanks, rfl, _⟩
  simp only [List.length_append, List.length_cons]
  omega

theorem Led.getD {text rest : List Char} {optional : Option (List Char)} (led : Led text rest)
    (further : ∀ later, optional = some later → Led rest later) :
    Led text (optional.getD rest) ∧ (optional.getD rest).length ≤ rest.length := by
  cases optional with
  | none => exact ⟨led, Nat.le_refl _⟩
  | some later => exact ⟨led.trans (further later rfl), Nat.le_of_lt (further later rfl).length_lt⟩

theorem not_mem_regionMarks_of_isWord {character : Char} (word : isWord character = true) :
    character ∉ regionMarks :=
  not_mem_of_holds word (by decide)

theorem led_of_afterPhrase? {phrase : List (List Char)} {letter : Char} {text rest : List Char}
    (ends : (joinWords phrase).getLast? = some letter) (lower : letter.isLower = true)
    (found : (afterPhrase? phrase text >>= afterBlanks?) = some rest) :
    Led text rest ∧ (joinWords phrase).length + rest.length < text.length := by
  rcases Option.bind_eq_some_iff.mp found with ⟨later, found, separated⟩
  rcases exists_read_of_afterPhrase? found with ⟨read, rfl, long, letters⟩
  rcases afterBlanks?_eq_some.mp separated with ⟨blanks, rfl, nonempty, blank, _⟩
  rcases letters letter ends lower with ⟨front, last, rfl, word⟩
  refine ⟨⟨front, last, blanks, by simp, not_mem_regionMarks_of_isWord word, blank⟩, ?_⟩
  have := List.length_pos_iff.mpr nonempty
  simp only [List.length_append] at long ⊢
  omega

theorem led_of_afterQualifier? {text rest : List Char}
    (found : afterQualifier? text = some rest) : Led text rest := by
  simp only [afterQualifier?, Option.bind_eq_bind, Option.bind_eq_some_iff, Option.map_eq_map,
    Option.map_eq_some_iff, afterChar?_eq_some] at found
  rcases found with ⟨later, identified, after, dot, rfl⟩
  rcases exists_identifier identified with ⟨identifier, rfl⟩
  rcases exists_blanks later with ⟨gap, whole, _⟩
  rcases exists_blanks after with ⟨blanks, separated, blank⟩
  refine ⟨identifier ++ gap, '.', blanks, ?_, by decide, blank⟩
  rw [← separated, ← dot, List.append_assoc, ← whole]

theorem exists_parts_of_headerAt? {previous : Option Char} {text : List Char} {header : Header}
    (found : headerAt? previous text = some header) :
    isWordAt previous = false ∧
      ∃ parts : HeaderParts, parts.WellFormed ∧ parts.text = text ∧ parts.header = header := by
  unfold headerAt? at found
  cases outside : isWordAt previous with
  | true => simp [outside] at found
  | false =>
      refine ⟨rfl, ?_⟩
      rw [outside] at found
      simp only [Bool.false_eq_true, if_false] at found
      rcases Option.bind_eq_some_iff.mp found with ⟨tail, created, found⟩
      rcases led_of_afterPhrase? rfl (by decide) created with ⟨led, late⟩
      generalize optional : (afterPhrase? ["if".toList, "not".toList, "exists".toList] tail >>=
        afterBlanks?) = existence at found
      rcases led.getD fun later equation =>
        (led_of_afterPhrase? rfl (by decide) (optional.trans equation)).1 with ⟨led, notLonger⟩
      generalize existence.getD tail = tail at found led notLonger
      rcases led.getD fun later => led_of_afterQualifier? with ⟨led, notLonger'⟩
      generalize (afterQualifier? tail).getD _ = name at found led notLonger'
      rcases Option.bind_eq_some_iff.mp found with ⟨afterName, identified, found⟩
      rcases Option.bind_eq_some_iff.mp found with ⟨rest, opens, found⟩
      have whole := afterChar?_eq_some.mp opens
      rcases exists_identifier identified with ⟨identifier, rfl⟩
      rcases exists_blanks afterName with ⟨gap, separated, gapBlank⟩
      rcases led with ⟨front, lead, blanks, rfl, visible, blank⟩
      rw [whole] at separated found
      subst separated
      have room : (joinWords ["create".toList, "table".toList]).length = 12 := rfl
      refine ⟨⟨front, lead, blanks, identifier, gap, rest⟩,
        ⟨visible, blank, identified, gapBlank, ?_⟩, rfl, ?_⟩
      · simp only [HeaderParts.header, List.length_append, List.length_cons] at late notLonger' ⊢
        omega
      · cases found
        simp only [HeaderParts.header, List.length_append, List.length_cons, Header.mk.injEq]
        omega

end TableSchema.Sql
