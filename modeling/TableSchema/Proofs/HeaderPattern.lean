import TableSchema.Proofs.Headers

/-! # The header pattern

What a header looks like, said by the parts of its text and not by how they are found. A header is
read wherever the pattern fits, and in one way only.
-/

namespace TableSchema.Sql

open Text

/-! ## Phrases -/

inductive IsPhrase : List (List Char) → List Char → Prop
  | nil : IsPhrase [] []
  | cons {keyword word blanks rest : List Char} {phrase : List (List Char)}
      (read : word.map fold = keyword) (nonempty : blanks ≠ []) (blank : AllBlank blanks)
      (later : IsPhrase phrase rest) : IsPhrase (keyword :: phrase) (word ++ (blanks ++ rest))

def afterWords? (phrase : List (List Char)) (text : List Char) : Option (List Char) :=
  afterPhrase? phrase text >>= afterBlanks?

theorem afterWords?_singleton {keyword text rest : List Char} :
    afterWords? [keyword] text = some rest ↔
      ∃ word blanks, text = word ++ (blanks ++ rest) ∧ word.map fold = keyword ∧ blanks ≠ [] ∧
        AllBlank blanks ∧ Bare rest := by
  simp only [afterWords?, afterPhrase?, Option.bind_eq_bind, Option.bind_eq_some_iff,
    afterKeyword?_eq_some, afterBlanks?_eq_some]
  constructor
  · rintro ⟨_, ⟨word, rfl, read⟩, blanks, rfl, nonempty, blank, bare⟩
    exact ⟨word, blanks, rfl, read, nonempty, blank, bare⟩
  · rintro ⟨word, blanks, rfl, read, nonempty, blank, bare⟩
    exact ⟨_, ⟨word, rfl, read⟩, blanks, rfl, nonempty, blank, bare⟩

theorem afterWords?_cons {keyword second : List Char} {phrase : List (List Char)}
    {text rest : List Char} :
    afterWords? (keyword :: second :: phrase) text = some rest ↔
      ∃ word blanks more, text = word ++ (blanks ++ more) ∧ word.map fold = keyword ∧
        blanks ≠ [] ∧ AllBlank blanks ∧ Bare more ∧
        afterWords? (second :: phrase) more = some rest := by
  simp only [afterWords?, Option.bind_eq_bind, Option.bind_eq_some_iff, afterPhrase?_eq_some]
  constructor
  · rintro ⟨_, ⟨word, blanks, more, rfl, read, nonempty, blank, bare, later⟩, separated⟩
    exact ⟨word, blanks, more, rfl, read, nonempty, blank, bare, _, later, separated⟩
  · rintro ⟨word, blanks, more, rfl, read, nonempty, blank, bare, _, later, separated⟩
    exact ⟨_, ⟨word, blanks, more, rfl, read, nonempty, blank, bare, later⟩, separated⟩

theorem IsPhrase.bare {keyword text : List Char} {phrase : List (List Char)}
    (isPhrase : IsPhrase (keyword :: phrase) text) (nonempty : keyword ≠ [])
    (lower : ∀ letter ∈ keyword, letter.isLower = true) (rest : List Char) :
    Bare (text ++ rest) := by
  cases isPhrase with
  | @cons _ word blanks later _ read =>
      cases word with
      | nil => exact absurd read.symm nonempty
      | cons first word =>
          exact bare_cons (visible_of_fold read lower (List.mem_cons_self ..)) _

theorem afterWords?_eq_some {keyword : List Char} {phrase : List (List Char)}
    (words : ∀ word ∈ phrase, word ≠ [] ∧ ∀ letter ∈ word, letter.isLower = true)
    {text rest : List Char} :
    afterWords? (keyword :: phrase) text = some rest ↔
      ∃ front, text = front ++ rest ∧ IsPhrase (keyword :: phrase) front ∧ Bare rest := by
  induction phrase generalizing keyword text with
  | nil =>
      rw [afterWords?_singleton]
      constructor
      · rintro ⟨word, blanks, rfl, read, nonempty, blank, bare⟩
        exact ⟨word ++ (blanks ++ []), by simp, .cons read nonempty blank .nil, bare⟩
      · rintro ⟨_, rfl, isPhrase, bare⟩
        cases isPhrase with
        | @cons _ word blanks later _ read nonempty blank nothing =>
            cases nothing
            exact ⟨word, blanks, by simp, read, nonempty, blank, bare⟩
  | cons second phrase induction =>
      rcases List.forall_mem_cons.mp words with ⟨⟨shown, lower⟩, later⟩
      rw [afterWords?_cons]
      constructor
      · rintro ⟨word, blanks, _, rfl, read, nonempty, blank, _, found⟩
        rcases (induction later).mp found with ⟨front, rfl, isPhrase, bare⟩
        exact ⟨word ++ (blanks ++ front), by simp, .cons read nonempty blank isPhrase, bare⟩
      · rintro ⟨_, rfl, isPhrase, bare⟩
        cases isPhrase with
        | @cons _ word blanks front _ read nonempty blank isPhrase =>
            refine ⟨word, blanks, front ++ rest, by simp, read, nonempty, blank,
              isPhrase.bare shown lower rest, (induction later).mpr ⟨front, rfl, isPhrase, bare⟩⟩

/-! ## Identifiers -/

def IsIdentifier (text : List Char) : Prop :=
  (∃ inside, text = '"' :: (inside ++ ['"']) ∧ '"' ∉ inside) ∨ isPlainName text = true

theorem IsIdentifier.bare {identifier : List Char} (isIdentifier : IsIdentifier identifier)
    (rest : List Char) : Bare (identifier ++ rest) := by
  rcases isIdentifier with ⟨inside, rfl, _⟩ | plain
  · exact bare_cons (by decide) _
  · cases identifier with
    | nil => cases plain
    | cons first name => exact bare_cons (visible_of_isPlainName plain (List.mem_cons_self ..)) _

theorem IsIdentifier.of_afterIdentifier? {text rest : List Char}
    (found : afterIdentifier? text = some rest) :
    ∃ identifier, text = identifier ++ rest ∧ IsIdentifier identifier := by
  rcases afterIdentifier?_eq_some.mp found with ⟨inside, rfl, absent⟩ | ⟨name, rfl, plain, _⟩
  · exact ⟨'"' :: (inside ++ ['"']), by simp, .inl ⟨inside, rfl, absent⟩⟩
  · exact ⟨name, rfl, .inr plain⟩

/-- A character that neither goes on with a name nor is blank. -/
def IsMark (character : Char) : Prop := isNamePart character = false ∧ isBlank character = false

instance (character : Char) : Decidable (IsMark character) := inferInstanceAs (Decidable (_ ∧ _))

theorem IsMark.stops {mark : Char} (isMark : IsMark mark) {gap : List Char}
    (blank : AllBlank gap) (rest : List Char) :
    ∀ character ∈ (gap ++ mark :: rest).head?, isNamePart character = false := by
  cases gap with
  | nil =>
      rintro _ ⟨⟩
      exact isMark.1
  | cons first gap =>
      rintro _ ⟨⟩
      exact isNamePart_eq_false_of_isBlank (blank first (List.mem_cons_self ..))

theorem IsIdentifier.afterIdentifier? {identifier : List Char}
    (isIdentifier : IsIdentifier identifier) {mark : Char} (isMark : IsMark mark)
    {gap : List Char} (blank : AllBlank gap) (rest : List Char) :
    Sql.afterIdentifier? (identifier ++ (gap ++ mark :: rest)) = some (gap ++ mark :: rest) := by
  rw [afterIdentifier?_eq_some]
  rcases isIdentifier with ⟨inside, rfl, absent⟩ | plain
  · exact .inl ⟨inside, by simp, absent⟩
  · exact .inr ⟨identifier, rfl, plain, isMark.stops blank rest⟩

theorem afterPhrase?_of_mark {first second name gap : List Char} {phrase : List (List Char)}
    (lower : ∀ letter ∈ first, letter.isLower = true) (nonempty : second ≠ [])
    (parts : ∀ character ∈ name, isNamePart character = true) (blank : AllBlank gap) {mark : Char}
    (isMark : IsMark mark) (differs : ∀ letter ∈ second.head?, fold mark ≠ letter)
    (rest : List Char) :
    afterPhrase? (first :: second :: phrase) (name ++ (gap ++ mark :: rest)) = none := by
  rw [Option.eq_none_iff_forall_ne_some]
  intro after found
  rcases afterPhrase?_eq_some.mp found with
    ⟨word, blanks, more, whole, read, spaced, blank', bare, later⟩
  -- The first word is the whole of the name, so the second one starts at the mark.
  have word_parts : ∀ character ∈ word, isNamePart character = true := by
    intro character member
    rw [isNamePart, isWord_of_fold rfl (lower _ (read ▸ List.mem_map_of_mem member)), Bool.true_or]
  have stops : ∀ character ∈ (blanks ++ more).head?, isNamePart character = false := by
    rcases List.exists_cons_of_ne_nil spaced with ⟨space, others, rfl⟩
    rintro _ ⟨⟩
    exact isNamePart_eq_false_of_isBlank (blank' space (List.mem_cons_self ..))
  have behind : gap ++ mark :: rest = blanks ++ more := by
    rw [← (takeWhile_of_stop name _ parts (isMark.stops blank rest)).2, whole,
      (takeWhile_of_stop word _ word_parts stops).2]
  have next : mark :: rest = more := by
    rw [← trimLeft_blanks blank (bare_cons isMark.2 rest), behind, trimLeft_blanks blank' bare]
  rcases exists_word_of_afterPhrase? later with ⟨word', tail, same, read'⟩
  cases word' with
  | nil => exact nonempty read'.symm
  | cons letter word' =>
      rw [← next] at same
      cases (List.cons.inj same).1
      exact differs _ (by rw [← read']; rfl) rfl

theorem IsIdentifier.afterPhrase?_eq_none {identifier first second gap : List Char}
    {phrase : List (List Char)} (isIdentifier : IsIdentifier identifier)
    (lower : ∀ letter ∈ first, letter.isLower = true) (nonempty : first ≠ []) (more : second ≠ [])
    (blank : AllBlank gap) {mark : Char} (isMark : IsMark mark)
    (differs : ∀ letter ∈ second.head?, fold mark ≠ letter) (rest : List Char) :
    afterPhrase? (first :: second :: phrase) (identifier ++ (gap ++ mark :: rest)) = none := by
  rcases isIdentifier with ⟨inside, rfl, _⟩ | plain
  · rw [Option.eq_none_iff_forall_ne_some]
    intro after found
    rcases exists_word_of_afterPhrase? found with ⟨word, tail, whole, read⟩
    cases word with
    | nil => exact nonempty read.symm
    | cons letter word =>
        cases (List.cons.inj whole).1
        have quote_lower := lower (fold '"') (by rw [← read]; exact List.mem_cons_self ..)
        exact absurd quote_lower (by decide)
  · exact afterPhrase?_of_mark lower more (fun character => isNamePart_of_isPlainName plain) blank
      isMark differs rest

/-! ## Headers -/

structure HeaderMatch where
  /-- The words that create a table, with the blanks behind them. -/
  words : List Char
  /-- The schema with its dot and the blanks behind it, if there is one. -/
  qualifier : List Char
  name : List Char
  gap : List Char
  deriving DecidableEq

def createPhrase : List (List Char) := ["create".toList, "table".toList]

def existencePhrase : List (List Char) := ["if".toList, "not".toList, "exists".toList]

def IsQualifier (text : List Char) : Prop :=
  ∃ owner gap blanks, text = owner ++ (gap ++ '.' :: blanks) ∧ IsIdentifier owner ∧
    AllBlank gap ∧ AllBlank blanks

namespace HeaderMatch

def text (parts : HeaderMatch) (rest : List Char) : List Char :=
  parts.words ++ (parts.qualifier ++ (parts.name ++ (parts.gap ++ '(' :: rest)))

def header (parts : HeaderMatch) : Header where
  nameStart := parts.words.length + parts.qualifier.length
  nameStop := parts.words.length + parts.qualifier.length + parts.name.length
  opening := parts.words.length + parts.qualifier.length + parts.name.length + parts.gap.length

structure Fits (parts : HeaderMatch) : Prop where
  words : IsPhrase createPhrase parts.words ∨ IsPhrase (createPhrase ++ existencePhrase) parts.words
  qualifier : parts.qualifier = [] ∨ IsQualifier parts.qualifier
  name : IsIdentifier parts.name
  gap : AllBlank parts.gap

end HeaderMatch

theorem isMark_dot : IsMark '.' := by decide

theorem isMark_opening : IsMark '(' := by decide

theorem afterQualifier?_eq_some {text rest : List Char} :
    afterQualifier? text = some rest ↔
      ∃ qualifier, text = qualifier ++ rest ∧ IsQualifier qualifier ∧ Bare rest := by
  simp only [afterQualifier?, Option.bind_eq_bind, Option.bind_eq_some_iff, Option.map_eq_map,
    Option.map_eq_some_iff, afterChar?_eq_some]
  constructor
  · rintro ⟨later, identified, after, dot, rfl⟩
    rcases IsIdentifier.of_afterIdentifier? identified with ⟨owner, rfl, isIdentifier⟩
    rcases exists_blanks later with ⟨gap, whole, blank⟩
    rcases exists_blanks after with ⟨blanks, separated, blank'⟩
    refine ⟨owner ++ (gap ++ '.' :: blanks), ?_, ⟨owner, gap, blanks, rfl, isIdentifier, blank,
      blank'⟩, bare_trimLeft after⟩
    rw [List.append_assoc, List.append_assoc, List.cons_append, ← separated, ← dot, ← whole]
  · rintro ⟨_, rfl, ⟨owner, gap, blanks, rfl, isIdentifier, blank, blank'⟩, bare⟩
    rw [List.append_assoc, List.append_assoc, List.cons_append]
    refine ⟨_, isIdentifier.afterIdentifier? isMark_dot blank _, blanks ++ rest, ?_,
      trimLeft_blanks blank' bare⟩
    exact trimLeft_blanks blank (bare_cons (by decide) _)

theorem IsIdentifier.afterQualifier?_eq_none {identifier gap : List Char}
    (isIdentifier : IsIdentifier identifier) (blank : AllBlank gap) (rest : List Char) :
    afterQualifier? (identifier ++ (gap ++ '(' :: rest)) = none := by
  have next : trimLeft (gap ++ '(' :: rest) = '(' :: rest :=
    trimLeft_blanks blank (bare_cons (by decide) rest)
  rw [afterQualifier?, isIdentifier.afterIdentifier? isMark_opening blank]
  change (trimLeft <$> afterChar? '.' (trimLeft (gap ++ '(' :: rest))) = none
  rw [next]
  rfl

theorem IsPhrase.append {first second : List (List Char)} {text text' : List Char}
    (isPhrase : IsPhrase first text) (isPhrase' : IsPhrase second text') :
    IsPhrase (first ++ second) (text ++ text') := by
  induction isPhrase with
  | nil => exact isPhrase'
  | cons read nonempty blank _ induction =>
      rw [List.append_assoc, List.append_assoc]
      exact .cons read nonempty blank induction

theorem IsPhrase.exists_append {first second : List (List Char)} {text : List Char}
    (isPhrase : IsPhrase (first ++ second) text) :
    ∃ front back, text = front ++ back ∧ IsPhrase first front ∧ IsPhrase second back := by
  induction first generalizing text with
  | nil => exact ⟨[], text, rfl, .nil, isPhrase⟩
  | cons keyword first induction =>
      cases isPhrase with
      | @cons _ word blanks _ _ read nonempty blank later =>
          rcases induction later with ⟨front, back, rfl, isPhrase, isPhrase'⟩
          exact ⟨word ++ (blanks ++ front), back, by simp, .cons read nonempty blank isPhrase,
            isPhrase'⟩

theorem words_phrase : ∀ word ∈ createPhrase ++ existencePhrase,
    word ≠ [] ∧ ∀ letter ∈ word, letter.isLower = true := by
  have checked : (createPhrase ++ existencePhrase).all
      (fun word => !word.isEmpty && word.all Char.isLower) = true := by decide
  intro word member
  simpa using List.all_eq_true.mp checked word member

theorem words_createPhrase : ∀ word ∈ createPhrase,
    word ≠ [] ∧ ∀ letter ∈ word, letter.isLower = true :=
  (List.forall_mem_append.mp words_phrase).1

theorem words_existencePhrase : ∀ word ∈ existencePhrase,
    word ≠ [] ∧ ∀ letter ∈ word, letter.isLower = true :=
  (List.forall_mem_append.mp words_phrase).2

theorem IsPhrase.isWord_of_visible {phrase : List (List Char)} {text : List Char}
    (isPhrase : IsPhrase phrase text)
    (words : ∀ keyword ∈ phrase, keyword ≠ [] ∧ ∀ letter ∈ keyword, letter.isLower = true)
    {character : Char} (member : character ∈ text) (visible : isBlank character = false) :
    isWord character = true := by
  induction isPhrase with
  | nil => cases member
  | @cons keyword word blanks rest phrase read _ blank _ induction =>
      rcases List.forall_mem_cons.mp words with ⟨here, later⟩
      rcases List.mem_append.mp member with member | member
      · exact isWord_of_fold rfl (here.2 _ (read ▸ List.mem_map_of_mem member))
      · rcases List.mem_append.mp member with hidden | member
        · rw [blank character hidden] at visible
          cases visible
        · exact induction later member

namespace HeaderMatch

variable {parts : HeaderMatch}

theorem Fits.isWord_of_visible (fits : parts.Fits) {character : Char}
    (member : character ∈ parts.words) (visible : isBlank character = false) :
    isWord character = true := by
  rcases fits.words with words | words
  · exact words.isWord_of_visible words_createPhrase member visible
  · exact words.isWord_of_visible words_phrase member visible

/-- What stands behind the words of a header starts with an identifier, behind which stands a dot or
the parenthesis. -/
theorem Fits.exists_identifier (fits : parts.Fits) (rest : List Char) :
    ∃ identifier gap mark more, IsIdentifier identifier ∧ AllBlank gap ∧
      (mark = '.' ∨ mark = '(') ∧
      parts.qualifier ++ (parts.name ++ (parts.gap ++ '(' :: rest)) =
        identifier ++ (gap ++ mark :: more) := by
  rcases fits.qualifier with none | ⟨owner, gap, blanks, same, isIdentifier, blank, _⟩
  · exact ⟨parts.name, parts.gap, '(', rest, fits.name, fits.gap, .inr rfl, by rw [none]; rfl⟩
  · exact ⟨owner, gap, '.', blanks ++ (parts.name ++ (parts.gap ++ '(' :: rest)), isIdentifier,
      blank, .inl rfl, by rw [same]; simp⟩

theorem Fits.afterQualifier?_getD (fits : parts.Fits) (rest : List Char) :
    (afterQualifier? (parts.qualifier ++ (parts.name ++ (parts.gap ++ '(' :: rest)))).getD
        (parts.qualifier ++ (parts.name ++ (parts.gap ++ '(' :: rest))) =
      parts.name ++ (parts.gap ++ '(' :: rest) := by
  rcases fits.qualifier with none | qualifier
  · rw [none, List.nil_append, fits.name.afterQualifier?_eq_none fits.gap]
    rfl
  · rw [afterQualifier?_eq_some.mpr ⟨_, rfl, qualifier, fits.name.bare _⟩]
    rfl

theorem Fits.afterWords?_getD (fits : parts.Fits) (rest : List Char) :
    ∃ tail, afterWords? createPhrase (parts.text rest) = some tail ∧
      (afterWords? existencePhrase tail).getD tail =
        parts.qualifier ++ (parts.name ++ (parts.gap ++ '(' :: rest)) := by
  rcases fits.exists_identifier rest with
    ⟨identifier, gap, mark, more, isIdentifier, blank, marks, same⟩
  have bare : Bare (parts.qualifier ++ (parts.name ++ (parts.gap ++ '(' :: rest))) := by
    rw [same]
    exact isIdentifier.bare _
  have create := (List.forall_mem_cons.mp words_createPhrase).2
  rcases fits.words with words | words
  · refine ⟨_, (afterWords?_eq_some create).mpr ⟨_, rfl, words, bare⟩, ?_⟩
    -- A table may be called "if", but then no "not" follows, as behind a name stands a mark.
    have isMark : IsMark mark := by rcases marks with rfl | rfl <;> decide
    have differs : ∀ letter ∈ "not".toList.head?, fold mark ≠ letter := by
      rintro _ ⟨⟩
      rcases marks with rfl | rfl <;> decide
    have existence := (List.forall_mem_cons.mp words_existencePhrase).1
    have none :
        afterWords? existencePhrase (identifier ++ (gap ++ mark :: more)) = Option.none := by
      rw [afterWords?, existencePhrase, isIdentifier.afterPhrase?_eq_none existence.2 existence.1
        (by decide) blank isMark differs]
      rfl
    rw [same, none]
    rfl
  · rcases words.exists_append with ⟨front, back, split, isPhrase, isPhrase'⟩
    have existence := List.forall_mem_cons.mp words_existencePhrase
    refine ⟨back ++ (parts.qualifier ++ (parts.name ++ (parts.gap ++ '(' :: rest))),
      (afterWords?_eq_some create).mpr ⟨front, by rw [text, split, List.append_assoc], isPhrase,
        isPhrase'.bare existence.1.1 existence.1.2 _⟩, ?_⟩
    have found : afterWords? existencePhrase (back ++ _) = some _ :=
      (afterWords?_eq_some existence.2).mpr ⟨back, rfl, isPhrase', bare⟩
    rw [found]
    rfl

end HeaderMatch

theorem isPhrase_of_afterWords? {text tail : List Char}
    (found : afterWords? createPhrase text = some tail) :
    ∃ words, text = words ++ (afterWords? existencePhrase tail).getD tail ∧
      (IsPhrase createPhrase words ∨ IsPhrase (createPhrase ++ existencePhrase) words) := by
  rcases (afterWords?_eq_some (List.forall_mem_cons.mp words_createPhrase).2).mp found with
    ⟨front, rfl, isPhrase, _⟩
  cases existence : afterWords? existencePhrase tail with
  | none => exact ⟨front, rfl, .inl isPhrase⟩
  | some later =>
      rcases (afterWords?_eq_some (List.forall_mem_cons.mp words_existencePhrase).2).mp
        existence with ⟨back, rfl, isPhrase', _⟩
      exact ⟨front ++ back, by simp, .inr (isPhrase.append isPhrase')⟩

theorem exists_qualifier (text : List Char) :
    ∃ qualifier, text = qualifier ++ (afterQualifier? text).getD text ∧
      (qualifier = [] ∨ IsQualifier qualifier) := by
  cases found : afterQualifier? text with
  | none => exact ⟨[], rfl, .inl rfl⟩
  | some later =>
      rcases afterQualifier?_eq_some.mp found with ⟨qualifier, rfl, isQualifier, _⟩
      exact ⟨qualifier, rfl, .inr isQualifier⟩

theorem headerAt?_eq_bind {previous : Option Char} (outside : isWordAt previous = false)
    (text : List Char) :
    headerAt? previous text = (afterWords? createPhrase text).bind fun tail =>
      let whole := (afterWords? existencePhrase tail).getD tail
      let name := (afterQualifier? whole).getD whole
      (afterIdentifier? name).bind fun afterName =>
        (afterChar? '(' (trimLeft afterName)).bind fun _ =>
          some ⟨text.length - name.length, text.length - afterName.length,
            text.length - (trimLeft afterName).length⟩ := by
  rw [headerAt?, outside]
  rfl

/-- A header is read exactly where a text fits the pattern, with the offsets of its parts. -/
theorem headerAt?_eq_some_iff {previous : Option Char} {text : List Char} {header : Header} :
    headerAt? previous text = some header ↔
      isWordAt previous = false ∧
        ∃ parts rest, HeaderMatch.Fits parts ∧ text = parts.text rest ∧ header = parts.header := by
  cases outside : isWordAt previous with
  | true => simp [headerAt?, outside]
  | false =>
      rw [headerAt?_eq_bind outside]
      simp only [true_and]
      constructor
      · intro found
        rcases Option.bind_eq_some_iff.mp found with ⟨tail, created, found⟩
        rcases isPhrase_of_afterWords? created with ⟨words, rfl, phrase⟩
        -- From here on only what each optional part leaves matters, not whether it was there.
        generalize (afterWords? existencePhrase tail).getD tail = whole at found ⊢
        rcases exists_qualifier whole with ⟨qualifier, same, qualified⟩
        generalize (afterQualifier? whole).getD whole = name at found same
        subst same
        clear created
        rcases Option.bind_eq_some_iff.mp found with ⟨afterName, identified, found⟩
        rcases Option.bind_eq_some_iff.mp found with ⟨rest, opens, found⟩
        rcases IsIdentifier.of_afterIdentifier? identified with ⟨identifier, rfl, isIdentifier⟩
        rcases exists_blanks afterName with ⟨gap, separated, blank⟩
        rw [afterChar?_eq_some.mp opens] at separated found
        subst separated
        refine ⟨⟨words, qualifier, identifier, gap⟩, rest, ⟨phrase, qualified, isIdentifier, blank⟩,
          rfl, ?_⟩
        cases found
        simp only [HeaderMatch.header, List.length_append, List.length_cons, Header.mk.injEq]
        omega
      · rintro ⟨parts, rest, fits, rfl, rfl⟩
        rcases fits.afterWords?_getD rest with ⟨tail, created, whole⟩
        have identified := fits.name.afterIdentifier? isMark_opening fits.gap rest
        have opens : trimLeft (parts.gap ++ '(' :: rest) = '(' :: rest :=
          trimLeft_blanks fits.gap (bare_cons (by decide) rest)
        simp only [created, Option.bind_some, whole, fits.afterQualifier?_getD, identified, opens,
          afterChar?_eq_some.mpr rfl]
        simp only [HeaderMatch.text, HeaderMatch.header, List.length_append, List.length_cons,
          Option.some.injEq, Header.mk.injEq]
        omega

end TableSchema.Sql
