import Mathlib.Data.Bool.AllAny
import Mathlib.Data.List.TakeWhile
import TableSchema.Text.Match

/-! # What matchers read

A matcher gives what follows its match, so the text is what it has read and what it gives. Which
characters it has read is known up to letter case and the number of blanks.
-/

namespace TableSchema.Text

/-! ## Runs of characters -/

theorem takeWhile_of_stop {α : Type} {p : α → Bool} (inside after : List α)
    (all : ∀ element ∈ inside, p element = true)
    (stops : ∀ element ∈ after.head?, p element = false) :
    (inside ++ after).takeWhile p = inside ∧ (inside ++ after).dropWhile p = after := by
  rw [List.takeWhile_append_of_pos all, List.dropWhile_append_of_pos all]
  cases after with
  | nil => simp
  | cons element rest => simp [stops element rfl]

theorem stop_of_dropWhile {p : Char → Bool} {text : List Char} {character : Char}
    (first : (text.dropWhile p).head? = some character) : p character = false := by
  have stops := List.head?_dropWhile_not p text
  rw [first] at stops
  simpa using stops

theorem not_mem_of_holds {test : Char → Bool} {text : List Char} {character : Char}
    (holds : test character = true) (fails : text.any test = false) : character ∉ text :=
  fun member => List.any_eq_false.mp fails character member holds

theorem getLast?_cons_or (character : Char) (rest : List Char) (previous : Option Char) :
    (character :: rest).getLast?.or previous = rest.getLast?.or (some character) := by
  rw [List.getLast?_cons]
  cases rest.getLast? <;> rfl

theorem exists_more_of_stop {p : Char → Bool} {text tail part rest : List Char}
    (stops : ∀ character ∈ tail.head?, p character = false)
    (holds : ∀ character ∈ part, p character = true) (same : text ++ tail = part ++ rest) :
    ∃ more, text = part ++ more ∧ rest = more ++ tail := by
  rcases List.append_eq_append_iff.mp same with ⟨more, part', tail'⟩ | found
  · cases more with
    | nil => exact ⟨[], by simpa using part'.symm, tail'.symm⟩
    | cons character more =>
        rw [tail'] at stops
        rw [part'] at holds
        cases (holds character (by simp)).symm.trans (stops character rfl)
  · exact found

theorem eq_of_stop {stop : Char} {first second rest rest' : List Char} (absent : stop ∉ first)
    (absent' : stop ∉ second) (same : first ++ stop :: rest = second ++ stop :: rest') :
    first = second ∧ rest = rest' := by
  have upToStop {text : List Char} (absent : stop ∉ text) (rest : List Char) :
      (text ++ stop :: rest).takeWhile (· ≠ stop) = text := by
    refine (takeWhile_of_stop text (stop :: rest) (fun character member => ?_) (by simp)).1
    rw [decide_eq_true_eq]
    rintro rfl
    exact absent member
  have parts : first = second := by
    rw [← upToStop absent rest, same, upToStop absent' rest']
  rw [parts] at same
  exact ⟨parts, (List.cons.inj (List.append_cancel_left same)).2⟩

/-! ## Characters -/

def blankCodes : List Nat :=
  List.range' 0x09 5 ++ [0x20, 0x85, 0xA0, 0x1680] ++ List.range' 0x2000 11 ++
    [0x2028, 0x2029, 0x202F, 0x205F, 0x3000] ++ List.range' 0x1C 4

theorem isBlank_iff {character : Char} :
    isBlank character = true ↔ character.toNat ∈ blankCodes := by
  simp only [isBlank, isSpace, Bool.or_eq_true, Bool.and_eq_true, decide_eq_true_eq, beq_iff_eq,
    blankCodes, List.mem_append, List.mem_range'_1, List.mem_cons, List.not_mem_nil, or_false,
    Nat.lt_succ_iff, or_assoc]

theorem isWord_eq_false_of_isBlank {character : Char} (blank : isBlank character = true) :
    isWord character = false := by
  have apart : ∀ code ∈ blankCodes, isWord (Char.ofNat code) = false := by decide +kernel
  simpa using apart character.toNat (isBlank_iff.mp blank)

theorem isNamePart_eq_false_of_isBlank {character : Char} (blank : isBlank character = true) :
    isNamePart character = false := by
  rw [isNamePart, isWord_eq_false_of_isBlank blank, Bool.false_or, beq_eq_false_iff_ne]
  rintro rfl
  exact absurd blank (by decide)

theorem isWord_of_isAlpha {character : Char} (alpha : character.isAlpha = true) :
    isWord character = true := by
  have ascii : character.val < 0x80 := by
    rw [UInt32.lt_iff_toNat_lt]
    rcases Bool.or_eq_true_iff.mp alpha with upper | lower
    · have bound := UInt32.le_iff_toNat_le.mp (of_decide_eq_true upper).2
      exact Nat.lt_of_le_of_lt bound (by decide)
    · have ends := (Bool.and_eq_true_iff.mp lower).2
      have bound := UInt32.le_iff_toNat_le.mp (of_decide_eq_true ends)
      exact Nat.lt_of_le_of_lt bound (by decide)
  simp [isWord, ascii, Char.isAlphanum, alpha]

theorem isWord_of_fold {character letter : Char} (folds : fold character = letter)
    (lower : letter.isLower = true) : isWord character = true := by
  unfold fold at folds
  split at folds
  · rename_i same
    rw [same]
    decide
  · split at folds
    · rename_i same
      rcases same with rfl | rfl <;> decide
    · split at folds
      · rename_i same
        rw [same]
        decide +kernel
      · apply isWord_of_isAlpha
        unfold Char.toLower at folds
        split at folds
        · rename_i upper
          exact Bool.or_eq_true_iff.mpr (.inl (decide_eq_true upper))
        · rw [folds]
          exact Bool.or_eq_true_iff.mpr (.inr lower)

/-! ## Matchers -/

def AllBlank (text : List Char) : Prop := ∀ character ∈ text, isBlank character = true

instance (text : List Char) : Decidable (AllBlank text) :=
  decidable_of_iff (text.all isBlank = true) List.all_eq_true

theorem allBlank_nil : AllBlank [] := fun _ member => by cases member

theorem blank_allBlank : AllBlank [' '] := by
  intro character member
  rw [List.mem_singleton.mp member]
  decide

def Bare (text : List Char) : Prop := ∀ character ∈ text.head?, isBlank character = false

theorem bare_nil : Bare [] := fun _ member => by cases member

theorem bare_cons {character : Char} (visible : isBlank character = false) (rest : List Char) :
    Bare (character :: rest) := by
  rintro _ ⟨⟩
  exact visible

theorem trimLeft_blanks {blanks rest : List Char} (blank : AllBlank blanks) (bare : Bare rest) :
    trimLeft (blanks ++ rest) = rest :=
  (takeWhile_of_stop blanks rest blank bare).2

theorem blanksAtStart_blanks {blanks rest : List Char} (blank : AllBlank blanks)
    (bare : Bare rest) : blanksAtStart (blanks ++ rest) = blanks.length := by
  rw [blanksAtStart, (takeWhile_of_stop blanks rest blank bare).1]

theorem bare_trimLeft (text : List Char) : Bare (trimLeft text) :=
  fun _ first => stop_of_dropWhile first

theorem exists_blanks (text : List Char) :
    ∃ blanks, text = blanks ++ trimLeft text ∧ AllBlank blanks :=
  ⟨text.takeWhile isBlank, List.takeWhile_append_dropWhile.symm, fun _ => List.mem_takeWhile_imp⟩

def Trimmed (text : List Char) : Prop :=
  Bare text ∧ ∀ character ∈ text.getLast?, isBlank character = false

theorem trim_blanks {before text after : List Char} (blank : AllBlank before)
    (blank' : AllBlank after) (trimmed : Trimmed text) : trim (before ++ (text ++ after)) = text := by
  have allBlank_reverse : AllBlank after.reverse := fun character member =>
    blank' character (List.mem_reverse.mp member)
  rw [trim, trimRight]
  cases text with
  | nil =>
      have allBlank : AllBlank (before ++ after) := fun character member =>
        (List.mem_append.mp member).elim (blank character) (blank' character)
      rw [List.nil_append, ← List.append_nil (before ++ after), trimLeft_blanks allBlank bare_nil]
      rfl
  | cons first rest =>
      have bare : Bare (first :: rest ++ after) := bare_cons (trimmed.1 first rfl) _
      rw [trimLeft_blanks blank bare, List.reverse_append]
      rw [(takeWhile_of_stop _ _ allBlank_reverse fun character last => ?_).2, List.reverse_reverse]
      rw [List.head?_reverse] at last
      exact trimmed.2 character last

theorem trimmed_trim (text : List Char) : Trimmed (trim text) := by
  have last (text : List Char) : ∀ character ∈ (trimRight text).getLast?,
      isBlank character = false := by
    intro character member
    rw [trimRight, List.getLast?_reverse] at member
    exact stop_of_dropWhile member
  refine ⟨?_, last _⟩
  have whole := List.takeWhile_append_dropWhile (p := isBlank) (l := (trimLeft text).reverse)
  have front := congrArg List.reverse whole
  rw [List.reverse_append, List.reverse_reverse] at front
  intro character member
  apply bare_trimLeft text
  rw [← front, List.head?_append]
  change (trim text).head? = some character at member
  rw [trim, trimRight] at member
  rw [member]
  rfl

theorem Bare.append {text : List Char} (bare : Bare text) (nonempty : text ≠ [])
    (rest : List Char) :
    Bare (text ++ rest) := by
  cases text with
  | nil => exact absurd rfl nonempty
  | cons first others => exact bare_cons (bare first rfl) (others ++ rest)

theorem Bare.of_append {text rest : List Char} (bare : Bare (text ++ rest)) : Bare text := by
  cases text with
  | nil => exact bare_nil
  | cons => exact bare

theorem Trimmed.bare_append {text : List Char} (trimmed : Trimmed text) (nonempty : text ≠ [])
    (rest : List Char) : Bare (text ++ rest) :=
  trimmed.1.append nonempty rest

theorem exists_trim (text : List Char) :
    ∃ before after, text = before ++ (trim text ++ after) ∧ before.length = blanksAtStart text ∧
      AllBlank before ∧ AllBlank after := by
  have back := List.takeWhile_append_dropWhile (p := isBlank) (l := (trimLeft text).reverse)
  have whole := congrArg List.reverse back
  rw [List.reverse_append, List.reverse_reverse] at whole
  refine ⟨text.takeWhile isBlank, ((trimLeft text).reverse.takeWhile isBlank).reverse, ?_, rfl,
    fun _ => List.mem_takeWhile_imp,
    fun _ member => List.mem_takeWhile_imp (List.mem_reverse.mp member)⟩
  rw [trim, trimRight, whole]
  exact List.takeWhile_append_dropWhile.symm

theorem trim_eq_nil_iff {text : List Char} : trim text = [] ↔ AllBlank text := by
  constructor
  · intro nothing
    rcases exists_trim text with ⟨before, after, whole, _, blank, blank'⟩
    rw [whole, nothing, List.nil_append]
    exact List.forall_mem_append.mpr ⟨blank, blank'⟩
  · intro blank
    have trims := trim_blanks blank allBlank_nil ⟨bare_nil, by simp⟩
    simpa using trims

theorem afterBlanks?_eq_ite (text : List Char) : afterBlanks? text =
    if (text.takeWhile isBlank).isEmpty then none else some (trimLeft text) := by
  cases text with
  | nil => rfl
  | cons character rest =>
      rw [afterBlanks?, List.takeWhile_cons, trimLeft, trimLeft, List.dropWhile_cons]
      split <;> rfl

theorem afterBlanks?_eq_some {text rest : List Char} :
    afterBlanks? text = some rest ↔
      ∃ blanks, text = blanks ++ rest ∧ blanks ≠ [] ∧ AllBlank blanks ∧ Bare rest := by
  constructor
  · intro found
    cases text with
    | nil => cases found
    | cons character text =>
        rw [afterBlanks?] at found
        by_cases blank : isBlank character = true
        · rw [if_pos blank] at found
          rw [← Option.some.inj found]
          rcases exists_blanks text with ⟨blanks, whole, allBlank⟩
          refine ⟨character :: blanks, by rw [List.cons_append, ← whole], by simp, ?_,
            bare_trimLeft text⟩
          intro other member
          rcases List.mem_cons.mp member with rfl | member
          · exact blank
          · exact allBlank other member
        · rw [if_neg blank] at found
          cases found
  · rintro ⟨blanks, rfl, nonempty, blank, bare⟩
    cases blanks with
    | nil => exact absurd rfl nonempty
    | cons character blanks =>
        rw [List.cons_append, afterBlanks?, if_pos (blank character (by simp)),
          trimLeft_blanks (fun other member => blank other (by simp [member])) bare]

theorem afterChar?_eq_some {expected : Char} {text rest : List Char} :
    afterChar? expected text = some rest ↔ text = expected :: rest := by
  cases text with
  | nil => simp [afterChar?]
  | cons character text =>
      rw [afterChar?]
      by_cases same : character = expected <;> simp [same]

theorem afterKeyword?_eq_some {keyword text rest : List Char} :
    afterKeyword? keyword text = some rest ↔
      ∃ word, text = word ++ rest ∧ word.map fold = keyword := by
  fun_induction afterKeyword? keyword text with
  | case1 text =>
      constructor
      · intro found
        exact ⟨[], by simpa using found, rfl⟩
      · rintro ⟨word, rfl, none⟩
        rw [List.map_eq_nil_iff.mp none]
        rfl
  | case2 letter keyword =>
      constructor
      · intro found
        cases found
      · rintro ⟨word, nothing, read⟩
        rw [(List.append_eq_nil_iff.mp nothing.symm).1] at read
        cases read
  | case3 keyword character rest' induction =>
      rw [induction]
      constructor
      · rintro ⟨word, rfl, rfl⟩
        exact ⟨character :: word, rfl, rfl⟩
      · rintro ⟨word, equation, read⟩
        cases word with
        | nil => cases read
        | cons first word =>
            rcases List.cons.inj equation with ⟨rfl, rfl⟩
            exact ⟨word, rfl, (List.cons.inj read).2⟩
  | case4 letter keyword character rest' different =>
      constructor
      · intro found
        cases found
      · rintro ⟨word, equation, read⟩
        cases word with
        | nil => cases read
        | cons first word =>
            rcases List.cons.inj equation with ⟨rfl, rfl⟩
            exact absurd (List.cons.inj read).1 different

theorem afterPhrase?_eq_some {first second : List Char} {phrase : List (List Char)}
    {text rest : List Char} :
    afterPhrase? (first :: second :: phrase) text = some rest ↔
      ∃ word blanks more, text = word ++ (blanks ++ more) ∧ word.map fold = first ∧
        blanks ≠ [] ∧ AllBlank blanks ∧ Bare more ∧
        afterPhrase? (second :: phrase) more = some rest := by
  simp only [afterPhrase?, Option.bind_eq_bind, Option.bind_eq_some_iff, afterKeyword?_eq_some,
    afterBlanks?_eq_some]
  constructor
  · rintro ⟨_, ⟨_, ⟨word, rfl, read⟩, blanks, rfl, nonempty, blank, bare⟩, found⟩
    exact ⟨word, blanks, _, rfl, read, nonempty, blank, bare, found⟩
  · rintro ⟨word, blanks, more, rfl, read, nonempty, blank, bare, found⟩
    exact ⟨more, ⟨_, ⟨word, rfl, read⟩, blanks, rfl, nonempty, blank, bare⟩, found⟩

theorem exists_word_of_afterPhrase? {keyword : List Char} {phrase : List (List Char)}
    {text rest : List Char} (found : afterPhrase? (keyword :: phrase) text = some rest) :
    ∃ word more, text = word ++ more ∧ word.map fold = keyword := by
  cases phrase with
  | nil =>
      rcases afterKeyword?_eq_some.mp found with ⟨word, whole, read⟩
      exact ⟨word, rest, whole, read⟩
  | cons second phrase =>
      rcases afterPhrase?_eq_some.mp found with ⟨word, blanks, more, whole, read, _⟩
      exact ⟨word, blanks ++ more, whole, read⟩

theorem isBlank_eq_false_of_isWord {character : Char} (word : isWord character = true) :
    isBlank character = false := by
  rw [Bool.eq_false_iff]
  intro blank
  rw [isWord_eq_false_of_isBlank blank] at word
  cases word

theorem visible_of_fold {word keyword : List Char} (read : word.map fold = keyword)
    (lower : ∀ letter ∈ keyword, letter.isLower = true) {character : Char}
    (member : character ∈ word) : isBlank character = false := by
  apply isBlank_eq_false_of_isWord
  apply isWord_of_fold rfl
  exact lower _ (read ▸ List.mem_map_of_mem member)

/-- Blanks divide a text in one way only. -/
theorem eq_of_blanks {first second blanks blanks' rest rest' : List Char}
    (visible : ∀ character ∈ first, isBlank character = false)
    (visible' : ∀ character ∈ second, isBlank character = false)
    (blank : AllBlank blanks) (blank' : AllBlank blanks') (nonempty : blanks ≠ [])
    (nonempty' : blanks' ≠ []) (bare : Bare rest) (bare' : Bare rest')
    (same : first ++ (blanks ++ rest) = second ++ (blanks' ++ rest')) :
    first = second ∧ blanks = blanks' ∧ rest = rest' := by
  have upTo {text blanks : List Char} (rest : List Char)
      (visible : ∀ character ∈ text, isBlank character = false) (blank : AllBlank blanks)
      (nonempty : blanks ≠ []) : (text ++ (blanks ++ rest)).takeWhile (!isBlank ·) = text := by
    refine (takeWhile_of_stop text _ (fun character member => ?_) fun character next => ?_).1
    · rw [visible character member]
      rfl
    · rcases List.exists_cons_of_ne_nil nonempty with ⟨one, others, rfl⟩
      cases next
      rw [blank _ (List.mem_cons_self ..)]
      rfl
  have firsts : first = second := by
    rw [← upTo rest visible blank nonempty, same, upTo rest' visible' blank' nonempty']
  subst firsts
  have tails := List.append_cancel_left same
  have parts := takeWhile_of_stop blanks rest blank bare
  rw [tails, (takeWhile_of_stop blanks' rest' blank' bare').1,
    (takeWhile_of_stop blanks' rest' blank' bare').2] at parts
  exact ⟨rfl, parts.1.symm, parts.2.symm⟩

theorem afterPhrase?_eq_none {first second : List Char} {phrase : List (List Char)}
    {name blanks rest : List Char} {character : Char}
    (lower : ∀ letter ∈ first, letter.isLower = true)
    (different : ∀ letter ∈ second.head?, fold character ≠ letter) (more : second ≠ [])
    (visible : ∀ letter ∈ name, isBlank letter = false) (blank : AllBlank blanks)
    (nonempty : blanks ≠ []) (shown : isBlank character = false) :
    afterPhrase? (first :: second :: phrase) (name ++ (blanks ++ character :: rest)) = none := by
  rw [Option.eq_none_iff_forall_ne_some]
  intro after found
  rcases afterPhrase?_eq_some.mp found with
    ⟨word, blanks', tail, whole, read, nonempty', blank', bare, later⟩
  have parts :=
    eq_of_blanks visible (fun letter => visible_of_fold read lower) blank blank' nonempty
    nonempty' (bare_cons shown rest) bare whole
  rcases exists_word_of_afterPhrase? later with ⟨word', _, tails, read'⟩
  cases word' with
  | nil => exact more read'.symm
  | cons letter word' =>
      rw [← parts.2.2] at tails
      cases (List.cons.inj tails).1
      exact different _ (by rw [← read']; rfl) rfl

/-- A phrase takes at least as much room as its words with single blanks between them, and what has
been read ends with a letter if the phrase does. -/
theorem exists_read_of_afterPhrase? {phrase : List (List Char)} {text rest : List Char}
    (found : afterPhrase? phrase text = some rest) :
    ∃ read, text = read ++ rest ∧ (joinWords phrase).length ≤ read.length ∧
      ∀ letter, (joinWords phrase).getLast? = some letter → letter.isLower = true →
        ∃ front last, read = front ++ [last] ∧ isWord last = true := by
  fun_induction joinWords phrase generalizing text with
  | case1 =>
      refine ⟨[], ?_, by simp, by simp⟩
      simpa [afterPhrase?] using found
  | case2 keyword =>
      rcases afterKeyword?_eq_some.mp found with ⟨word, rfl, rfl⟩
      refine ⟨word, rfl, by simp, fun letter ends lower => ?_⟩
      rw [List.getLast?_map] at ends
      rcases Option.map_eq_some_iff.mp ends with ⟨last, ends, folds⟩
      rcases List.getLast?_eq_some_iff.mp ends with ⟨front, rfl⟩
      exact ⟨front, last, rfl, isWord_of_fold folds lower⟩
  | case3 keyword phrase more induction =>
      rcases List.exists_cons_of_ne_nil more with ⟨second, phrase, rfl⟩
      rcases afterPhrase?_eq_some.mp found with
        ⟨word, blanks, more, rfl, rfl, nonempty, _, _, later⟩
      rcases induction later with ⟨read, rfl, long, letters⟩
      refine ⟨word ++ (blanks ++ read), by simp, ?_, fun letter ends lower => ?_⟩
      · have := List.length_pos_iff.mpr nonempty
        simp only [List.length_append, List.length_map, List.length_cons]
        omega
      · rw [List.getLast?_append, List.getLast?_cons] at ends
        cases inner : (joinWords (second :: phrase)).getLast? with
        | none =>
            rw [inner] at ends
            cases ends
            cases lower
        | some last =>
            rw [inner] at ends
            cases ends
            rcases letters _ inner lower with ⟨front, last, rfl, isLetter⟩
            exact ⟨word ++ (blanks ++ front), last, by simp, isLetter⟩

/-! ## Joined words -/

theorem mem_of_mem_joinWords {words : List (List Char)} {character : Char}
    (member : character ∈ joinWords words) : character = ' ' ∨ ∃ word ∈ words, character ∈ word := by
  fun_induction joinWords words with
  | case1 => cases member
  | case2 word => exact .inr ⟨word, by simp, member⟩
  | case3 word rest _ induction =>
      rcases List.mem_append.mp member with member | member
      · exact .inr ⟨word, by simp, member⟩
      · rcases List.mem_cons.mp member with rfl | member
        · exact .inl rfl
        · rcases induction member with blank | ⟨other, inRest, member⟩
          · exact .inl blank
          · exact .inr ⟨other, List.mem_cons_of_mem _ inRest, member⟩

end TableSchema.Text
