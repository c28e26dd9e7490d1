import Mathlib.Data.Option.Basic
import TableSchema.Proofs.Exchanges
import TableSchema.Proofs.WholeWords
import TableSchema.Text.Lines

/-! # Texts with other blanks

Where blanks stand between words, others may stand in their place: a matcher reads the same in both
texts, and what it leaves of one is what it leaves of the other with other blanks.
-/

namespace TableSchema.Text

/-! ## Runs of blanks -/

/-- One run of blanks for another. Where lines matter, both end equally many of them. -/
structure BlankRuns (lines : Prop) (first second : List Char) : Prop where
  nonempty_left : first ≠ []
  nonempty_right : second ≠ []
  blank_left : AllBlank first
  blank_right : AllBlank second
  newlines : lines → newlines first = newlines second

/-- The texts are the same but for runs of blanks. -/
abbrev Respaced (lines : Prop) : List Char → List Char → Prop := SameBut (BlankRuns lines)

variable {lines : Prop} {first second : List Char}

theorem BlankRuns.symm (runs : BlankRuns lines first second) : BlankRuns lines second first :=
  ⟨runs.nonempty_right, runs.nonempty_left, runs.blank_right, runs.blank_left,
    fun matter => (runs.newlines matter).symm⟩

theorem BlankRuns.reverse (runs : BlankRuns lines first second) :
    BlankRuns lines first.reverse second.reverse where
  nonempty_left := by simpa using runs.nonempty_left
  nonempty_right := by simpa using runs.nonempty_right
  blank_left character member := runs.blank_left character (List.mem_reverse.mp member)
  blank_right character member := runs.blank_right character (List.mem_reverse.mp member)
  newlines matter := by
    rw [Text.newlines, Text.newlines, List.count_reverse, List.count_reverse]
    exact runs.newlines matter

theorem lasting_blankRuns : Lasting (BlankRuns lines) :=
  fun _ _ runs => ⟨runs.nonempty_left, runs.nonempty_right⟩

theorem AllBlank.allPass {text : List Char} {test : Char → Bool} (blank : AllBlank text)
    (passes : ∀ character, isBlank character = true → test character = true) :
    AllPass test text :=
  fun character member => passes character (blank character member)

theorem AllBlank.stopsAt {text : List Char} {test : Char → Bool} (blank : AllBlank text)
    (nonempty : text ≠ [])
    (fails : ∀ character, isBlank character = true → test character = false) :
    StopsAt test text := by
  rcases List.exists_cons_of_ne_nil nonempty with ⟨character, rest, rfl⟩
  exact ⟨character, rest, rfl, fails character (blank character (List.mem_cons_self ..))⟩

theorem BlankRuns.stopsAt {test : Char → Bool}
    (fails : ∀ character, isBlank character = true → test character = false) (part part' : List Char)
    (runs : BlankRuns lines part part') : StopsAt test part ∧ StopsAt test part' :=
  ⟨runs.blank_left.stopsAt runs.nonempty_left fails,
    runs.blank_right.stopsAt runs.nonempty_right fails⟩

theorem blind_of_blanks {test : Char → Bool} (passed : Bool)
    (alike : ∀ character, isBlank character = true → test character = passed) :
    Blind (BlankRuns lines) test := by
  intro part part' runs
  cases passed with
  | true => exact .inl ⟨runs.blank_left.allPass alike, runs.blank_right.allPass alike⟩
  | false => exact .inr (runs.stopsAt alike)

theorem BlankRuns.not_mem {character : Char} (visible : isBlank character = false)
    (part part' : List Char) (runs : BlankRuns lines part part') : character ∉ part := by
  intro member
  rw [runs.blank_left character member] at visible
  cases visible

namespace Respaced

theorem symm (same : Respaced lines first second) : Respaced lines second first :=
  SameBut.symm (fun _ _ => BlankRuns.symm) same

theorem newlines_eq (same : Respaced lines first second) (matter : lines) :
    newlines first = newlines second :=
  same.countP_eq fun _ _ runs => runs.newlines matter

def visibleCount (text : List Char) : Nat := text.countP (!isBlank ·)

theorem visibleCount_eq (same : Respaced lines first second) :
    visibleCount first = visibleCount second := by
  have none {text : List Char} (blank : AllBlank text) : visibleCount text = 0 := by
    rw [visibleCount, List.countP_eq_zero]
    intro character member
    rw [blank character member]
    decide
  exact same.countP_eq fun _ _ runs => by
    change visibleCount _ = visibleCount _
    rw [none runs.blank_left, none runs.blank_right]

theorem nil_iff (same : Respaced lines first second) : first = [] ↔ second = [] :=
  SameBut.nil_iff lasting_blankRuns same

theorem isWordAt_head? (same : Respaced lines first second) :
    isWordAt first.head? = isWordAt second.head? := by
  have any (text : List Char) : isWordAt text.head? = text.head?.any isWord := by
    cases text <;> rfl
  rw [any, any]
  exact same.any_head?_eq (BlankRuns.stopsAt fun _ => isWord_eq_false_of_isBlank)

theorem trimLeft (same : Respaced lines first second) :
    Respaced lines (trimLeft first) (Text.trimLeft second) :=
  same.dropWhile (blind_of_blanks true fun _ => id)

theorem reverse (same : Respaced lines first second) : Respaced lines first.reverse second.reverse :=
  SameBut.reverse (fun _ _ runs => runs.reverse) same

theorem trim (same : Respaced lines first second) : Respaced lines (trim first) (Text.trim second) :=
  reverse (trimLeft (reverse (trimLeft same)))

theorem allBlank (same : Respaced lines first second) (blank : AllBlank first) :
    AllBlank second := by
  induction same with
  | nil => exact blank
  | cons element _ induction =>
      rcases List.forall_mem_cons.mp blank with ⟨here, later⟩
      exact List.forall_mem_cons.mpr ⟨here, induction later⟩
  | part exchanged _ induction =>
      exact List.forall_mem_append.mpr
        ⟨exchanged.blank_right, induction (List.forall_mem_append.mp blank).2⟩

theorem mem {character : Char} (visible : isBlank character = false)
    (same : Respaced lines first second) (member : character ∈ second) : character ∈ first := by
  rcases List.append_of_mem member with ⟨before, after, rfl⟩
  rcases same.symm.exists_of_append_cons (BlankRuns.not_mem visible) with ⟨_, _, rfl, _⟩
  simp

/-! ## Taking apart -/

theorem exists_of_visible {before after : List Char} {character : Char}
    (visible : isBlank character = false)
    (same : Respaced lines (before ++ character :: after) second) :
    ∃ before' after', second = before' ++ character :: after' ∧ Respaced lines before before' ∧
      Respaced lines after after' :=
  SameBut.exists_of_append_cons (BlankRuns.not_mem visible) same

theorem exists_of_cons {character : Char} {rest : List Char} (visible : isBlank character = false)
    (same : Respaced lines (character :: rest) second) :
    ∃ rest', second = character :: rest' ∧ Respaced lines rest rest' := by
  rcases @exists_of_visible _ _ [] _ _ visible same with ⟨before', rest', rfl, none, later⟩
  rw [nil_iff none |>.mp rfl]
  exact ⟨rest', rfl, later⟩

theorem exists_of_word {word rest : List Char}
    (visible : ∀ character ∈ word, isBlank character = false)
    (same : Respaced lines (word ++ rest) second) :
    ∃ rest', second = word ++ rest' ∧ Respaced lines rest rest' := by
  induction word generalizing second with
  | nil => exact ⟨second, rfl, same⟩
  | cons character word induction =>
      rcases List.forall_mem_cons.mp visible with ⟨here, later⟩
      rcases exists_of_cons here same with ⟨_, rfl, behind⟩
      rcases induction later behind with ⟨rest', rfl, behind'⟩
      exact ⟨rest', rfl, behind'⟩

theorem word_eq {word : List Char} (visible : ∀ character ∈ word, isBlank character = false)
    (same : Respaced lines word second) : second = word := by
  rw [← List.append_nil word] at same
  rcases exists_of_word visible same with ⟨rest, rfl, none⟩
  rw [nil_iff none |>.mp rfl, List.append_nil]

theorem exists_of_blanks {blanks rest : List Char} (blank : AllBlank blanks) (bare : Bare rest)
    (same : Respaced lines (blanks ++ rest) second) :
    ∃ blanks' rest', second = blanks' ++ rest' ∧ Respaced lines blanks blanks' ∧
      AllBlank blanks' ∧ Bare rest' ∧ Respaced lines rest rest' := by
  have parts := same.span (blind_of_blanks true fun _ => id)
  rw [(takeWhile_of_stop blanks rest blank bare).1, (takeWhile_of_stop blanks rest blank bare).2]
    at parts
  exact ⟨_, _, List.takeWhile_append_dropWhile.symm, parts.1, allBlank parts.1 blank,
    bare_trimLeft second, parts.2⟩

theorem bare (same : Respaced lines first second) (bare : Bare first) : Bare second := by
  rcases exists_of_blanks allBlank_nil bare same with ⟨blanks, rest, rfl, none, _, bare', _⟩
  rwa [nil_iff none |>.mp rfl]

/-! ## Matchers -/

theorem rel_bind {α β : Type} {relation : α → α → Prop} {relation' : β → β → Prop}
    {found found' : Option α} {next next' : α → Option β} (same : Option.Rel relation found found')
    (further : ∀ rest rest', relation rest rest' → Option.Rel relation' (next rest) (next' rest')) :
    Option.Rel relation' (found >>= next) (found' >>= next') := by
  cases same with
  | none => exact .none
  | some same => exact further _ _ same

theorem afterBlanks? (same : Respaced lines first second) :
    Option.Rel (Respaced lines) (afterBlanks? first) (Text.afterBlanks? second) := by
  cases same with
  | nil => exact .none
  | cons character later =>
      rw [Text.afterBlanks?, Text.afterBlanks?]
      split
      · exact .some (trimLeft later)
      · exact .none
  | part exchanged later =>
      rcases List.exists_cons_of_ne_nil exchanged.nonempty_left with ⟨character, blanks, rfl⟩
      rcases List.exists_cons_of_ne_nil exchanged.nonempty_right with ⟨character', blanks', rfl⟩
      rcases List.forall_mem_cons.mp exchanged.blank_left with ⟨blank, allBlank⟩
      rcases List.forall_mem_cons.mp exchanged.blank_right with ⟨blank', allBlank'⟩
      rw [List.cons_append, List.cons_append, Text.afterBlanks?, Text.afterBlanks?, if_pos blank,
        if_pos blank', Text.trimLeft, Text.trimLeft, List.dropWhile_append_of_pos allBlank,
        List.dropWhile_append_of_pos allBlank']
      exact .some (trimLeft later)

theorem afterKeyword? {keyword : List Char} (lower : ∀ letter ∈ keyword, letter.isLower = true)
    (same : Respaced lines first second) :
    Option.Rel (Respaced lines) (afterKeyword? keyword first)
      (Text.afterKeyword? keyword second) := by
  induction keyword generalizing first second with
  | nil => exact .some same
  | cons letter keyword induction =>
      rcases List.forall_mem_cons.mp lower with ⟨here, later⟩
      have none {text : List Char} (blank : AllBlank text) (nonempty : text ≠ [])
          (rest : List Char) :
          Text.afterKeyword? (letter :: keyword) (text ++ rest) = none := by
        rcases List.exists_cons_of_ne_nil nonempty with ⟨character, blanks, rfl⟩
        rw [List.cons_append, Text.afterKeyword?, if_neg]
        intro folds
        have word := isWord_of_fold folds here
        rw [isWord_eq_false_of_isBlank (blank character (List.mem_cons_self ..))] at word
        cases word
      cases same with
      | nil => exact .none
      | cons character same =>
          rw [Text.afterKeyword?, Text.afterKeyword?]
          split
          · exact induction later same
          · exact .none
      | part exchanged _ =>
          rw [none exchanged.blank_left exchanged.nonempty_left,
            none exchanged.blank_right exchanged.nonempty_right]
          exact .none

theorem afterPhrase? {phrase : List (List Char)}
    (lower : ∀ keyword ∈ phrase, ∀ letter ∈ keyword, letter.isLower = true)
    (same : Respaced lines first second) :
    Option.Rel (Respaced lines) (afterPhrase? phrase first) (Text.afterPhrase? phrase second) := by
  induction phrase generalizing first second with
  | nil => exact .some same
  | cons keyword phrase induction =>
      rcases List.forall_mem_cons.mp lower with ⟨here, later⟩
      cases phrase with
      | nil => exact afterKeyword? here same
      | cons next phrase =>
          rw [Text.afterPhrase?, Text.afterPhrase?]
          · exact rel_bind (rel_bind (afterKeyword? here same) fun _ _ => afterBlanks?)
              fun _ _ => induction later
          · simp
          · simp

theorem wholeWordsAt_eq {phrase : List (List Char)}
    (lower : ∀ keyword ∈ phrase, ∀ letter ∈ keyword, letter.isLower = true)
    {previous previous' : Option Char} (behind : isWordAt previous = isWordAt previous')
    (same : Respaced lines first second) :
    wholeWordsAt phrase previous first = wholeWordsAt phrase previous' second := by
  have found := afterPhrase? lower same
  rw [wholeWordsAt, wholeWordsAt, behind]
  generalize Text.afterPhrase? phrase first = rest at found ⊢
  generalize Text.afterPhrase? phrase second = rest' at found ⊢
  cases found with
  | none => rfl
  | some same => simp only [isWordAt_head? same]

end Respaced

/-! ## Searching -/

theorem findPlace?_dull {here : Option Char → List Char → Bool} (starts : StartsWords here)
    {text : List Char} (dull : ∀ character ∈ text, isWord character = false)
    (previous : Option Char) (rest : List Char) :
    findPlace? here previous (text ++ rest) =
      (findPlace? here (text.getLast?.or previous) rest).map (· + text.length) := by
  induction text generalizing previous with
  | nil => simp
  | cons character text induction =>
      rcases List.forall_mem_cons.mp dull with ⟨outside, later⟩
      rw [List.cons_append, findPlace?_gap starts outside, induction later, Option.map_map,
        getLast?_cons_or]
      rfl

theorem isWordAt_getLast?_or {text : List Char} (dull : ∀ character ∈ text, isWord character = false)
    (nonempty : text ≠ []) (previous : Option Char) :
    isWordAt (text.getLast?.or previous) = false := by
  rw [List.getLast?_eq_some_getLast nonempty]
  exact dull _ (List.getLast_mem nonempty)

theorem SameBut.rel_take_append {α : Type} {exchange : List α → List α → Prop}
    {passed passed' rest rest' : List α} (same : SameBut exchange passed passed')
    {found found' : Option Nat}
    (later : Option.Rel (fun place place' => SameBut exchange (rest.take place) (rest'.take place'))
      found found') :
    Option.Rel (fun place place' => SameBut exchange ((passed ++ rest).take place)
        ((passed' ++ rest').take place'))
      (found.map (· + passed.length)) (found'.map (· + passed'.length)) := by
  cases later with
  | none => exact .none
  | @some place place' later =>
      have whole := same.append later
      rw [← List.take_length_add_append, ← List.take_length_add_append, Nat.add_comm,
        Nat.add_comm passed'.length] at whole
      exact .some whole

/-- Where a test that starts words cannot tell two lists apart, it holds first in both at the same
place, and nothing but exchanges has been passed over on the way. -/
theorem rel_findPlace? {α : Type} {exchange : List α → List α → Prop} {see : α → Char}
    {here : Option Char → List Char → Bool} (starts : StartsWords here)
    (alike : ∀ previous previous' rest rest', isWordAt previous = isWordAt previous' →
      SameBut exchange rest rest' → here previous (rest.map see) = here previous' (rest'.map see))
    (lasting : Lasting exchange)
    (dull : ∀ part part', exchange part part' → (∀ element ∈ part, isWord (see element) = false) ∧
      ∀ element ∈ part', isWord (see element) = false)
    {first second : List α} (same : SameBut exchange first second) {previous previous' : Option Char}
    (behind : isWordAt previous = isWordAt previous') :
    Option.Rel (fun place place' => SameBut exchange (first.take place) (second.take place'))
      (findPlace? here previous (first.map see)) (findPlace? here previous' (second.map see)) := by
  induction same generalizing previous previous' with
  | nil => exact .none
  | @cons element rest rest' later induction =>
      have agree := alike previous previous' _ _ behind (.cons element later)
      rw [List.map_cons, List.map_cons, findPlace?, findPlace?, ← List.map_cons, ← List.map_cons,
        agree]
      split
      · exact .some .nil
      · exact (SameBut.refl [element]).rel_take_append (induction rfl)
  | @part part part' rest rest' exchanged later induction =>
      have dull_map {part : List α} (dull : ∀ element ∈ part, isWord (see element) = false) :
          ∀ character ∈ part.map see, isWord character = false := by
        intro character member
        rcases List.mem_map.mp member with ⟨element, listed, rfl⟩
        exact dull element listed
      have none := dull_map (dull _ _ exchanged).1
      have none' := dull_map (dull _ _ exchanged).2
      rw [List.map_append, List.map_append, findPlace?_dull starts none,
        findPlace?_dull starts none', List.length_map, List.length_map]
      refine (SameBut.single exchanged).rel_take_append (induction ?_)
      rw [isWordAt_getLast?_or none (by simpa using (lasting _ _ exchanged).1),
        isWordAt_getLast?_or none' (by simpa using (lasting _ _ exchanged).2)]

theorem BlankRuns.dull (part part' : List Char) (runs : BlankRuns lines part part') :
    (∀ character ∈ part, isWord character = false) ∧
      ∀ character ∈ part', isWord character = false :=
  ⟨fun character member => isWord_eq_false_of_isBlank (runs.blank_left character member),
    fun character member => isWord_eq_false_of_isBlank (runs.blank_right character member)⟩

def AreKeywords (phrase : List (List Char)) : Prop :=
  ∀ word ∈ phrase, word ≠ [] ∧ ∀ letter ∈ word, letter.isLower = true

instance (phrase : List (List Char)) : Decidable (AreKeywords phrase) :=
  decidable_of_iff ((phrase.all fun word => !word.isEmpty && word.all Char.isLower) = true)
    (by simp [AreKeywords])

theorem AreKeywords.startsWords {keyword : List Char} {phrase : List (List Char)}
    (keywords : AreKeywords (keyword :: phrase)) : StartsWords (wholeWordsAt (keyword :: phrase)) :=
  startsWords_wholeWordsAt (keywords keyword (List.mem_cons_self ..)).1
    (keywords keyword (List.mem_cons_self ..)).2 phrase

namespace Respaced

theorem rel_findPlace? {keyword : List Char} {phrase : List (List Char)}
    (keywords : AreKeywords (keyword :: phrase)) (same : Respaced lines first second) :
    Option.Rel (fun place place' => Respaced lines (first.take place) (second.take place'))
      (findPlace? (wholeWordsAt (keyword :: phrase)) none first)
      (findPlace? (wholeWordsAt (keyword :: phrase)) none second) := by
  have found := @Text.rel_findPlace? _ (BlankRuns lines) id _ keywords.startsWords
    (fun _ _ _ _ behind same => by
      simpa using wholeWordsAt_eq (fun word listed => (keywords word listed).2) behind same)
    lasting_blankRuns BlankRuns.dull _ _ same none none rfl
  rwa [List.map_id, List.map_id] at found

theorem occurs_eq {keyword : List Char} {phrase : List (List Char)}
    (keywords : AreKeywords (keyword :: phrase)) (same : Respaced lines first second) :
    occurs (wholeWordsAt (keyword :: phrase)) first =
      occurs (wholeWordsAt (keyword :: phrase)) second := by
  have found := rel_findPlace? keywords same
  rw [occurs, occurs]
  generalize findPlace? (wholeWordsAt (keyword :: phrase)) none first = place at found ⊢
  generalize findPlace? (wholeWordsAt (keyword :: phrase)) none second = place' at found ⊢
  cases found <;> rfl

end Respaced

/-! ## Words -/

theorem wordsFrom_blanks {blanks : List Char} (blank : AllBlank blanks) (nonempty : blanks ≠ [])
    (word rest : List Char) :
    wordsFrom word (blanks ++ rest) = (if word.isEmpty then [] else [word]) ++ words rest := by
  have none {blanks : List Char} (blank : AllBlank blanks) :
      wordsFrom [] (blanks ++ rest) = words rest := by
    induction blanks with
    | nil => rfl
    | cons character blanks induction =>
        rcases List.forall_mem_cons.mp blank with ⟨here, later⟩
        rw [List.cons_append, wordsFrom, if_pos here]
        exact induction later
  rcases List.exists_cons_of_ne_nil nonempty with ⟨character, blanks, rfl⟩
  rcases List.forall_mem_cons.mp blank with ⟨here, later⟩
  rw [List.cons_append, wordsFrom, if_pos here, none later]
  split <;> rfl

/-- The same words stand between other blanks. -/
theorem Respaced.words_eq (same : Respaced lines first second) : words first = words second := by
  suffices ∀ word, wordsFrom word first = wordsFrom word second from this []
  induction same with
  | nil => exact fun _ => rfl
  | cons character _ induction =>
      intro word
      rw [wordsFrom, wordsFrom, induction, induction]
  | part exchanged _ induction =>
      intro word
      rw [wordsFrom_blanks exchanged.blank_left exchanged.nonempty_left,
        wordsFrom_blanks exchanged.blank_right exchanged.nonempty_right, words, words, induction]

end TableSchema.Text
