import TableSchema.Proofs.Matching
import TableSchema.Sql.Column

/-! # Phrases that a text says

What a search for whole words finds is a phrase by the parts of its text, wherever it stands. Blanks
around the text say nothing.
-/

namespace TableSchema.Text

/-! ## Searches -/

theorem findPlace?_isSome_iff {here : Option Char → List Char → Bool} {previous : Option Char}
    {text : List Char} :
    (findPlace? here previous text).isSome = true ↔
      ∃ before after, text = before ++ after ∧ after ≠ [] ∧
        here (before.getLast?.or previous) after = true := by
  induction text generalizing previous with
  | nil =>
      constructor
      · intro found
        cases found
      · rintro ⟨before, after, whole, nonempty, _⟩
        exact absurd (List.append_eq_nil_iff.mp whole.symm).2 nonempty
  | cons character rest induction =>
      rw [findPlace?]
      split
      · rename_i holds
        exact iff_of_true rfl ⟨[], character :: rest, rfl, by simp, holds⟩
      · rename_i fails
        rw [Option.isSome_map, induction]
        constructor
        · rintro ⟨before, after, rfl, nonempty, holds⟩
          exact ⟨character :: before, after, rfl, nonempty, by rwa [getLast?_cons_or]⟩
        · rintro ⟨before, after, whole, nonempty, holds⟩
          cases before with
          | nil =>
              rw [List.nil_append] at whole
              subst whole
              exact absurd holds fails
          | cons first before =>
              rcases List.cons.inj whole with ⟨rfl, rfl⟩
              exact ⟨before, after, rfl, nonempty, by rwa [← getLast?_cons_or]⟩

theorem occurs_iff {here : Option Char → List Char → Bool} {text : List Char} :
    occurs here text = true ↔
      ∃ before after, text = before ++ after ∧ after ≠ [] ∧ here before.getLast? after = true := by
  simp only [occurs, findPlace?_isSome_iff, Option.or_none]

/-! ## Two words -/

def IsWordPair (first second text : List Char) : Prop :=
  ∃ word blanks word', text = word ++ (blanks ++ word') ∧ word.map fold = first ∧
    blanks ≠ [] ∧ AllBlank blanks ∧ word'.map fold = second

def Says (first second text : List Char) : Prop :=
  ∃ before pair after, text = before ++ (pair ++ after) ∧ IsWordPair first second pair ∧
    isWordAt before.getLast? = false ∧ isWordAt after.head? = false

section

variable {first second : List Char}

structure IsKeyword (keyword : List Char) : Prop where
  nonempty : keyword ≠ []
  lower : ∀ letter ∈ keyword, letter.isLower = true

theorem IsKeyword.exists_ends {keyword word : List Char} (isKeyword : IsKeyword keyword)
    (read : word.map fold = keyword) :
    ∃ first last, word.head? = some first ∧ word.getLast? = some last ∧ isBlank first = false ∧
      isBlank last = false := by
  have nonempty : word ≠ [] := by
    rintro rfl
    exact isKeyword.nonempty read.symm
  have visible (character : Char) (member : character ∈ word) :=
    visible_of_fold read isKeyword.lower member
  exact ⟨word.head nonempty, word.getLast nonempty, List.head?_eq_some_head nonempty,
    List.getLast?_eq_some_getLast nonempty, visible _ (List.head_mem nonempty),
    visible _ (List.getLast_mem nonempty)⟩

theorem IsWordPair.exists_ends {pair : List Char} (isPair : IsWordPair first second pair)
    (isKeyword : IsKeyword first) (isKeyword' : IsKeyword second) :
    ∃ front last, pair.head? = some front ∧ pair.getLast? = some last ∧ isBlank front = false ∧
      isBlank last = false := by
  rcases isPair with ⟨word, blanks, word', rfl, read, _, _, read'⟩
  rcases isKeyword.exists_ends read with ⟨front, _, starts, _, visible, _⟩
  rcases isKeyword'.exists_ends read' with ⟨_, last, _, ends, _, visible'⟩
  refine ⟨front, last, ?_, ?_, visible, visible'⟩
  · rw [List.head?_append, starts]
    rfl
  · rw [List.getLast?_append, List.getLast?_append, ends]
    rfl

theorem wholeWordsAt_eq_true_iff (isKeyword' : IsKeyword second) {previous : Option Char}
    {text : List Char} :
    wholeWordsAt [first, second] previous text = true ↔
      isWordAt previous = false ∧ ∃ pair rest, text = pair ++ rest ∧
        IsWordPair first second pair ∧ isWordAt rest.head? = false := by
  rw [wholeWordsAt, Bool.and_eq_true, Bool.not_eq_true']
  refine and_congr_right fun _ => ⟨fun found => ?_, ?_⟩
  · split at found
    · rename_i rest read
      rcases afterPhrase?_eq_some.mp read with
        ⟨word, blanks, _, rfl, reads, nonempty, blank, _, later⟩
      rcases afterKeyword?_eq_some.mp later with ⟨word', rfl, reads'⟩
      exact ⟨word ++ (blanks ++ word'), rest, by simp,
        ⟨word, blanks, word', rfl, reads, nonempty, blank, reads'⟩, by simpa using found⟩
    · cases found
  · rintro ⟨_, rest, rfl, ⟨word, blanks, word', rfl, read, nonempty, blank, read'⟩, outside⟩
    rcases isKeyword'.exists_ends read' with ⟨front, _, starts, _, visible, _⟩
    have bare : Bare (word' ++ rest) := by
      intro character head
      rw [List.head?_append, starts] at head
      cases head
      exact visible
    have found : afterPhrase? [first, second] ((word ++ (blanks ++ word')) ++ rest) = some rest :=
      afterPhrase?_eq_some.mpr ⟨word, blanks, word' ++ rest, by simp, read, nonempty, blank, bare,
        afterKeyword?_eq_some.mpr ⟨word', rfl, read'⟩⟩
    rw [found]
    simpa using outside

theorem occurs_wholeWordsAt_iff (isKeyword : IsKeyword first) (isKeyword' : IsKeyword second)
    {text : List Char} :
    occurs (wholeWordsAt [first, second]) text = true ↔ Says first second text := by
  rw [occurs_iff]
  constructor
  · rintro ⟨before, _, rfl, _, found⟩
    rcases (wholeWordsAt_eq_true_iff isKeyword').mp found with
      ⟨outside, pair, after, rfl, isPair, outside'⟩
    exact ⟨before, pair, after, rfl, isPair, outside, outside'⟩
  · rintro ⟨before, pair, after, rfl, isPair, outside, outside'⟩
    refine ⟨before, pair ++ after, rfl, ?_,
      (wholeWordsAt_eq_true_iff isKeyword').mpr ⟨outside, pair, after, rfl, isPair, outside'⟩⟩
    rcases isPair.exists_ends isKeyword isKeyword' with ⟨_, _, starts, _⟩
    refine List.append_ne_nil_of_left_ne_nil ?_ _
    rintro rfl
    cases starts

/-! ### Blanks around a text -/

theorem exists_between_blanks {front text back before inside after : List Char}
    (blank : AllBlank front) (blank' : AllBlank back) {start last : Char}
    (starts : inside.head? = some start) (ends : inside.getLast? = some last)
    (visible : isBlank start = false) (visible' : isBlank last = false)
    (whole : front ++ (text ++ back) = before ++ (inside ++ after)) :
    ∃ before' after', text = before' ++ (inside ++ after') ∧ before = front ++ before' ∧
      after = after' ++ back := by
  have left : ∃ before', before = front ++ before' ∧
      text ++ back = before' ++ (inside ++ after) := by
    rcases List.append_eq_append_iff.mp whole with ⟨more, long, tail⟩ | ⟨more, short, tail⟩
    · exact ⟨more, long, tail⟩
    · cases more with
      | nil => exact ⟨[], by simpa using short.symm, tail.symm⟩
      | cons character more =>
          have head := congrArg List.head? tail
          rw [List.head?_append, starts] at head
          cases head
          rw [blank start (short ▸ by simp)] at visible
          cases visible
  rcases left with ⟨before', rfl, tail⟩
  rw [← List.append_assoc] at tail
  rcases List.append_eq_append_iff.mp tail with ⟨more, long, rest⟩ | ⟨more, rfl, rfl⟩
  · rcases List.eq_nil_or_concat more with rfl | ⟨more, character, rfl⟩
    · refine ⟨before', [], ?_, rfl, by simpa using rest.symm⟩
      rw [List.append_nil] at long ⊢
      exact long.symm
    · have ending := congrArg List.getLast? long
      rw [List.getLast?_append, ends, List.concat_eq_append, ← List.append_assoc,
        List.getLast?_concat] at ending
      cases ending
      rw [blank' last (rest ▸ by simp)] at visible'
      cases visible'
  · exact ⟨before', more, by simp, rfl, rfl⟩

theorem isWordAt_getLast?_of_blanks {blanks text : List Char} (blank : AllBlank blanks) :
    isWordAt (blanks ++ text).getLast? = isWordAt text.getLast? := by
  rw [List.getLast?_append]
  cases text.getLast? with
  | some last => rfl
  | none =>
      cases last : blanks.getLast? with
      | none => rfl
      | some character =>
          exact isWord_eq_false_of_isBlank (blank character (List.mem_of_getLast? last))

theorem isWordAt_head?_of_blanks {blanks text : List Char} (blank : AllBlank blanks) :
    isWordAt (text ++ blanks).head? = isWordAt text.head? := by
  rw [List.head?_append]
  cases text.head? with
  | some first => rfl
  | none =>
      cases first : blanks.head? with
      | none => rfl
      | some character =>
          exact isWord_eq_false_of_isBlank (blank character (List.mem_of_head? first))

theorem says_blanks_iff (isKeyword : IsKeyword first) (isKeyword' : IsKeyword second)
    {front text back : List Char} (blank : AllBlank front) (blank' : AllBlank back) :
    Says first second (front ++ (text ++ back)) ↔ Says first second text := by
  constructor
  · rintro ⟨before, pair, after, whole, isPair, outside, outside'⟩
    rcases isPair.exists_ends isKeyword isKeyword' with
      ⟨start, last, starts, ends, visible, visible'⟩
    rcases exists_between_blanks blank blank' starts ends visible visible' whole with
      ⟨before, after, rfl, rfl, rfl⟩
    rw [isWordAt_getLast?_of_blanks blank] at outside
    rw [isWordAt_head?_of_blanks blank'] at outside'
    exact ⟨before, pair, after, rfl, isPair, outside, outside'⟩
  · rintro ⟨before, pair, after, rfl, isPair, outside, outside'⟩
    refine ⟨front ++ before, pair, after ++ back, by simp, isPair, ?_, ?_⟩
    · rwa [isWordAt_getLast?_of_blanks blank]
    · rwa [isWordAt_head?_of_blanks blank']

end

end TableSchema.Text

namespace TableSchema.Sql

open Text

/-! ## Primary keys -/

def SaysPrimaryKey (masked : List Char) : Prop := Says "primary".toList "key".toList masked

theorem isKeyword_primary : IsKeyword "primary".toList :=
  ⟨by decide, List.all_iff_forall_prop.mp (by decide)⟩

theorem isKeyword_key : IsKeyword "key".toList :=
  ⟨by decide, List.all_iff_forall_prop.mp (by decide)⟩

theorem saysPrimaryKey_iff {masked : List Char} :
    saysPrimaryKey masked = true ↔ SaysPrimaryKey masked :=
  occurs_wholeWordsAt_iff isKeyword_primary isKeyword_key

instance (masked : List Char) : Decidable (SaysPrimaryKey masked) :=
  decidable_of_iff _ saysPrimaryKey_iff

theorem saysPrimaryKey_blanks_iff {front text back : List Char} (blank : AllBlank front)
    (blank' : AllBlank back) : SaysPrimaryKey (front ++ (text ++ back)) ↔ SaysPrimaryKey text :=
  says_blanks_iff isKeyword_primary isKeyword_key blank blank'

end TableSchema.Sql
