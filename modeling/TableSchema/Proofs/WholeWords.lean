import TableSchema.Proofs.Matching

/-! # Whole words

A test for whole words holds only where a word starts. So a search for it goes from word to word, and
passes over every word that is not the one it looks for.
-/

namespace TableSchema.Text

structure StartsWords (here : Option Char → List Char → Bool) : Prop where
  inside : ∀ previous text, isWordAt previous = true → here previous text = false
  outside : ∀ previous text, isWordAt text.head? = false → here previous text = false

/-! ## Searching -/

section

variable {here : Option Char → List Char → Bool}

theorem findPlace?_of_not {previous : Option Char} {character : Char} {rest : List Char}
    (fails : here previous (character :: rest) = false) :
    findPlace? here previous (character :: rest) =
      (findPlace? here (some character) rest).map (· + 1) := by
  rw [findPlace?, fails]
  rfl

theorem findPlace?_gap (starts : StartsWords here) {character : Char}
    (outside : isWord character = false) (previous : Option Char) (rest : List Char) :
    findPlace? here previous (character :: rest) =
      (findPlace? here (some character) rest).map (· + 1) :=
  findPlace?_of_not (starts.outside previous _ outside)

theorem findPlace?_word (starts : StartsWords here) {word : List Char}
    (isWords : ∀ character ∈ word, isWord character = true) {gap : Char}
    (outside : isWord gap = false) {previous : Option Char} {rest : List Char}
    (fails : here previous (word ++ gap :: rest) = false) :
    findPlace? here previous (word ++ gap :: rest) =
      (findPlace? here (some gap) rest).map (· + (word.length + 1)) := by
  induction word generalizing previous with
  | nil => exact findPlace?_gap starts outside previous rest
  | cons character word induction =>
      have inside : isWordAt (some character) = true := isWords character (List.mem_cons_self ..)
      rw [List.cons_append] at fails ⊢
      rw [findPlace?_of_not fails, induction (fun other member => isWords other
        (List.mem_cons_of_mem _ member)) (starts.inside _ _ inside), Option.map_map]
      rfl

/-- Between blanks, the text holds nothing that passes the test. -/
def PassesOver (here : Option Char → List Char → Bool) (text : List Char) : Prop :=
  ∀ rest, findPlace? here (some ' ') (text ++ ' ' :: rest) =
    (findPlace? here (some ' ') rest).map (· + (text.length + 1))

def Fails (here : Option Char → List Char → Bool) (word : List Char) : Prop :=
  ∀ previous rest, isWordAt rest.head? = false → here previous (word ++ rest) = false

theorem passesOver_joinWords (starts : StartsWords here) {words : List (List Char)}
    (nonempty : words ≠ []) (isWords : ∀ word ∈ words, ∀ character ∈ word, isWord character = true)
    (fails : ∀ word ∈ words, Fails here word) : PassesOver here (joinWords words) := by
  intro rest
  have blank : isWord ' ' = false := by decide
  fun_induction joinWords words with
  | case1 => exact absurd rfl nonempty
  | case2 word =>
      have member := List.mem_singleton_self word
      exact findPlace?_word starts (isWords word member) blank (fails word member _ _ blank)
  | case3 word words more induction =>
      have member := List.mem_cons_self (a := word) (l := words)
      rw [List.append_assoc, List.cons_append, findPlace?_word starts (isWords word member) blank
        (fails word member _ _ blank), induction more
        (fun other inRest => isWords other (List.mem_cons_of_mem _ inRest))
        (fun other inRest => fails other (List.mem_cons_of_mem _ inRest)), Option.map_map]
      congr 1
      funext place
      simp only [Function.comp_apply, List.length_append, List.length_cons]
      omega

theorem PassesOver.fails {text : List Char} (passes : PassesOver here text) (rest : List Char) :
    here (some ' ') (text ++ ' ' :: rest) = false := by
  have nonempty : text ++ ' ' :: rest ≠ [] := by simp
  rcases List.exists_cons_of_ne_nil nonempty with ⟨first, others, whole⟩
  have later := passes rest
  rw [whole, findPlace?] at later
  rw [whole]
  split at later
  · rcases Option.map_eq_some_iff.mp later.symm with ⟨place, _, impossible⟩
    omega
  · rename_i fails
    exact Bool.not_eq_true _ |>.mp fails

theorem findPlace?_gaps (starts : StartsWords here) {text : List Char}
    (outside : ∀ character ∈ text, isWord character = false) (previous : Option Char)
    (rest : List Char) :
    findPlace? here previous (text ++ ' ' :: rest) =
      (findPlace? here (some ' ') rest).map (· + (text.length + 1)) := by
  induction text generalizing previous with
  | nil => exact findPlace?_gap starts (by decide) previous rest
  | cons character text induction =>
      rw [List.cons_append, findPlace?_gap starts (outside character (List.mem_cons_self ..)),
        induction fun other member => outside other (List.mem_cons_of_mem _ member),
        Option.map_map]
      rfl

end

/-! ## Keywords -/

theorem startsWords_wholeWordsAt {keyword : List Char} (nonempty : keyword ≠ [])
    (lower : ∀ letter ∈ keyword, letter.isLower = true) (phrase : List (List Char)) :
    StartsWords (wholeWordsAt (keyword :: phrase)) where
  inside previous text inside := by
    rw [wholeWordsAt, inside]
    rfl
  outside previous text outside := by
    unfold wholeWordsAt
    cases found : afterPhrase? (keyword :: phrase) text with
    | none => simp
    | some rest =>
        rcases exists_word_of_afterPhrase? found with ⟨word, more, rfl, rfl⟩
        cases word with
        | nil => exact absurd rfl nonempty
        | cons character word =>
            have isWords : isWord character = true :=
              isWord_of_fold rfl (lower _ (List.mem_cons_self ..))
            rw [List.cons_append, List.head?_cons, isWordAt, isWords] at outside
            cases outside

theorem stops_of_isWordAt {rest : List Char} (stops : isWordAt rest.head? = false) :
    ∀ character ∈ rest.head?, isWord character = false := by
  intro character next
  rw [next] at stops
  exact stops

theorem isWordAt_head?_append {rest tail : List Char} (ends : isWordAt rest.head? = false)
    (stops : isWordAt tail.head? = false) : isWordAt (rest ++ tail).head? = false := by
  cases rest with
  | nil => exact stops
  | cons => exact ends

theorem eq_of_words {word word' rest rest' : List Char}
    (isWords : ∀ character ∈ word, isWord character = true) (stops : isWordAt rest.head? = false)
    (isWords' : ∀ character ∈ word', isWord character = true)
    (stops' : isWordAt rest'.head? = false) (same : word ++ rest = word' ++ rest') :
    word = word' ∧ rest = rest' := by
  have upTo {word rest : List Char} (isWords : ∀ character ∈ word, isWord character = true)
      (stops : isWordAt rest.head? = false) : (word ++ rest).takeWhile isWord = word :=
    (takeWhile_of_stop word rest isWords (stops_of_isWordAt stops)).1
  have words : word = word' := by rw [← upTo isWords stops, same, upTo isWords' stops']
  subst words
  exact ⟨rfl, List.append_cancel_left same⟩

theorem isWord_of_read {word keyword : List Char} (read : word.map fold = keyword)
    (lower : ∀ letter ∈ keyword, letter.isLower = true) :
    ∀ character ∈ word, isWord character = true := by
  intro character member
  exact isWord_of_fold rfl (lower _ (read ▸ List.mem_map_of_mem member))

theorem eq_of_wholeWordsAt {keyword word rest : List Char} {phrase : List (List Char)}
    {previous : Option Char} (lower : ∀ letter ∈ keyword, letter.isLower = true)
    (isWords : ∀ character ∈ word, isWord character = true) (stops : isWordAt rest.head? = false)
    (whole : wholeWordsAt (keyword :: phrase) previous (word ++ rest) = true) :
    word.map fold = keyword := by
  unfold wholeWordsAt at whole
  rw [Bool.and_eq_true] at whole
  have ends := whole.2
  split at ends
  · rename_i after found
    cases phrase with
    | nil =>
        rcases afterKeyword?_eq_some.mp found with ⟨word', same, read⟩
        have behind : isWordAt after.head? = false := Bool.not_eq_true' _ |>.mp ends
        rw [(eq_of_words isWords stops (isWord_of_read read lower) behind same).1, read]
    | cons second phrase =>
        rcases afterPhrase?_eq_some.mp found with
          ⟨word', blanks, more, same, read, nonempty, blank, _⟩
        have behind : isWordAt (blanks ++ more).head? = false := by
          rcases List.exists_cons_of_ne_nil nonempty with ⟨first, others, rfl⟩
          exact isWord_eq_false_of_isBlank (blank first (List.mem_cons_self ..))
        rw [(eq_of_words isWords stops (isWord_of_read read lower) behind same).1, read]
  · cases ends

theorem wholeWordsAt_phrase {first second word rest : List Char} {phrase : List (List Char)}
    {previous : Option Char} (lower : ∀ letter ∈ first, letter.isLower = true)
    (visible : ∀ character ∈ word, isBlank character = false) (bare : Bare rest) :
    wholeWordsAt (first :: second :: phrase) previous (word ++ ' ' :: rest) = true ↔
      isWordAt previous = false ∧ word.map fold = first ∧
        wholeWordsAt (second :: phrase) (some ' ') rest = true := by
  have blank : isWordAt (some ' ') = false := by decide
  unfold wholeWordsAt
  rw [Bool.and_eq_true, Bool.not_eq_true', blank, Bool.not_false, Bool.true_and]
  apply and_congr_right
  intro _
  constructor
  · intro whole
    split at whole
    · rename_i after found
      rcases afterPhrase?_eq_some.mp found with
        ⟨word', blanks, more, same, read, nonempty, allBlank, bare', later⟩
      rcases eq_of_blanks visible (fun letter => visible_of_fold read lower) blank_allBlank
        allBlank (by simp) nonempty bare bare' same with ⟨rfl, _, rfl⟩
      refine ⟨read, ?_⟩
      rw [later]
      exact whole
    · cases whole
  · rintro ⟨read, whole⟩
    split at whole
    · rename_i after later
      have found : afterPhrase? (first :: second :: phrase) (word ++ ' ' :: rest) = some after :=
        afterPhrase?_eq_some.mpr
          ⟨word, [' '], rest, rfl, read, by simp, blank_allBlank, bare, later⟩
      rw [found]
      exact whole
    · cases whole

end TableSchema.Text
