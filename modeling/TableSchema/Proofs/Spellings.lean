import Mathlib.Data.List.Find
import TableSchema.Proofs.Labels
import TableSchema.Proofs.Respacing
import TableSchema.Proofs.TypeLabels

/-! # Types in other spellings

A raw type is matched without regard to case, and any blanks may stand between its words. So it has
one label for all its spellings, and the label is a spelling of itself.
-/

namespace TableSchema

namespace Text

/-! ## Small letters

No test of a character that decides on a label tells a capital letter from its small form.
-/

def small (text : List Char) : List Char := text.map Char.toLower

@[simp] theorem small_nil : small [] = [] := rfl

@[simp] theorem small_cons (character : Char) (rest : List Char) :
    small (character :: rest) = character.toLower :: small rest := rfl

@[simp] theorem small_append (first second : List Char) :
    small (first ++ second) = small first ++ small second := List.map_append

theorem toLower_eq_self {character : Char} (other : character.isUpper = false) :
    character.toLower = character :=
  dif_neg (of_decide_eq_false other)

theorem toLower_blind {α : Type} [DecidableEq α] (property : Char → α)
    (all : ∀ code ∈ List.range' 65 26,
      decide (property (Char.ofNat code).toLower = property (Char.ofNat code)) = true)
    (character : Char) : property character.toLower = property character := by
  cases upper : character.isUpper with
  | false => rw [toLower_eq_self upper]
  | true =>
      exact of_decide_eq_true (Sql.of_isUpper
        (fun character => decide (property character.toLower = property character)) all upper)

theorem isBlank_toLower (character : Char) : isBlank character.toLower = isBlank character :=
  toLower_blind isBlank (by decide) character

theorem isDigit_toLower (character : Char) : isDigit character.toLower = isDigit character :=
  toLower_blind isDigit (by decide) character

theorem isWord_toLower (character : Char) : isWord character.toLower = isWord character :=
  toLower_blind isWord (by decide) character

theorem fold_toLower (character : Char) : fold character.toLower = fold character :=
  toLower_blind fold (by decide) character

theorem upperChar_toLower (character : Char) :
    upperChar character.toLower = upperChar character :=
  toLower_blind upperChar (by decide) character

def typeMarks : List Char := ['(', ')', '[', ']']

theorem toLower_eq_iff {mark character : Char} (isMark : mark ∈ typeMarks) :
    character.toLower = mark ↔ character = mark := by
  have none : ∀ mark ∈ typeMarks, ∀ code ∈ List.range' 65 26,
      decide (decide ((Char.ofNat code).toLower = mark) = decide (Char.ofNat code = mark)) =
        true :=
    List.all_iff_forall_prop.mp (by decide)
  exact decide_eq_decide.mp (toLower_blind (fun character => decide (character = mark))
    (none mark isMark) character)

theorem toLower_of_isDigit {character : Char} (digit : isDigit character = true) :
    character.toLower = character := by
  apply toLower_eq_self
  rw [← Bool.not_eq_true]
  intro upper
  have none : (!isDigit character) = true :=
    Sql.of_isUpper (fun character => !isDigit character) (by decide) upper
  rw [digit] at none
  cases none

theorem isWordAt_toLower (character : Option Char) :
    isWordAt (character.map Char.toLower) = isWordAt character := by
  cases character with
  | none => rfl
  | some character => exact isWord_toLower character

/-! ## Matchers -/

theorem trimLeft_small (text : List Char) : trimLeft (small text) = small (trimLeft text) := by
  rw [trimLeft, small, List.dropWhile_map]
  exact congrArg (fun test => (text.dropWhile test).map Char.toLower) (funext isBlank_toLower)

theorem afterBlanks?_small (text : List Char) :
    afterBlanks? (small text) = (afterBlanks? text).map small := by
  cases text with
  | nil => rfl
  | cons character rest =>
      simp only [small_cons, afterBlanks?, isBlank_toLower, trimLeft_small]
      split <;> rfl

theorem afterChar?_small {mark : Char} (isMark : mark ∈ typeMarks) (text : List Char) :
    afterChar? mark (small text) = (afterChar? mark text).map small := by
  cases text with
  | nil => rfl
  | cons character rest =>
      simp only [small_cons, afterChar?, toLower_eq_iff isMark]
      split <;> rfl

theorem afterKeyword?_small (keyword text : List Char) :
    afterKeyword? keyword (small text) = (afterKeyword? keyword text).map small := by
  fun_induction afterKeyword? keyword text with
  | case1 text => rfl
  | case2 letter keyword => rfl
  | case3 keyword character rest induction =>
      rw [small_cons, afterKeyword?, fold_toLower, if_pos rfl, induction]
  | case4 letter keyword character rest other =>
      rw [small_cons, afterKeyword?, fold_toLower, if_neg other]
      rfl

theorem bind_small {α : Type} {next next' : List Char → Option α}
    (same : ∀ rest, next (small rest) = next' rest) (found : Option (List Char)) :
    (found.map small >>= next) = (found >>= next') := by
  cases found with
  | none => rfl
  | some rest => exact same rest

theorem bind_small_map {α β : Type} {next : List Char → Option α} {next' : List Char → Option β}
    {change : β → α} (same : ∀ rest, next (small rest) = (next' rest).map change)
    (found : Option (List Char)) :
    (found.map small >>= next) = (found >>= next').map change := by
  rw [bind_small same]
  cases found <;> rfl

theorem afterPhrase?_small (phrase : List (List Char)) (text : List Char) :
    afterPhrase? phrase (small text) = (afterPhrase? phrase text).map small := by
  induction phrase generalizing text with
  | nil => rfl
  | cons keyword phrase induction =>
      cases phrase with
      | nil => exact afterKeyword?_small keyword text
      | cons second phrase =>
          rw [afterPhrase?, afterPhrase?, afterKeyword?_small, bind_small_map afterBlanks?_small,
            bind_small_map induction]
          · exact fun none => List.cons_ne_nil _ _ none
          · exact fun none => List.cons_ne_nil _ _ none

theorem small_of_digits {digits : List Char}
    (isDigits : ∀ character ∈ digits, isDigit character = true) : small digits = digits := by
  have same : digits.map Char.toLower = digits.map id :=
    List.map_congr_left fun character member => toLower_of_isDigit (isDigits character member)
  rw [small, same, List.map_id]

theorem digitsAt?_small (text : List Char) :
    digitsAt? (small text) = (digitsAt? text).map (Prod.map id small) := by
  have blind : isDigit ∘ Char.toLower = isDigit := funext isDigit_toLower
  have digits : (small text).takeWhile isDigit = text.takeWhile isDigit := by
    rw [small, List.takeWhile_map, blind]
    exact small_of_digits fun _ => List.mem_takeWhile_imp
  have behind : (small text).dropWhile isDigit = small (text.dropWhile isDigit) := by
    rw [small, List.dropWhile_map, blind]
    rfl
  rw [digitsAt?, digitsAt?, digits, behind]
  split <;> rfl

/-! ## Places -/

def CaseBlind (here : Option Char → List Char → Bool) : Prop :=
  ∀ previous text, here (previous.map Char.toLower) (small text) = here previous text

theorem caseBlind_phraseAt (phrase : List (List Char)) : CaseBlind (phraseAt phrase) := by
  intro previous text
  rw [phraseAt, phraseAt, afterPhrase?_small, Option.isSome_map]

theorem caseBlind_wholeWordsAt (phrase : List (List Char)) :
    CaseBlind (wholeWordsAt phrase) := by
  intro previous text
  have head (rest : List Char) : isWordAt (small rest).head? = isWordAt rest.head? := by
    rw [small, List.head?_map, isWordAt_toLower]
  rw [wholeWordsAt, wholeWordsAt, isWordAt_toLower, afterPhrase?_small]
  cases afterPhrase? phrase text with
  | none => rfl
  | some rest => simp only [Option.map_some, head]

theorem CaseBlind.findPlace? {here : Option Char → List Char → Bool} (blind : CaseBlind here)
    (previous : Option Char) (text : List Char) :
    findPlace? here (previous.map Char.toLower) (small text) = findPlace? here previous text := by
  induction text generalizing previous with
  | nil => rfl
  | cons character rest induction =>
      rw [small_cons, Text.findPlace?, Text.findPlace?, ← small_cons, blind]
      split
      · rfl
      · exact congrArg _ (induction (some character))

theorem CaseBlind.occurs {here : Option Char → List Char → Bool} (blind : CaseBlind here)
    (text : List Char) : occurs here (small text) = occurs here text :=
  congrArg Option.isSome (blind.findPlace? none text)

/-! ## Words -/

theorem wordsFrom_small (word text : List Char) :
    wordsFrom (small word) (small text) = (wordsFrom word text).map small := by
  have empty (word : List Char) : (small word).isEmpty = word.isEmpty := by cases word <;> rfl
  induction text generalizing word with
  | nil =>
      rw [small_nil, wordsFrom, wordsFrom, empty]
      split <;> rfl
  | cons character rest induction =>
      rw [small_cons, wordsFrom, wordsFrom, isBlank_toLower, empty]
      split
      · split
        · exact induction []
        · exact congrArg (small word :: ·) (induction [])
      · rw [← induction, small_append]
        rfl

theorem joinWords_small (words : List (List Char)) :
    joinWords (words.map small) = small (joinWords words) := by
  fun_induction joinWords words with
  | case1 => rfl
  | case2 word => rfl
  | case3 word rest more induction =>
      rw [List.map_cons, joinWords, induction, small_append]
      · rfl
      · simpa using more

theorem collapse_small (text : List Char) : collapse (small text) = small (collapse text) := by
  rw [collapse, collapse, ← joinWords_small]
  exact congrArg joinWords (wordsFrom_small [] text)

theorem wordsFrom_append_blanks {blanks : List Char} (blank : AllBlank blanks)
    (word text : List Char) : wordsFrom word (text ++ blanks) = wordsFrom word text := by
  induction text generalizing word with
  | nil =>
      by_cases empty : blanks = []
      · rw [empty, List.append_nil]
      · have alone := wordsFrom_blanks blank empty word []
        rw [List.append_nil] at alone
        rw [List.nil_append, alone, wordsFrom]
        cases word <;> rfl
  | cons character rest induction =>
      rw [List.cons_append, wordsFrom, wordsFrom, induction, induction]

theorem words_around {before after : List Char} (blank : AllBlank before)
    (blank' : AllBlank after) (text : List Char) :
    words (before ++ (text ++ after)) = words text := by
  have inner : words (text ++ after) = words text := wordsFrom_append_blanks blank' [] text
  by_cases empty : before = []
  · rw [empty, List.nil_append, inner]
  · rw [words, wordsFrom_blanks blank empty, inner]
    rfl

theorem wordsFrom_append_word {word : List Char}
    (visible : ∀ character ∈ word, isBlank character = false) (before rest : List Char) :
    wordsFrom before (word ++ rest) = wordsFrom (before ++ word) rest := by
  induction word generalizing before with
  | nil => rw [List.nil_append, List.append_nil]
  | cons character word induction =>
      rcases List.forall_mem_cons.mp visible with ⟨here, later⟩
      rw [List.cons_append, wordsFrom, here, if_neg (by decide), induction later,
        List.append_assoc]
      rfl

theorem ne_nil_of_mem_wordsFrom {word text other : List Char}
    (listed : other ∈ wordsFrom word text) : other ≠ [] := by
  fun_induction wordsFrom word text with
  | case1 => cases listed
  | case2 word nonempty =>
      rw [List.mem_singleton.mp listed]
      simpa using nonempty
  | case3 _ _ _ _ _ induction => exact induction listed
  | case4 word _ _ _ nonempty induction =>
      rcases List.mem_cons.mp listed with rfl | listed
      · simpa using nonempty
      · exact induction listed
  | case5 _ _ _ _ induction => exact induction listed

theorem words_joinWords {list : List (List Char)}
    (each : ∀ word ∈ list, word ≠ [] ∧ ∀ character ∈ word, isBlank character = false) :
    words (joinWords list) = list := by
  fun_induction joinWords list with
  | case1 => rfl
  | case2 word =>
      have here := each word (List.mem_singleton_self word)
      have read := wordsFrom_append_word here.2 [] []
      rw [List.append_nil] at read
      rw [words, read, wordsFrom, List.nil_append, if_neg (by simpa using here.1)]
  | case3 word rest _ induction =>
      rcases List.forall_mem_cons.mp each with ⟨here, later⟩
      rw [words, wordsFrom_append_word here.2, List.nil_append, wordsFrom, if_pos (by decide),
        if_neg (by simpa using here.1)]
      exact congrArg (word :: ·) (induction later)

theorem flatten_wordsFrom (word text : List Char) :
    (wordsFrom word text).flatten = word ++ text.filter (!isBlank ·) := by
  fun_induction wordsFrom word text with
  | case1 word empty =>
      rw [List.isEmpty_iff.mp empty]
      rfl
  | case2 word => simp
  | case3 word character rest blank empty induction =>
      rw [induction, List.isEmpty_iff.mp empty, List.filter_cons_of_neg (by simp [blank])]
  | case4 word character rest blank _ induction =>
      rw [List.flatten_cons, induction, List.filter_cons_of_neg (by simp [blank]),
        List.nil_append]
  | case5 word character rest visible induction =>
      rw [induction, List.filter_cons_of_pos (by simpa using visible), List.append_assoc]
      rfl

theorem mem_of_mem_collapse {text : List Char} {character : Char}
    (member : character ∈ collapse text) : character = ' ' ∨ character ∈ text := by
  refine (mem_of_mem_joinWords member).imp id ?_
  rintro ⟨word, listed, member⟩
  have flat := List.mem_flatten.mpr ⟨word, listed, member⟩
  rw [words, flatten_wordsFrom] at flat
  exact (List.mem_filter.mp flat).1

theorem words_collapse (text : List Char) : words (collapse text) = words text :=
  words_joinWords fun _ listed => ⟨ne_nil_of_mem_wordsFrom listed, fun _ member =>
    Sql.visible_of_mem_wordsFrom (fun _ none => by cases none) listed member⟩

theorem exists_respaced_wordsFrom (text word : List Char) :
    ∃ before more after, text = before ++ (more ++ after) ∧ AllBlank before ∧ AllBlank after ∧
      (word ≠ [] → before = []) ∧
      Respaced False (word ++ more) (joinWords (wordsFrom word text)) := by
  induction text generalizing word with
  | nil =>
      refine ⟨[], [], [], rfl, allBlank_nil, allBlank_nil, fun _ => rfl, ?_⟩
      rw [List.append_nil, wordsFrom]
      cases word <;> exact SameBut.refl _
  | cons character rest induction =>
      rw [wordsFrom]
      split
      · rename_i blank
        rcases induction [] with ⟨before, more, after, whole, blank', blank'', _, same⟩
        have further : AllBlank (character :: before) := List.forall_mem_cons.mpr ⟨blank, blank'⟩
        split
        · rename_i empty
          rw [List.isEmpty_iff] at empty
          subst empty
          exact ⟨character :: before, more, after, by rw [whole]; rfl, further, blank'',
            fun nonempty => absurd rfl nonempty, same⟩
        · generalize wordsFrom [] rest = words at same
          cases words with
          | nil =>
              -- Nothing but blanks is left behind the word.
              have none : more = [] := (Respaced.nil_iff same).mpr rfl
              refine ⟨[], [], character :: (before ++ after), by rw [whole, none]; rfl,
                allBlank_nil, ?_, fun _ => rfl, ?_⟩
              · exact List.forall_mem_append.mpr ⟨further, blank''⟩
              · rw [List.append_nil]
                exact SameBut.refl _
          | cons next words =>
              refine ⟨[], character :: (before ++ more), after, by rw [whole]; simp,
                allBlank_nil, blank'', fun _ => rfl, ?_⟩
              have gap : BlankRuns False (character :: before) [' '] :=
                ⟨List.cons_ne_nil _ _, by decide, further, blank_allBlank, False.elim⟩
              exact (SameBut.refl word).append ((SameBut.single gap).append same)
      · rcases induction (word ++ [character]) with
          ⟨before, more, after, whole, _, blank', none, same⟩
        have nothing := none (by simp)
        subst nothing
        rw [List.append_assoc] at same
        exact ⟨[], character :: more, after, by rw [whole]; rfl, allBlank_nil, blank',
          fun _ => rfl, same⟩

/-- But for the blanks around it, a text is collapsed by exchanging runs of blanks. -/
theorem exists_respaced_collapse (text : List Char) :
    ∃ before more after, text = before ++ (more ++ after) ∧ AllBlank before ∧ AllBlank after ∧
      Respaced False more (collapse text) := by
  rcases exists_respaced_wordsFrom text [] with ⟨before, more, after, whole, blank, blank', _, same⟩
  exact ⟨before, more, after, whole, blank, blank', same⟩

theorem collapse_collapse (text : List Char) : collapse (collapse text) = collapse text :=
  congrArg joinWords (words_collapse text)

end Text

namespace Sql

open Text

/-! ## Labels -/

theorem numberInParens?_small (text : List Char) :
    numberInParens? (small text) = (numberInParens? text).map (Prod.map id small) := by
  unfold numberInParens?
  rw [trimLeft_small, afterChar?_small (by decide)]
  refine bind_small_map (fun inside => ?_) _
  rw [trimLeft_small, digitsAt?_small]
  cases digitsAt? (trimLeft inside) with
  | none => rfl
  | some read =>
      simp only [Option.map_some, Option.bind_eq_bind, Option.bind_some, Prod.map_fst,
        Prod.map_snd, id_eq, trimLeft_small, afterChar?_small (show ')' ∈ typeMarks by decide)]
      cases afterChar? ')' (trimLeft read.2) <;> rfl

theorem sizedVarcharAt?_small (text : List Char) :
    sizedVarcharAt? (small text) = sizedVarcharAt? text := by
  have either : (afterPhrase? ["character".toList, "varying".toList] (small text)).or
        (afterKeyword? "varchar".toList (small text)) =
      ((afterPhrase? ["character".toList, "varying".toList] text).or
        (afterKeyword? "varchar".toList text)).map small := by
    rw [afterPhrase?_small, afterKeyword?_small, Option.map_or]
  unfold sizedVarcharAt?
  rw [either]
  refine bind_small (fun rest => ?_) _
  rw [numberInParens?_small, Option.map_map]
  rfl

theorem varcharLength?_small (text : List Char) :
    varcharLength? (small text) = varcharLength? text := by
  induction text with
  | nil => rfl
  | cons character rest induction =>
      rw [varcharLength?, ← sizedVarcharAt?_small, ← induction]
      rfl

theorem afterBrackets?_small (text : List Char) :
    afterBrackets? (small text) = (afterBrackets? text).map small := by
  unfold afterBrackets?
  rw [afterChar?_small (by decide)]
  refine bind_small_map (fun inside => ?_) _
  have digits : (small (trimLeft inside)).dropWhile isDigit =
      small ((trimLeft inside).dropWhile isDigit) := by
    rw [small, List.dropWhile_map]
    exact congrArg (fun test => ((trimLeft inside).dropWhile test).map Char.toLower)
      (funext isDigit_toLower)
  rw [trimLeft_small, digits, trimLeft_small, afterChar?_small (by decide)]

theorem caseBlind_arrayAt : CaseBlind arrayAt := by
  intro previous text
  rw [arrayAt, arrayAt, afterBrackets?_small, Option.isSome_map, caseBlind_wholeWordsAt]

theorem afterZonedTimestamp?_small (text : List Char) :
    afterZonedTimestamp? (small text) = (afterZonedTimestamp? text).map small := by
  unfold afterZonedTimestamp?
  rw [afterKeyword?_small]
  refine bind_small_map (fun rest => ?_) _
  rw [numberInParens?_small]
  cases numberInParens? rest <;>
    exact (congrArg (· >>= _) (afterBlanks?_small _)).trans
      (bind_small_map (afterPhrase?_small _) _)

theorem caseBlind_zonedTimestampAt : CaseBlind zonedTimestampAt := by
  intro previous text
  rw [zonedTimestampAt, zonedTimestampAt, afterZonedTimestamp?_small, afterKeyword?_small,
    Option.isSome_map, Option.isSome_map]

theorem caseBlind_wellKnown : ∀ entry ∈ wellKnown, CaseBlind entry.1 := by
  simp only [wellKnown, List.forall_mem_cons]
  exact ⟨caseBlind_phraseAt _, caseBlind_arrayAt, caseBlind_phraseAt _, caseBlind_zonedTimestampAt,
    caseBlind_phraseAt _, caseBlind_phraseAt _, caseBlind_phraseAt _, caseBlind_phraseAt _,
    caseBlind_phraseAt _, caseBlind_phraseAt _, fun _ none => by cases none⟩

theorem withoutParameters_small (skip : Nat) (text : List Char) :
    withoutParameters skip (small text) = small (withoutParameters skip text) := by
  have closes : (fun character : Char => decide (character ≠ ')')) ∘ Char.toLower =
      fun character => decide (character ≠ ')') := by
    funext character
    simp only [Function.comp_apply, ne_eq, toLower_eq_iff (show ')' ∈ typeMarks by decide)]
  have opened (first : Char) (rest : List Char) :
      (first.toLower = '(' ∧ ')' ∈ small rest) ↔ (first = '(' ∧ ')' ∈ rest) := by
    simp only [small, List.mem_map, toLower_eq_iff (show '(' ∈ typeMarks by decide),
      toLower_eq_iff (show ')' ∈ typeMarks by decide), exists_eq_right]
  fun_induction withoutParameters skip text with
  | case1 => rfl
  | case2 skip first rest induction => exact induction
  | case3 first rest opens induction =>
      rw [small_cons, withoutParameters, if_pos ((opened first rest).mpr opens), small,
        List.takeWhile_map, closes, List.length_map]
      exact congrArg (' ' :: ·) induction
  | case4 first rest other induction =>
      rw [small_cons, withoutParameters, if_neg (mt (opened first rest).mp other), induction]
      rfl

theorem upper_small (text : List Char) : upper (small text) = upper text := by
  rw [upper, small, List.flatMap_map]
  exact congrArg text.flatMap (funext upperChar_toLower)

theorem typeLabel_small (rawType : List Char) : typeLabel (small rawType) = typeLabel rawType := by
  have known : wellKnown.find? (fun entry => occurs entry.1 (small (collapse rawType))) =
      wellKnown.find? (fun entry => occurs entry.1 (collapse rawType)) :=
    List.find?_congr fun entry listed => (caseBlind_wellKnown entry listed).occurs _
  simp only [typeLabel, collapse_small, varcharLength?_small, known, withoutParameters_small,
    upper_small]

/-! ## Spellings -/

/-- The texts are spellings of each other: one is made of the other by changing the case of ASCII
letters, exchanging runs of blanks, and adding and leaving out blanks around it, in any order. -/
inductive Respelled : List Char → List Char → Prop
  | letters {first second : List Char} (same : small first = small second) :
      Respelled first second
  | blanks {first second : List Char} (same : Respaced False first second) :
      Respelled first second
  | around {before text after : List Char} (blank : AllBlank before) (blank' : AllBlank after) :
      Respelled text (before ++ (text ++ after))
  | back {first second : List Char} (other : Respelled first second) : Respelled second first
  | further {first second third : List Char} (before : Respelled first second)
      (after : Respelled second third) : Respelled first third

theorem typeLabel_of_words {first second : List Char} (same : words first = words second) :
    typeLabel first = typeLabel second := by
  have collapsed : collapse first = collapse second := congrArg joinWords same
  rw [typeLabel, typeLabel, collapsed]

theorem Respelled.typeLabel_eq {first second : List Char} (spelled : Respelled first second) :
    typeLabel first = typeLabel second := by
  induction spelled with
  | letters same => rw [← typeLabel_small, same, typeLabel_small]
  | blanks same => exact typeLabel_of_words same.words_eq
  | around blank blank' => exact typeLabel_of_words (words_around blank blank' _).symm
  | back _ induction => exact induction.symm
  | further _ _ before after => exact before.trans after

/-! ## Labels of labels -/

theorem numberInParens?_eq_none {text : List Char} (absent : '(' ∉ text) :
    numberInParens? text = none := by
  have opened : afterChar? '(' (trimLeft text) = none := by
    rw [Option.eq_none_iff_forall_ne_some]
    intro rest found
    have whole := afterChar?_eq_some.mp found
    exact absent ((trimLeft_sublist text).mem (whole ▸ List.mem_cons_self ..))
  rw [numberInParens?, opened]
  rfl

theorem varcharLength?_eq_none {text : List Char} (absent : '(' ∉ text) :
    varcharLength? text = none := by
  rw [Option.eq_none_iff_forall_ne_some]
  intro digits found
  rcases exists_number_of_varcharLength? found with ⟨word, rest, after, rfl, number⟩
  rw [numberInParens?_eq_none fun later => absent (List.mem_append_right word later)] at number
  cases number

theorem withoutParameters_eq_self {text : List Char} (absent : '(' ∉ text) :
    withoutParameters 0 text = text := by
  induction text with
  | nil => rfl
  | cons character rest induction =>
      have other : ¬ (character = '(' ∧ ')' ∈ rest) :=
        fun opens => absent (opens.1 ▸ List.mem_cons_self ..)
      rw [withoutParameters, if_neg other,
        induction fun later => absent (List.mem_cons_of_mem _ later)]

theorem small_upper {text : List Char} (ascii : ∀ character ∈ text, character.val < 0x80) :
    small (upper text) = small text := by
  have each : ∀ code ∈ List.range 0x80,
      small [(Char.ofNat code).toUpper] = [(Char.ofNat code).toLower] := by
    decide +kernel
  induction text with
  | nil => rfl
  | cons character rest induction =>
      rcases List.forall_mem_cons.mp ascii with ⟨here, later⟩
      have letter := each character.toNat (List.mem_range.mpr here)
      rw [Char.ofNat_toNat] at letter
      have whole : upper (character :: rest) = upperChar character ++ upper rest := rfl
      rw [whole, small_append, induction later, upperChar, if_pos here, letter]
      rfl

theorem respelled_collapse (text : List Char) : Respelled text (collapse text) := by
  rcases exists_respaced_collapse text with ⟨before, more, after, whole, blank, blank', same⟩
  generalize collapse text = collapsed at same
  rw [whole]
  exact (Respelled.back (.around blank blank')).further (.blanks same)

section

variable {rawType : List Char}

/-- A type in ASCII without parameters that is not well known is only written in another way. -/
theorem wellKnown_or_respelled
    (plain : ∀ character ∈ rawType, character.val < 0x80 ∧ character ≠ '(') :
    (∃ entry ∈ wellKnown, occurs entry.1 (collapse rawType) = true ∧
        typeLabel rawType = entry.2.toList) ∨
      Respelled rawType (typeLabel rawType) := by
  have plain' : ∀ character ∈ collapse rawType, character.val < 0x80 ∧ character ≠ '(' := by
    intro character member
    rcases mem_of_mem_collapse member with rfl | member
    · decide
    · exact plain character member
  have absent : '(' ∉ collapse rawType := fun member => (plain' _ member).2 rfl
  have unsized := varcharLength?_eq_none absent
  cases found : wellKnown.find? fun entry => occurs entry.1 (collapse rawType) with
  | some entry =>
      have occurring := List.find?_some found
      refine .inl ⟨entry, List.mem_of_find?_eq_some found, occurring, ?_⟩
      simp only [typeLabel, unsized, found]
  | none =>
      right
      have label : typeLabel rawType = upper (collapse rawType) := by
        simp only [typeLabel, unsized, found]
        rw [withoutParameters_eq_self absent, collapse_collapse]
      have letters : small (collapse rawType) = small (upper (collapse rawType)) :=
        (small_upper fun character member => (plain' character member).1).symm
      rw [label]
      exact (respelled_collapse rawType).further (.letters letters)

theorem typeLabel_typeLabel
    (plain : ∀ character ∈ rawType, character.val < 0x80 ∧ character ≠ '(') :
    typeLabel (typeLabel rawType) = typeLabel rawType := by
  have labels : ∀ entry ∈ wellKnown, typeLabel entry.2.toList = entry.2.toList := by
    decide +kernel
  rcases wellKnown_or_respelled plain with ⟨entry, listed, _, label⟩ | spelled
  · rw [label, labels entry listed]
  · exact spelled.typeLabel_eq.symm

end

/-- A type has one label, however it is spelled. A label of a type in ASCII without parameters is
its own label, since it belongs to a well-known type or is a spelling of the type. -/
theorem spellings_have_one_label :
    (∀ rawType other, Respelled rawType other → typeLabel other = typeLabel rawType) ∧
      ∀ rawType : List Char, (∀ character ∈ rawType, character.val < 0x80 ∧ character ≠ '(') →
        typeLabel (typeLabel rawType) = typeLabel rawType ∧
          ((∃ entry ∈ wellKnown, occurs entry.1 (collapse rawType) = true ∧
              typeLabel rawType = entry.2.toList) ∨
            Respelled rawType (typeLabel rawType)) :=
  ⟨fun _ _ spelled => spelled.typeLabel_eq.symm, fun _ plain =>
    ⟨typeLabel_typeLabel plain, wellKnown_or_respelled plain⟩⟩

/-- A type with a number, blanks and words in other letters, and a type that is not well known. -/
theorem zoned_timestamp_in_other_spelling :
    let rawType := "timestamp(3) with time zone".toList
    let other := " TimeStamp(3)\n\tWITH time zonE\x1c".toList
    let unknown := "\tbit  [x] Varying".toList
    Respelled rawType other ∧ typeLabel other = typeLabel rawType ∧
      typeLabel unknown = "BIT [X] VARYING".toList ∧
      typeLabel (typeLabel unknown) = typeLabel unknown := by
  intro rawType other unknown
  have letters : Respelled rawType "TimeStamp(3) WITH time zonE".toList := .letters (by decide)
  have gap : BlankRuns False [' '] ['\n', '\t'] :=
    ⟨by decide, by decide, by decide, by decide, False.elim⟩
  have blanks : Respelled "TimeStamp(3) WITH time zonE".toList
      "TimeStamp(3)\n\tWITH time zonE".toList :=
    .blanks ((SameBut.refl "TimeStamp(3)".toList).append
      ((SameBut.single gap).append (.refl "WITH time zonE".toList)))
  have around : Respelled "TimeStamp(3)\n\tWITH time zonE".toList other :=
    @Respelled.around [' '] _ ['\x1c'] (by decide) (by decide)
  have spelled := letters.further (blanks.further around)
  have one := spellings_have_one_label
  have plain : ∀ character ∈ unknown, character.val < 0x80 ∧ character ≠ '(' :=
    List.all_iff_forall_prop.mp (by decide)
  exact ⟨spelled, one.1 _ _ spelled, by decide +kernel, (one.2 unknown plain).1⟩

end Sql

end TableSchema
