import TableSchema.Proofs.Parentheses
import TableSchema.Proofs.SelfContained
import TableSchema.Proofs.WholeWords
import TableSchema.Sql.Column

/-! # Plain types and labels

A type of words in capitals, or of one such word with a length, ends where the constraints of its
column start. If it is also its own label, then a type that is written as its label is read as the
same label.
-/

namespace TableSchema.Sql

open Text

def varcharWord : List Char := "VARCHAR".toList

def varcharLabel (digits : List Char) : List Char := varcharWord ++ '(' :: (digits ++ [')'])

/-- The labels that are read as they are written: a character type with a length, or words of
capital letters that stand for themselves and start no constraint of a column. -/
inductive PlainLabel : List Char → Prop
  | varchar {digits : List Char} (nonempty : digits ≠ [])
      (isDigits : ∀ character ∈ digits, character.isDigit = true) :
      PlainLabel (varcharLabel digits)
  | words {words : List (List Char)} (nonempty : words ≠ [])
      (capitals : ∀ word ∈ words, word ≠ [] ∧ ∀ character ∈ word, character.isUpper = true)
      (own : typeLabel (joinWords words) = joinWords words)
      (free : ∀ word ∈ words, word.map fold ∉ typeEnds) : PlainLabel (joinWords words)

def isTypeCharacter (character : Char) : Bool :=
  character.isUpper || character.isDigit || character == '_'

/-- A word that may stand in a type: a capital, and capitals, digits and underscores after it that
start no constraint of a column. -/
structure IsTypeWord (word : List Char) : Prop where
  starts : word.head?.any Char.isUpper = true
  characters : ∀ character ∈ word, isTypeCharacter character = true
  free : word.map fold ∉ typeEnds

instance (word : List Char) : Decidable (IsTypeWord word) :=
  decidable_of_iff (word.head?.any Char.isUpper = true ∧ word.all isTypeCharacter = true ∧
      word.map fold ∉ typeEnds)
    ⟨fun ⟨starts, characters, free⟩ => ⟨starts, List.all_eq_true.mp characters, free⟩,
      fun isTypeWord =>
        ⟨isTypeWord.starts, List.all_eq_true.mpr isTypeWord.characters, isTypeWord.free⟩⟩

theorem isTypeWord_of_isUpper {word : List Char} (nonempty : word ≠ [])
    (capitals : ∀ character ∈ word, character.isUpper = true) (free : word.map fold ∉ typeEnds) :
    IsTypeWord word where
  starts := by
    rcases List.exists_cons_of_ne_nil nonempty with ⟨first, rest, rfl⟩
    exact capitals first (List.mem_cons_self ..)
  characters character member := by rw [isTypeCharacter, capitals character member]; rfl
  free := free

theorem isTypeWord_varcharWord : IsTypeWord varcharWord := by decide

def sizedType (word digits : List Char) : List Char := word ++ '(' :: (digits ++ [')'])

/-- The types that end where the constraints of a column start, whatever they are read as: a word
with a length, or words. -/
inductive PlainType : List Char → Prop
  | sized {word digits : List Char} (isTypeWord : IsTypeWord word) (nonempty : digits ≠ [])
      (isDigits : ∀ character ∈ digits, character.isDigit = true) :
      PlainType (sizedType word digits)
  | words {words : List (List Char)} (nonempty : words ≠ [])
      (areTypeWords : ∀ word ∈ words, IsTypeWord word) : PlainType (joinWords words)

theorem PlainLabel.plainType {label : List Char} (plain : PlainLabel label) : PlainType label := by
  cases plain with
  | varchar nonempty isDigits => exact .sized isTypeWord_varcharWord nonempty isDigits
  | words nonempty capitals _ free =>
      exact .words nonempty fun word listed =>
        isTypeWord_of_isUpper (capitals word listed).1 (capitals word listed).2 (free word listed)

/-! ## Capitals and digits -/

/-- What holds of a run of code points holds of the characters in it. -/
theorem of_code {first count : Nat} (property : Char → Bool)
    (all : ∀ code ∈ List.range' first count, property (Char.ofNat code) = true) {character : Char}
    (low : first ≤ character.toNat) (high : character.toNat < first + count) :
    property character = true := by
  have here := all character.toNat (List.mem_range'_1.mpr ⟨low, high⟩)
  rwa [Char.ofNat_toNat] at here

theorem of_isUpper (property : Char → Bool)
    (all : ∀ code ∈ List.range' 65 26, property (Char.ofNat code) = true) {character : Char}
    (upper : character.isUpper = true) : property character = true := by
  have bounds := of_decide_eq_true upper
  exact of_code property all (UInt32.le_iff_toNat_le.mp bounds.1)
    (Nat.lt_succ_of_le (UInt32.le_iff_toNat_le.mp bounds.2))

theorem of_isDigit (property : Char → Bool)
    (all : ∀ code ∈ List.range' 48 10, property (Char.ofNat code) = true) {character : Char}
    (digit : character.isDigit = true) : property character = true := by
  have bounds := Bool.and_eq_true_iff.mp digit
  exact of_code property all (UInt32.le_iff_toNat_le.mp (of_decide_eq_true bounds.1))
    (Nat.lt_succ_of_le (UInt32.le_iff_toNat_le.mp (of_decide_eq_true bounds.2)))

theorem of_isTypeCharacter (property : Char → Bool)
    (upper : ∀ code ∈ List.range' 65 26, property (Char.ofNat code) = true)
    (digit : ∀ code ∈ List.range' 48 10, property (Char.ofNat code) = true)
    (underscore : property '_' = true) {character : Char}
    (isType : isTypeCharacter character = true) : property character = true := by
  simp only [isTypeCharacter, Bool.or_eq_true, beq_iff_eq] at isType
  rcases isType with (isUpper | isDigit) | rfl
  · exact of_isUpper property upper isUpper
  · exact of_isDigit property digit isDigit
  · exact underscore

theorem isNameStart_of_isUpper {character : Char} (upper : character.isUpper = true) :
    isNameStart character = true :=
  of_isUpper isNameStart (by decide) upper

theorem isWord_of_isDigit {character : Char} (digit : character.isDigit = true) :
    isWord character = true :=
  of_isDigit isWord (by decide) digit

theorem isWord_varcharWord : ∀ character ∈ varcharWord, isWord character = true :=
  List.all_iff_forall_prop.mp (by decide)

theorem mem_sizedType {word digits : List Char} {character : Char}
    (member : character ∈ sizedType word digits) :
    character ∈ word ∨ character ∈ digits ∨ character = '(' ∨ character = ')' := by
  simp only [sizedType, List.mem_append, List.mem_cons, List.not_mem_nil, or_false] at member
  rcases member with word | opens | digit | closes
  · exact .inl word
  · exact .inr (.inr (.inl opens))
  · exact .inr (.inl digit)
  · exact .inr (.inr (.inr closes))

def typeCharacters : List Char := "ABCDEFGHIJKLMNOPQRSTUVWXYZ0123456789_() ".toList

theorem PlainType.mem_typeCharacters {type : List Char} (plain : PlainType type)
    {character : Char} (member : character ∈ type) : character ∈ typeCharacters := by
  have inWord (isType : isTypeCharacter character = true) : character ∈ typeCharacters :=
    of_decide_eq_true
      (of_isTypeCharacter (· ∈ typeCharacters) (by decide) (by decide) (by decide) isType)
  cases plain with
  | sized isTypeWord _ isDigits =>
      rcases mem_sizedType member with member | digit | rfl | rfl
      · exact inWord (isTypeWord.characters character member)
      · exact of_decide_eq_true (of_isDigit (· ∈ typeCharacters) (by decide)
          (isDigits character digit))
      · decide
      · decide
  | words _ areTypeWords =>
      rcases mem_of_mem_joinWords member with rfl | ⟨word, listed, member⟩
      · decide
      · exact inWord ((areTypeWords word listed).characters character member)

/-! ## Labels of labels -/

theorem wordsFrom_of_visible {text : List Char}
    (visible : ∀ character ∈ text, isBlank character = false) (word : List Char) :
    wordsFrom word text = if (word ++ text).isEmpty then [] else [word ++ text] := by
  induction text generalizing word with
  | nil => rw [wordsFrom, List.append_nil]
  | cons character text induction =>
      rw [wordsFrom, visible character (List.mem_cons_self ..)]
      simp only [Bool.false_eq_true, if_false]
      rw [induction fun other member => visible other (List.mem_cons_of_mem _ member),
        List.append_assoc]
      rfl

theorem collapse_of_visible {text : List Char}
    (visible : ∀ character ∈ text, isBlank character = false) : collapse text = text := by
  rw [collapse, words, wordsFrom_of_visible visible, List.nil_append]
  cases text <;> rfl

theorem numberInParens?_digits {digits : List Char} (nonempty : digits ≠ [])
    (isDigits : ∀ character ∈ digits, character.isDigit = true) :
    numberInParens? ('(' :: (digits ++ [')'])) = some (digits, []) := by
  have visible {character : Char} {rest : List Char} (visible : isBlank character = false) :
      trimLeft (character :: rest) = character :: rest :=
    trimLeft_blanks allBlank_nil (bare_cons visible rest)
  have parts := takeWhile_of_stop digits [')']
    (fun character member => of_isDigit isDigit (by decide) (isDigits character member))
    (by simp; decide)
  rcases List.exists_cons_of_ne_nil nonempty with ⟨first, others, rfl⟩
  have shown : isBlank first = false :=
    isBlank_eq_false_of_isWord (isWord_of_isDigit (isDigits first (List.mem_cons_self ..)))
  have read : digitsAt? (first :: (others ++ [')'])) = some (first :: others, [')']) := by
    rw [List.cons_append] at parts
    rw [digitsAt?, parts.1, parts.2]
  rw [numberInParens?, visible (by decide)]
  simp only [afterChar?, if_true, Option.bind_eq_bind, Option.bind_some, List.cons_append]
  rw [visible shown, read]
  simp only [Option.bind_some]
  rw [visible (by decide)]
  rfl

theorem typeLabel_varchar {digits : List Char} (nonempty : digits ≠ [])
    (isDigits : ∀ character ∈ digits, character.isDigit = true) :
    typeLabel (varcharLabel digits) = varcharLabel digits := by
  have visible : ∀ character ∈ varcharLabel digits, isBlank character = false := by
    intro character member
    rcases @mem_sizedType varcharWord _ _ member with member | digit | rfl | rfl
    · exact isBlank_eq_false_of_isWord (isWord_varcharWord character member)
    · exact isBlank_eq_false_of_isWord (isWord_of_isDigit (isDigits character digit))
    · decide
    · decide
  have notVarying : afterPhrase? ["character".toList, "varying".toList] (varcharLabel digits) =
      none := by
    rw [Option.eq_none_iff_forall_ne_some]
    intro after found
    rcases exists_word_of_afterPhrase? found with ⟨word, more, whole, read⟩
    cases word with
    | nil => cases read
    | cons letter word =>
        cases (List.cons.inj whole).1
        cases (List.cons.inj read).1
  have varchar : afterKeyword? "varchar".toList (varcharLabel digits) =
      some ('(' :: (digits ++ [')'])) :=
    afterKeyword?_eq_some.mpr ⟨varcharWord, rfl, by decide⟩
  have sized : varcharLength? (varcharLabel digits) = some digits := by
    have rest := congrArg₂ Option.or notVarying varchar
    have number := congrArg (Option.map Prod.fst) (numberInParens?_digits nonempty isDigits)
    have here : sizedVarcharAt? (varcharLabel digits) = some digits :=
      (congrArg (Option.bind · fun rest => (numberInParens? rest).map Prod.fst) rest).trans number
    exact congrArg (Option.or · _) here
  rw [typeLabel, collapse_of_visible visible, sized]
  rfl

theorem PlainLabel.typeLabel_eq {label : List Char} (plain : PlainLabel label) :
    typeLabel label = label := by
  cases plain with
  | varchar nonempty isDigits => exact typeLabel_varchar nonempty isDigits
  | words _ _ own => exact own

/-! ## Plain types -/

theorem exists_front_of_joinWords {words : List (List Char)} (nonempty : words ≠ []) :
    ∃ front, ∃ word ∈ words, joinWords words = front ++ word := by
  fun_induction joinWords words with
  | case1 => exact absurd rfl nonempty
  | case2 word => exact ⟨[], word, List.mem_singleton_self word, rfl⟩
  | case3 word words more induction =>
      rcases induction more with ⟨front, last, listed, joined⟩
      exact ⟨word ++ ' ' :: front, last, List.mem_cons_of_mem _ listed, by rw [joined]; simp⟩

theorem isLower_of_mem_typeEnds :
    ∀ keyword ∈ typeEnds, keyword ≠ [] ∧ ∀ letter ∈ keyword, letter.isLower = true := by
  have checked : ∀ keyword ∈ typeEnds, keyword ≠ [] ∧ keyword.all Char.isLower = true := by decide
  simpa using checked

theorem digits_not_mem_typeEnds {digits : List Char} (nonempty : digits ≠ [])
    (isDigits : ∀ character ∈ digits, character.isDigit = true) : digits.map fold ∉ typeEnds := by
  intro listed
  rcases List.exists_cons_of_ne_nil nonempty with ⟨first, others, rfl⟩
  have lower := (isLower_of_mem_typeEnds _ listed).2 (fold first) (List.mem_cons_self ..)
  have upper : (!(fold first).isLower) = true :=
    of_isDigit (fun character => !(fold character).isLower) (by decide)
      (isDigits first (List.mem_cons_self ..))
  rw [lower] at upper
  cases upper

theorem IsTypeWord.isWord {word : List Char} (isTypeWord : IsTypeWord word) :
    ∀ character ∈ word, isWord character = true :=
  fun character member => of_isTypeCharacter Text.isWord (by decide) (by decide) (by decide)
    (isTypeWord.characters character member)

theorem IsTypeWord.not_mem {word : List Char} (isTypeWord : IsTypeWord word) {character : Char}
    (other : isTypeCharacter character = false) : character ∉ word := by
  intro member
  rw [isTypeWord.characters character member] at other
  cases other

theorem IsTypeWord.exists_first {word : List Char} (isTypeWord : IsTypeWord word) :
    ∃ first rest, word = first :: rest ∧ isNameStart first = true := by
  cases word with
  | nil => cases isTypeWord.starts
  | cons first rest => exact ⟨first, rest, rfl, isNameStart_of_isUpper isTypeWord.starts⟩

namespace PlainType

variable {type : List Char}

theorem exists_first (plain : PlainType type) :
    ∃ first rest, type = first :: rest ∧ isNameStart first = true := by
  cases plain with
  | sized isTypeWord =>
      rcases isTypeWord.exists_first with ⟨first, rest, rfl, starts⟩
      exact ⟨first, _, rfl, starts⟩
  | @words words nonempty areTypeWords =>
      rcases List.exists_cons_of_ne_nil nonempty with ⟨word, others, rfl⟩
      rcases (areTypeWords word (List.mem_cons_self ..)).exists_first with
        ⟨first, rest, rfl, starts⟩
      cases others with
      | nil => exact ⟨first, rest, rfl, starts⟩
      | cons => exact ⟨first, _, rfl, starts⟩

theorem bare_append (plain : PlainType type) (after : List Char) : Bare (type ++ after) := by
  rcases plain.exists_first with ⟨first, rest, rfl, starts⟩
  simp only [isNameStart, Bool.and_eq_true] at starts
  exact bare_cons (isBlank_eq_false_of_isWord starts.1) (rest ++ after)

theorem trimmed (plain : PlainType type) : Trimmed type := by
  constructor
  · simpa using plain.bare_append []
  · intro character last
    cases plain with
    | sized =>
        rw [sizedType, ← List.cons_append, ← List.append_assoc, List.getLast?_concat] at last
        cases last
        decide
    | words nonempty areTypeWords =>
        rcases exists_front_of_joinWords nonempty with ⟨front, word, listed, joined⟩
        rcases List.eq_nil_or_concat word with rfl | ⟨inside, final, rfl⟩
        · cases (areTypeWords [] listed).starts
        · rw [joined, List.concat_eq_append, ← List.append_assoc, List.getLast?_concat] at last
          cases last
          exact isBlank_eq_false_of_isWord ((areTypeWords _ listed).isWord _ (by simp))

theorem startsType_eq_true (plain : PlainType type) : startsType type = true := by
  rcases plain.exists_first with ⟨first, rest, rfl, starts⟩
  rw [startsType, starts]
  rfl

theorem free (plain : PlainType type) : ∀ character ∈ type, character ∉ openers := by
  have all : ∀ character ∈ typeCharacters, character ∉ openers :=
    List.all_iff_forall_prop.mp (by decide)
  exact fun character member => all character (plain.mem_typeCharacters member)

theorem uncut (plain : PlainType type) : ',' ∉ type := by
  intro member
  have none : ',' ∉ typeCharacters := by decide
  exact none (plain.mem_typeCharacters member)

theorem balanced (plain : PlainType type) : Balanced type := by
  cases plain with
  | @sized word digits isTypeWord nonempty isDigits =>
      have absent (parenthesis : Char) (other : parenthesis.isDigit = false) :
          parenthesis ∉ digits := by
        intro member
        rw [isDigits parenthesis member] at other
        cases other
      have front : Balanced word :=
        .of_not_mem (isTypeWord.not_mem (by decide)) (isTypeWord.not_mem (by decide))
      have inside : Balanced digits := .of_not_mem (absent '(' (by decide)) (absent ')' (by decide))
      have deeper := depthAfter?_add inside 1
      rw [Balanced, sizedType, depthAfter?_append, front, Option.bind_some, depthAfter?_open,
        depthAfter?_append, deeper]
      rfl
  | @words words _ areTypeWords =>
      have absent (parenthesis : Char) (visible : parenthesis ≠ ' ')
          (other : isTypeCharacter parenthesis = false) : parenthesis ∉ joinWords words := by
        intro member
        rcases mem_of_mem_joinWords member with blank | ⟨word, listed, member⟩
        · exact visible blank
        · exact (areTypeWords word listed).not_mem other member
      exact .of_not_mem (absent '(' (by decide) (by decide)) (absent ')' (by decide) (by decide))

/-- The words of a type start no constraint of a column. -/
theorem passesOver (plain : PlainType type) {here : Option Char → List Char → Bool}
    (starts : StartsWords here)
    (fails : ∀ word, (∀ character ∈ word, isWord character = true) →
      word.map fold ∉ typeEnds → Fails here word) : PassesOver here type := by
  cases plain with
  | @sized word digits isTypeWord nonempty isDigits =>
      intro rest
      have opens : isWord '(' = false := by decide
      have closes : isWord ')' = false := by decide
      have isWords : ∀ character ∈ digits, isWord character = true :=
        fun character member => isWord_of_isDigit (isDigits character member)
      have whole : sizedType word digits ++ ' ' :: rest =
          word ++ '(' :: (digits ++ ')' :: (' ' :: rest)) := by
        simp [sizedType]
      rw [whole, findPlace?_word starts isTypeWord.isWord opens
        (fails _ isTypeWord.isWord isTypeWord.free _ _ opens), findPlace?_word starts isWords closes
        (fails _ isWords (digits_not_mem_typeEnds nonempty isDigits) _ _ closes),
        findPlace?_gap starts (by decide), Option.map_map, Option.map_map]
      congr 1
      funext place
      simp only [Function.comp_apply, sizedType, List.length_append, List.length_cons,
        List.length_nil]
      omega
  | words nonempty areTypeWords =>
      apply passesOver_joinWords starts nonempty
      · exact fun word listed => (areTypeWords word listed).isWord
      · exact fun word listed =>
          fails word (areTypeWords word listed).isWord (areTypeWords word listed).free

end PlainType

end TableSchema.Sql
