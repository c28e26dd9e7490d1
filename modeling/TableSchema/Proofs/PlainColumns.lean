import TableSchema.Proofs.Rereading
import TableSchema.Proofs.TypeLabels

/-! # Plain columns

A column is read back as a field of the same name if its name is quoted or an ordinary word, and its
type is plain.
-/

namespace TableSchema.Sql

open Text

/-! ## Names -/

/-- The name is a word without dollar signs, or it has to be quoted. -/
def Tame (name : List Char) : Prop := isPlainName name = true → '$' ∉ name

instance (name : List Char) : Decidable (Tame name) := inferInstanceAs (Decidable (_ → _))

/-- The words that a column name must not be, however their letters are written: they start
constraints of tables, or take a NOT NULL from the column. -/
def reservedWords : List (List Char) := [
  "primary".toList, "foreign".toList, "unique".toList, "check".toList, "constraint".toList,
  "like".toList, "exclude".toList, "default".toList]

structure IsColumnName (name : List Char) : Prop where
  nonempty : name ≠ []
  tame : Tame name
  free : isPlainName name = true → name.map fold ∉ reservedWords

namespace Tame

variable {name : List Char}

theorem isWords (tame : Tame name) (plain : isPlainName name = true) :
    ∀ character ∈ name, isWord character = true := by
  intro character member
  have part := isNamePart_of_isPlainName plain member
  simp only [isNamePart, Bool.or_eq_true, beq_iff_eq] at part
  rcases part with word | rfl
  · exact word
  · exact absurd member (tame plain)

theorem readable (tame : Tame name) : Readable name := by
  intro plain
  exact SelfContained.scan_of_free fun character member =>
    not_mem_openers_of_isWord (tame.isWords plain character member)

/-- No region opens in what follows the name, so the mask of a column is that of its name. -/
theorem mask_append (tame : Tame name) {rest : List Char}
    (free : ∀ character ∈ rest, character ∉ openers) :
    mask (quote name ++ ' ' :: rest) = mask (quote name) ++ ' ' :: rest := by
  rw [tame.readable.selfContained.mask_append (by decide), SelfContained.mask_of_free free]

theorem findPlace?_mask (tame : Tame name) {here : Option Char → List Char → Bool}
    (starts : StartsWords here) {rest : List Char}
    (fails : isPlainName name = true → here none (name ++ ' ' :: rest) = false) :
    findPlace? here none (mask (quote name) ++ ' ' :: rest) =
      (findPlace? here (some ' ') rest).map (· + ((quote name).length + 1)) := by
  rcases tame.readable.mask_cases with ⟨plain, same⟩ | ⟨inside, same, hidden⟩
  · rw [same, quote_of_plain plain]
    exact findPlace?_word starts (tame.isWords plain) (by decide) (fails plain)
  · rw [← length_mask (quote name), same]
    apply findPlace?_gaps starts
    intro character member
    have visible : character = '"' ∨ character = ' ' ∨ character = '\n' := by
      rcases List.mem_cons.mp member with equal | member
      · exact .inl equal
      · rcases List.mem_append.mp member with member | last
        · exact .inr (hidden character member)
        · exact .inl (List.mem_singleton.mp last)
    rcases visible with rfl | rfl | rfl <;> decide

end Tame

/-! ## Columns -/

theorem SelfContained.literal_of_mem_scan {text : List Char} (contained : SelfContained text)
    {region : Region} (member : region ∈ scan text) :
    region.kind.isLiteral = true ∧ region.stop ≤ text.length := by
  rcases exists_segment_of_mem_regionsFrom member with ⟨inside, listed, _⟩
  rw [RegionKind.isLiteral, contained.uncommented _ inside listed]
  exact ⟨rfl, (bounds_of_mem_scan member).2⟩

theorem free_nullWords (required : Bool) :
    ∀ character ∈ nullWords required, character ∉ openers ∧ character ≠ ',' := by
  cases required <;> exact List.all_iff_forall_prop.mp (by decide)

theorem exists_nullWords (required : Bool) : ∃ words, nullWords required = ' ' :: words := by
  cases required with
  | false => exact ⟨['N', 'U', 'L', 'L'], rfl⟩
  | true => exact ⟨['N', 'O', 'T', ' ', 'N', 'U', 'L', 'L'], rfl⟩

theorem balanced_nullWords (required : Bool) : Balanced (nullWords required) := by
  cases required <;> rfl

theorem cutsFrom_of_not_mem {text : List Char} (uncut : ',' ∉ text) (place : Nat) (depth : Int) :
    cutsFrom place depth text = [] := by
  fun_induction cutsFrom place depth text with
  | case1 => rfl
  | case2 _ _ _ induction | case3 _ _ _ _ induction | case5 _ _ _ _ _ _ _ induction =>
      exact induction fun member => uncut (List.mem_cons_of_mem _ member)
  | case4 _ _ _ _ _ _ comma => exact absurd (comma.1 ▸ List.mem_cons_self ..) uncut

section

variable {name type : List Char}

theorem free_type (plain : PlainType type) (required : Bool) :
    ∀ character ∈ type ++ nullWords required, character ∉ openers := by
  intro character member
  rcases List.mem_append.mp member with member | member
  · exact plain.free character member
  · exact (free_nullWords required character member).1

theorem selfContained_column (tame : Tame name) (plain : PlainType type) (required : Bool) :
    SelfContained (columnText name type required) :=
  tame.readable.selfContained.append (by decide) (.of_free (free_type plain required))

theorem mask_columnText (tame : Tame name) (plain : PlainType type) (required : Bool) :
    mask (columnText name type required) =
      mask (quote name) ++ ' ' :: (type ++ nullWords required) :=
  tame.mask_append (free_type plain required)

theorem enclosed_column (tame : Tame name) (plain : PlainType type) (required : Bool) :
    Enclosed (columnText name type required) := by
  have masked := mask_columnText tame plain required
  have unnamed {character : Char} (other : character ≠ '"') (blank : character ∉ [' ', '\n'])
      (outside : isNamePart character = false) : character ∉ mask (quote name) :=
    tame.readable.not_mem_mask other blank outside
  constructor
  · intro region member
    have listed : region ∈ scan (quote name) := by
      rw [scan, columnText, tame.readable.selfContained.segments_append (by decide),
        regionsFrom_append, SelfContained.segments_of_free (free_type plain required), regionsFrom,
        SelfContained.regionsFrom_map_code, List.append_nil] at member
      exact member
    have bounds := tame.readable.selfContained.literal_of_mem_scan listed
    refine ⟨bounds.1, ?_⟩
    rw [columnText, List.length_append, List.length_cons]
    omega
  · have balanced : Balanced (mask (quote name)) :=
      .of_not_mem (unnamed (by decide) (by decide) (by decide))
        (unnamed (by decide) (by decide) (by decide))
    have blank : Balanced [' '] := rfl
    rw [masked]
    exact balanced.append (blank.append (plain.balanced.append (balanced_nullWords required)))
  · rw [cuts, masked]
    apply cutsFrom_of_not_mem
    intro member
    rcases List.mem_append.mp member with member | member
    · exact unnamed (by decide) (by decide) (by decide) member
    · rcases List.mem_cons.mp member with equal | member
      · cases equal
      · rcases List.mem_append.mp member with member | member
        · exact plain.uncut member
        · exact (free_nullWords required _ member).2 rfl

/-! ## Classification -/

theorem ofClause_column (tame : Tame name) (plain : PlainType type) (required : Bool) :
    ClauseView.ofClause (columnText name type required) =
      ⟨mask (quote name) ++ ' ' :: (type ++ nullWords required),
        columnText name type required, none⟩ := by
  have contained : Legible (segments (columnText name type required)) :=
    selfContained_column tame plain required
  have whole := SelfContained.textOf_segments (columnText name type required)
  have view := contained.ofClause_eq (by rw [whole]; exact trimmed_columnText name type required)
  rw [whole] at view
  rw [view, ← mask_columnText tame plain required]
  rfl

theorem isLower_of_mem_reservedWords :
    ∀ keyword ∈ reservedWords, keyword ≠ [] ∧ ∀ letter ∈ keyword, letter.isLower = true := by
  have checked : ∀ keyword ∈ reservedWords, keyword ≠ [] ∧ keyword.all Char.isLower = true := by
    decide
  simpa using checked

theorem name_fails (named : IsColumnName name) {keyword : List Char}
    (reserved : keyword ∈ reservedWords) (phrase : List (List Char)) (rest : List Char)
    (plain : isPlainName name = true) :
    wholeWordsAt (keyword :: phrase) none (name ++ ' ' :: rest) = false := by
  rw [Bool.eq_false_iff]
  intro whole
  apply named.free plain
  have stops : isWordAt (' ' :: rest).head? = false := by
    rw [List.head?_cons]
    decide
  rw [eq_of_wholeWordsAt (isLower_of_mem_reservedWords keyword reserved).2
    (named.tame.isWords plain) stops whole]
  exact reserved

theorem afterExclude_eq_false (named : IsColumnName name) (plain : isPlainName name = true)
    {rest after : List Char}
    (found : afterKeyword? "exclude".toList (name ++ ' ' :: rest) = some after) :
    afterExclude after = false := by
  have reserved : "exclude".toList ∈ reservedWords := by decide
  have lower := (isLower_of_mem_reservedWords _ reserved).2
  rcases afterKeyword?_eq_some.mp found with ⟨word, whole, read⟩
  cases inside : isWordAt after.head? with
  | false =>
      have stops : isWordAt (' ' :: rest).head? = false := by
        rw [List.head?_cons]
        decide
      rcases eq_of_words (named.tame.isWords plain) stops (isWord_of_read read lower) inside whole
        with ⟨rfl, _⟩
      exact absurd (read ▸ reserved) (named.free plain)
  | true =>
      cases after with
      | nil => cases inside
      | cons character after =>
          have visible := isBlank_eq_false_of_isWord inside
          have trimmed : trimLeft (character :: after) = character :: after :=
            trimLeft_blanks allBlank_nil (bare_cons visible after)
          have other : character ≠ '(' := by
            rintro rfl
            cases inside
          simp [afterExclude, trimmed, other, afterBlanks?, visible]

theorem startsConstraint_column (named : IsColumnName name) (rest : List Char) :
    startsConstraint (mask (quote name) ++ ' ' :: rest) = false := by
  have phrases : ∀ phrase ∈ constraintPhrases,
      ∃ keyword more, phrase = keyword :: more ∧ keyword ∈ reservedWords := by
    have heads : ∀ phrase ∈ constraintPhrases, phrase.head?.any (· ∈ reservedWords) = true := by
      decide
    intro phrase listed
    have head := heads phrase listed
    cases phrase with
    | nil => cases head
    | cons keyword more => exact ⟨keyword, more, rfl, by simpa using head⟩
  rw [startsConstraint, Bool.or_eq_false_iff, List.any_eq_false]
  rcases named.tame.readable.mask_cases with ⟨plain, same⟩ | ⟨inside, same, _⟩
  · rw [same]
    constructor
    · intro phrase listed whole
      rcases phrases phrase listed with ⟨keyword, more, rfl, reserved⟩
      rw [name_fails named reserved more rest plain] at whole
      cases whole
    · cases found : afterKeyword? "exclude".toList (name ++ ' ' :: rest) with
      | none => rfl
      | some after => exact afterExclude_eq_false named plain found
  · rw [same]
    constructor
    · intro phrase listed whole
      rcases phrases phrase listed with ⟨keyword, more, rfl, reserved⟩
      have lower := isLower_of_mem_reservedWords keyword reserved
      have outside : isWordAt ('"' :: (inside ++ ['"']) ++ ' ' :: rest).head? = false := by
        rw [List.cons_append, List.head?_cons]
        decide
      rw [(startsWords_wholeWordsAt lower.1 lower.2 more).outside none _ outside] at whole
      cases whole
    · have none : afterKeyword? "exclude".toList ('"' :: (inside ++ ['"']) ++ ' ' :: rest) =
          none := by
        rw [Option.eq_none_iff_forall_ne_some]
        intro after found
        rcases afterKeyword?_eq_some.mp found with ⟨word, whole, read⟩
        cases word with
        | nil => cases read
        | cons letter word =>
            cases (List.cons.inj whole).1
            cases (List.cons.inj read).1
      rw [none]
      rfl

/-! ### Searching for words -/

theorem fails_wholeWordsAt {keyword : List Char} (listed : keyword ∈ typeEnds)
    (phrase : List (List Char)) {word : List Char}
    (isWords : ∀ character ∈ word, isWord character = true) (other : word.map fold ∉ typeEnds) :
    Fails (wholeWordsAt (keyword :: phrase)) word := by
  intro previous rest stops
  rw [Bool.eq_false_iff]
  intro whole
  apply other
  rw [eq_of_wholeWordsAt (isLower_of_mem_typeEnds keyword listed).2 isWords stops whole]
  exact listed

theorem startsWords_of_mem_typeEnds {keyword : List Char} (listed : keyword ∈ typeEnds)
    (phrase : List (List Char)) : StartsWords (wholeWordsAt (keyword :: phrase)) :=
  startsWords_wholeWordsAt (isLower_of_mem_typeEnds keyword listed).1
    (isLower_of_mem_typeEnds keyword listed).2 phrase

theorem startsWords_typeEndsAt : StartsWords typeEndsAt where
  inside previous text inside := by
    rw [typeEndsAt, List.any_eq_false]
    intro keyword listed whole
    rw [(startsWords_of_mem_typeEnds listed []).inside previous text inside] at whole
    cases whole
  outside previous text outside := by
    rw [typeEndsAt, List.any_eq_false]
    intro keyword listed whole
    rw [(startsWords_of_mem_typeEnds listed []).outside previous text outside] at whole
    cases whole

theorem fails_typeEndsAt {word : List Char} (isWords : ∀ character ∈ word, isWord character = true)
    (other : word.map fold ∉ typeEnds) : Fails typeEndsAt word := by
  intro previous rest stops
  rw [typeEndsAt, List.any_eq_false]
  intro keyword listed whole
  rw [fails_wholeWordsAt listed [] isWords other previous rest stops] at whole
  cases whole

/-- A search for a keyword that no type holds finds nothing up to where null is spoken of, if the
name does not stop it. -/
theorem findPlace?_column (tame : Tame name) (plain : PlainType type) {keyword : List Char}
    (listed : keyword ∈ typeEnds) {phrase : List (List Char)} (rest : List Char)
    (named : isPlainName name = true →
      wholeWordsAt (keyword :: phrase) none (name ++ ' ' :: (type ++ ' ' :: rest)) = false) :
    findPlace? (wholeWordsAt (keyword :: phrase)) none
        (mask (quote name) ++ ' ' :: (type ++ ' ' :: rest)) =
      (findPlace? (wholeWordsAt (keyword :: phrase)) (some ' ') rest).map
        (· + ((quote name).length + 1 + (type.length + 1))) := by
  have starts := startsWords_of_mem_typeEnds listed phrase
  have passes := plain.passesOver starts fun word => fails_wholeWordsAt listed phrase
  rw [tame.findPlace?_mask starts named, passes, Option.map_map]
  congr 1
  funext place
  simp only [Function.comp_apply]
  omega

theorem saysPrimaryKey_column (named : IsColumnName name) (plain : PlainType type)
    (required : Bool) :
    saysPrimaryKey (mask (quote name) ++ ' ' :: (type ++ nullWords required)) = false := by
  have listed : "primary".toList ∈ typeEnds := by decide
  have reserved : "primary".toList ∈ reservedWords := by decide
  have passed (rest : List Char) := findPlace?_column named.tame plain listed rest
    (name_fails named reserved ["key".toList] (type ++ ' ' :: rest))
  have none : findPlace? (wholeWordsAt ["primary".toList, "key".toList]) none
      (mask (quote name) ++ ' ' :: (type ++ nullWords required)) = none := by
    cases required with
    | true => exact passed ['N', 'O', 'T', ' ', 'N', 'U', 'L', 'L']
    | false => exact passed ['N', 'U', 'L', 'L']
  exact congrArg Option.isSome none

theorem name_fails_notNull (isPlain : isPlainName name = true) (plain : PlainType type)
    (rest : List Char) :
    wholeWordsAt ["not".toList, "null".toList] none (name ++ ' ' :: (type ++ ' ' :: rest)) =
      false := by
  have listed : "not".toList ∈ typeEnds := by decide
  have nulls : "null".toList ∈ typeEnds := by decide
  rw [Bool.eq_false_iff]
  intro whole
  rw [wholeWordsAt_phrase (isLower_of_mem_typeEnds _ listed).2
    (fun _ => visible_of_isPlainName isPlain) (plain.bare_append _)] at whole
  have passes := plain.passesOver (startsWords_of_mem_typeEnds nulls [])
    fun word => fails_wholeWordsAt nulls []
  rw [passes.fails rest] at whole
  exact absurd whole.2.2 (by decide)

theorem take_column (name type rest : List Char) :
    (mask (quote name) ++ ' ' :: (type ++ ' ' :: rest)).take
        ((quote name).length + 1 + (type.length + 1)) =
      mask (quote name) ++ ' ' :: (type ++ [' ']) := by
  have whole : mask (quote name) ++ ' ' :: (type ++ ' ' :: rest) =
      (mask (quote name) ++ ' ' :: (type ++ [' '])) ++ rest := by
    simp
  rw [whole, List.take_left']
  simp only [List.length_append, List.length_cons, List.length_nil, length_mask]
  omega

theorem forbidsNull_column (named : IsColumnName name) (plain : PlainType type)
    (required : Bool) :
    forbidsNull (mask (quote name) ++ ' ' :: (type ++ nullWords required)) = required := by
  have listed : "not".toList ∈ typeEnds := by decide
  have passed (rest : List Char) := findPlace?_column named.tame plain listed rest
    fun isPlain => name_fails_notNull isPlain plain rest
  cases required with
  | false =>
      have none : findPlace? (wholeWordsAt ["not".toList, "null".toList]) none
          (mask (quote name) ++ ' ' :: (type ++ nullWords false)) = none :=
        passed ['N', 'U', 'L', 'L']
      simp only [forbidsNull, none]
  | true =>
      have found : findPlace? (wholeWordsAt ["not".toList, "null".toList]) none
          (mask (quote name) ++ ' ' :: (type ++ nullWords true)) =
            some (0 + ((quote name).length + 1 + (type.length + 1))) :=
        passed ['N', 'O', 'T', ' ', 'N', 'U', 'L', 'L']
      have defaults : "default".toList ∈ typeEnds := by decide
      have reserved : "default".toList ∈ reservedWords := by decide
      have free : findPlace? (wholeWordsAt ["default".toList]) none
          (mask (quote name) ++ ' ' :: (type ++ [' '])) = none :=
        findPlace?_column named.tame plain defaults []
          (name_fails named reserved [] (type ++ [' ']))
      have front := take_column name type ['N', 'O', 'T', ' ', 'N', 'U', 'L', 'L']
      have words : nullWords true = ' ' :: ['N', 'O', 'T', ' ', 'N', 'U', 'L', 'L'] := rfl
      rw [← words] at front
      simp only [forbidsNull, found, Nat.zero_add, front, occurs, free]
      rfl

/-- A column is read as a field with its name and the label of its type. A field of the name `id`
becomes the primary key. -/
theorem classify_column (named : IsColumnName name) (plain : PlainType type) (required : Bool) :
    classify (columnText name type required) = .ok
      { name := String.ofList name
        typeLabel := String.ofList (typeLabel type)
        required := name = ['i', 'd'] || required
        description := if name = ['i', 'd'] then some primaryKeyDescription else none } := by
  have nonempty : (mask (quote name) ++ ' ' :: (type ++ nullWords required)).isEmpty = false := by
    simp
  have read : columnName? (columnText name type required) =
      some (quote name, type ++ nullWords required) := by
    have code := trimLeft_blanks allBlank_nil (plain.bare_append (nullWords required))
    rw [List.nil_append] at code
    rw [columnText, columnName?_quote, code]
  have start : (columnText name type required).length - (type ++ nullWords required).length =
      (mask (quote name)).length + 1 := by
    simp only [columnText, List.length_append, List.length_cons, length_mask]
    omega
  have before : (mask (quote name) ++ ' ' :: (type ++ nullWords required))[
      (mask (quote name)).length + 1 - 1]? = some ' ' := by
    simp
  have behind : (mask (quote name) ++ ' ' :: (type ++ nullWords required)).drop
      ((mask (quote name)).length + 1) = type ++ nullWords required := by
    rw [List.drop_length_add_append]
    rfl
  have ends : findPlace? typeEndsAt (some ' ') (type ++ nullWords required) =
      some (0 + (type.length + 1)) := by
    have passes := plain.passesOver startsWords_typeEndsAt fun word => fails_typeEndsAt
    cases required with
    | true => exact passes ['N', 'O', 'T', ' ', 'N', 'U', 'L', 'L']
    | false => exact passes ['N', 'U', 'L', 'L']
  have raw : trim ((type ++ nullWords required).take (0 + (type.length + 1))) = type := by
    rcases exists_nullWords required with ⟨words, spoken⟩
    have whole : type ++ nullWords required = (type ++ [' ']) ++ words := by
      rw [spoken, List.append_assoc]
      rfl
    have length : (type ++ [' ']).length = 0 + (type.length + 1) := by simp
    rw [whole, List.take_left' length]
    exact trim_blanks allBlank_nil blank_allBlank plain.trimmed
  have named' : name.isEmpty = false := by simpa using named.nonempty
  rw [classify, ofClause_column named.tame plain, ClauseView.classify]
  simp only [nonempty, startsConstraint_column named, read, start, before, behind, ends,
    Option.getD_some, raw, unquote_quote, named', plain.startsType_eq_true,
    saysPrimaryKey_column named plain, forbidsNull_column named plain]
  simp only [Bool.false_eq_true, Bool.not_true, Bool.or_false, if_false, decide_eq_true_eq,
    Option.map_none, Option.none_or]

end

end TableSchema.Sql
