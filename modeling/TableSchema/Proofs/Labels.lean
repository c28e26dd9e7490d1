import TableSchema.Proofs.LetterCase
import TableSchema.Proofs.Marks

/-! # What labels are made of

A label has no mark that its raw type does not have, and it stands on one line.
-/

namespace TableSchema.Sql

open Text

def varcharOpening : List Char := "VARCHAR(".toList

/-! ## Upper case -/

theorem otherCase?_late {run : CaseRun} (listed : run ∈ upperRuns) {character made : Char}
    (found : run.otherCase? character = some made) : 0x41 ≤ made.toNat ∨ made.toNat = 0 := by
  have late : ∀ run ∈ upperRuns, 0x41 ≤ (run.range.first : Int) + run.distance := by
    decide +kernel
  have late := late run listed
  obtain ⟨bounds, -, place | zero⟩ := CaseRun.otherCase?_eq_some found
  · left
    rw [place, Int.ofNat_eq_natCast]
    omega
  · exact .inr zero

/-- Upper case keeps a character or makes letters of it, which stand behind all marks and blanks
of ASCII. -/
theorem upperChar_cases {character made : Char} (member : made ∈ upperChar character) :
    made = character ∨ 0x41 ≤ made.toNat ∨ made.toNat = 0 := by
  unfold upperChar at member
  split at member
  · rename_i ascii
    have all : ∀ code ∈ List.range 0x80, (Char.ofNat code).toUpper = Char.ofNat code ∨
        0x41 ≤ (Char.ofNat code).toUpper.toNat := by
      decide +kernel
    have here := all character.toNat (List.mem_range.mpr ascii)
    rw [Char.ofNat_toNat] at here
    rw [List.mem_singleton.mp member]
    exact here.imp id .inl
  · split at member
    · rename_i codes found
      have late : ∀ entry ∈ upperExpansions, ∀ code ∈ entry.2, 0x41 ≤ code := by decide
      rcases List.lookup_eq_some_iff.mp found with ⟨before, after, listed, _⟩
      rcases List.mem_map.mp member with ⟨code, inCodes, rfl⟩
      have bound := late (character.toNat, codes) (listed ▸ by simp) code inCodes
      right
      refine (toNat_ofNat_cases code).imp (fun same => ?_) id
      rw [same]
      exact bound
    · rw [List.mem_singleton.mp member]
      cases found : upperRuns.findSome? (·.otherCase? character) with
      | none => exact .inl rfl
      | some other =>
          rcases List.exists_of_findSome?_eq_some found with ⟨run, listed, made⟩
          exact .inr (otherCase?_late listed made)

theorem not_mem_upper {text : List Char} {character : Char} (absent : character ∉ text)
    (early : 0 < character.toNat ∧ character.toNat < 0x41) : character ∉ upper text := by
  intro member
  rcases List.mem_flatMap.mp member with ⟨original, inText, made⟩
  rcases upperChar_cases made with rfl | late | zero
  · exact absent inText
  · omega
  · omega

theorem markCount_upper_le (text : List Char) : markCount (upper text) ≤ markCount text := by
  have early : ∀ mark ∈ marks,
      0 < mark.toNat ∧ mark.toNat < 0x41 ∧ markCount (upperChar mark) = 1 :=
    List.all_iff_forall_prop.mp (by decide)
  induction text with
  | nil => exact Nat.le_refl _
  | cons character text induction =>
      change markCount (upperChar character ++ upper text) ≤ _
      rw [markCount_append, markCount_cons]
      by_cases isMark : character ∈ marks
      · rw [(early character isMark).2.2, if_pos isMark]
        omega
      · rw [if_neg isMark, markCount_eq_zero]
        · omega
        · intro made member
          rcases upperChar_cases member with rfl | late | zero
          · exact isMark
          · intro isMark
            have := early made isMark
            omega
          · intro isMark
            have := early made isMark
            omega

/-! ## Collapsing -/

theorem markCount_joinWords (words : List (List Char)) :
    markCount (joinWords words) = markCount words.flatten := by
  fun_induction joinWords words with
  | case1 => rfl
  | case2 word => simp
  | case3 word words _ induction =>
      rw [markCount_append, markCount_other (by decide), induction, List.flatten_cons,
        markCount_append]

theorem markCount_wordsFrom (word text : List Char) :
    markCount (wordsFrom word text).flatten = markCount word + markCount text := by
  fun_induction wordsFrom word text with
  | case1 word empty => simp_all
  | case2 word _ => simp
  | case3 word character rest blank empty induction =>
      have nothing : word = [] := by simpa using empty
      rw [induction, nothing, markCount_other (not_mem_marks_of_isBlank blank)]
  | case4 word character rest blank _ induction =>
      rw [List.flatten_cons, markCount_append, induction,
        markCount_other (not_mem_marks_of_isBlank blank), markCount_nil, Nat.zero_add]
  | case5 word character rest _ induction =>
      rw [induction, markCount_append, markCount_cons, markCount_cons, markCount_nil]
      omega

theorem markCount_collapse (text : List Char) : markCount (collapse text) = markCount text := by
  rw [collapse, markCount_joinWords, words, markCount_wordsFrom, markCount_nil, Nat.zero_add]

theorem visible_of_mem_wordsFrom {word text : List Char}
    (visible : ∀ character ∈ word, isBlank character = false) {other : List Char}
    (listed : other ∈ wordsFrom word text) {character : Char} (member : character ∈ other) :
    isBlank character = false := by
  fun_induction wordsFrom word text with
  | case1 => cases listed
  | case2 word => exact visible character (List.mem_singleton.mp listed ▸ member)
  | case3 word blank rest _ _ induction => exact induction (fun _ member => by cases member) listed
  | case4 word blank rest _ _ induction =>
      rcases List.mem_cons.mp listed with rfl | listed
      · exact visible character member
      · exact induction (fun _ member => by cases member) listed
  | case5 word next rest shown induction =>
      refine induction (fun other member => ?_) listed
      rcases List.mem_append.mp member with member | last
      · exact visible other member
      · rw [List.mem_singleton.mp last]
        exact Bool.not_eq_true _ |>.mp shown

theorem lineFeed_not_mem_collapse (text : List Char) : '\n' ∉ collapse text := by
  intro member
  rcases mem_of_mem_joinWords member with blank | ⟨word, listed, member⟩
  · cases blank
  · have shown := visible_of_mem_wordsFrom (fun _ member => by cases member) listed member
    cases shown

/-! ## Parameters -/

theorem markCount_withoutParameters_le (skip : Nat) (text : List Char) :
    markCount (withoutParameters skip text) ≤ markCount text := by
  fun_induction withoutParameters skip text with
  | case1 => exact Nat.le_refl _
  | case2 skip first rest induction =>
      exact Nat.le_trans induction (markCount_le_of_sublist (List.sublist_cons_self ..))
  | case3 first rest _ induction =>
      rw [markCount_other (by decide)]
      exact Nat.le_trans induction (markCount_le_of_sublist (List.sublist_cons_self ..))
  | case4 first rest _ induction =>
      rw [markCount_cons, markCount_cons]
      omega

/-! ## Lengths -/

theorem trimLeft_sublist (text : List Char) : (trimLeft text).Sublist text :=
  List.dropWhile_sublist isBlank

theorem of_numberInParens? {text digits after : List Char}
    (found : numberInParens? text = some (digits, after)) :
    2 ≤ markCount text ∧ ∀ character ∈ digits, isDigit character = true := by
  unfold numberInParens? at found
  simp only [Option.bind_eq_bind, Option.bind_eq_some_iff, afterChar?_eq_some, Prod.exists,
    Option.some.injEq, Prod.mk.injEq] at found
  rcases found with ⟨inside, opens, read, rest, digital, behind, closes, rfl, rfl⟩
  have parts : read = (trimLeft inside).takeWhile isDigit ∧
      rest = (trimLeft inside).dropWhile isDigit := by
    unfold digitsAt? at digital
    split at digital
    · cases digital
    · cases digital
      exact ⟨rfl, rfl⟩
  constructor
  · have opened := markCount_le_of_sublist (trimLeft_sublist text)
    have inner := markCount_le_of_sublist (trimLeft_sublist inside)
    have later := markCount_le_of_sublist (List.dropWhile_sublist isDigit (l := trimLeft inside))
    have closed := markCount_le_of_sublist (trimLeft_sublist rest)
    rw [opens, markCount_mark (by decide)] at opened
    rw [closes, markCount_mark (by decide)] at closed
    rw [← parts.2] at later
    omega
  · rw [parts.1]
    exact fun character => List.mem_takeWhile_imp

theorem exists_number_of_sizedVarcharAt? {text digits : List Char}
    (found : sizedVarcharAt? text = some digits) :
    ∃ word rest after, text = word ++ rest ∧ numberInParens? rest = some (digits, after) := by
  unfold sizedVarcharAt? at found
  simp only [Option.bind_eq_bind, Option.bind_eq_some_iff, Option.map_eq_some_iff] at found
  rcases found with ⟨rest, read, number, sized, rfl⟩
  rcases Option.or_eq_some_iff.mp read with varying | ⟨_, varchar⟩
  · rcases exists_read_of_afterPhrase? varying with ⟨word, whole, _⟩
    exact ⟨word, rest, number.2, whole, sized⟩
  · rcases afterKeyword?_eq_some.mp varchar with ⟨word, whole, _⟩
    exact ⟨word, rest, number.2, whole, sized⟩

theorem exists_number_of_varcharLength? {text digits : List Char}
    (found : varcharLength? text = some digits) :
    ∃ word rest after, text = word ++ rest ∧ numberInParens? rest = some (digits, after) := by
  induction text with
  | nil => cases found
  | cons character text induction =>
      rcases Option.or_eq_some_iff.mp found with here | ⟨_, later⟩
      · exact exists_number_of_sizedVarcharAt? here
      · rcases induction later with ⟨word, rest, after, rfl, number⟩
        exact ⟨character :: word, rest, after, rfl, number⟩

theorem of_varcharLength? {text digits : List Char} (found : varcharLength? text = some digits) :
    2 ≤ markCount text ∧ ∀ character ∈ digits, isDigit character = true := by
  rcases exists_number_of_varcharLength? found with ⟨word, rest, after, rfl, number⟩
  have counted := of_numberInParens? number
  rw [markCount_append]
  exact ⟨by omega, counted.2⟩

/-! ## Labels -/

theorem not_mem_marks_of_isDigit {character : Char} (digit : isDigit character = true) :
    character ∉ marks ∧ character ≠ '\n' := by
  refine ⟨not_mem_of_holds digit (by decide), ?_⟩
  rintro rfl
  cases digit

/-- The cases of a label: a character type with a length, a well-known type, or the raw type itself
without parameters. -/
theorem typeLabel_cases (rawType : List Char) :
    (∃ digits, varcharLength? (collapse rawType) = some digits ∧
      typeLabel rawType = varcharOpening ++ digits ++ [')']) ∨
    (∃ entry ∈ wellKnown, typeLabel rawType = entry.2.toList) ∨
    typeLabel rawType = upper (collapse (withoutParameters 0 (collapse rawType))) := by
  cases sized : varcharLength? (collapse rawType) with
  | some digits =>
      left
      refine ⟨digits, rfl, ?_⟩
      simp only [typeLabel, sized]
      rfl
  | none =>
      right
      cases known : wellKnown.find? fun entry => occurs entry.1 (collapse rawType) with
      | some entry =>
          left
          refine ⟨entry, List.mem_of_find?_eq_some known, ?_⟩
          simp only [typeLabel, sized, known]
      | none =>
          right
          simp only [typeLabel, sized, known]

theorem markCount_typeLabel_le (rawType : List Char) :
    markCount (typeLabel rawType) ≤ markCount rawType := by
  rw [← markCount_collapse rawType]
  rcases typeLabel_cases rawType with ⟨digits, found, label⟩ | ⟨entry, listed, label⟩ | label
  · have counted := of_varcharLength? found
    have none : markCount digits = 0 :=
      markCount_eq_zero fun character member =>
        (not_mem_marks_of_isDigit (counted.2 character member)).1
    have opening : markCount varcharOpening = 1 := by decide
    have closing : markCount [')'] = 1 := by decide
    rw [label, markCount_append, markCount_append, none, opening, closing]
    omega
  · have none : ∀ entry ∈ wellKnown, markCount entry.2.toList = 0 := by decide
    rw [label, none entry listed]
    exact Nat.zero_le _
  · rw [label]
    calc markCount (upper (collapse (withoutParameters 0 (collapse rawType))))
        ≤ markCount (collapse (withoutParameters 0 (collapse rawType))) := markCount_upper_le _
      _ = markCount (withoutParameters 0 (collapse rawType)) := markCount_collapse _
      _ ≤ markCount (collapse rawType) := markCount_withoutParameters_le 0 _

theorem lineFeed_not_mem_typeLabel (rawType : List Char) : '\n' ∉ typeLabel rawType := by
  rcases typeLabel_cases rawType with ⟨digits, found, label⟩ | ⟨entry, listed, label⟩ | label
  · rw [label]
    intro member
    have opening : '\n' ∉ varcharOpening := by decide
    rcases List.mem_append.mp member with member | last
    · rcases List.mem_append.mp member with member | digit
      · exact opening member
      · exact (not_mem_marks_of_isDigit ((of_varcharLength? found).2 _ digit)).2 rfl
    · cases List.mem_singleton.mp last
  · have none : ∀ entry ∈ wellKnown, '\n' ∉ entry.2.toList := by decide
    rw [label]
    exact none entry listed
  · rw [label]
    exact not_mem_upper (lineFeed_not_mem_collapse _) (by decide)

end TableSchema.Sql
