import Mathlib.Tactic.IntervalCases
import TableSchema.Data.JsonReader
import TableSchema.Data.JsonWriter

/-! # JSON strings

Every character of a text has a written form of ASCII characters inside a JSON string, and the
reader takes it back to the character's code point. So a string is read as the code points that were
written, whatever follows it.
-/

namespace TableSchema.Data

open Text

/-! ## ASCII -/

def IsAscii (text : List Char) : Prop := ∀ character ∈ text, character.toNat < 0x80

@[simp] theorem isAscii_nil : IsAscii [] := by simp [IsAscii]

@[simp] theorem isAscii_cons {character : Char} {rest : List Char} :
    IsAscii (character :: rest) ↔ character.toNat < 0x80 ∧ IsAscii rest := by
  simp [IsAscii]

@[simp] theorem isAscii_append {first second : List Char} :
    IsAscii (first ++ second) ↔ IsAscii first ∧ IsAscii second := by
  simp [IsAscii, or_imp, forall_and]

theorem isAscii_hexDigits (width number : Nat) : IsAscii (hexDigits width number) := by
  have all : ∀ digit < 16, (Nat.digitChar digit).toNat < 0x80 := by decide
  induction width generalizing number with
  | zero => exact isAscii_nil
  | succ width induction =>
      simp [hexDigits, induction, all _ (Nat.mod_lt number (by decide : 0 < 16))]

theorem isAscii_unitEscape (unit : Nat) : IsAscii (unitEscape unit) := by
  simp [unitEscape, isAscii_hexDigits]

theorem jsonChar_cases (character : Char) :
    (∃ letter, jsonChar character = ['\\', letter] ∧ letter.toNat < 0x80 ∧ letter ≠ 'u' ∧
      shortEscape? letter = some character) ∨
    (jsonChar character = [character] ∧ character ≠ '"' ∧ character ≠ '\\' ∧
      0x20 ≤ character.toNat ∧ character.toNat < 0x7F) ∨
    jsonChar character = codePointEscape character.toNat := by
  have named {code : Nat} (same : character.toNat = code) : Char.ofNat code = character := by
    rw [← same, Char.ofNat_toNat]
  unfold jsonChar
  simp only
  split
  · rename_i quotes
    left
    rcases quotes with rfl | rfl <;> exact ⟨_, rfl, by decide, by decide, rfl⟩
  split
  · rename_i _ same
    exact .inl ⟨'n', rfl, by decide, by decide, congrArg some same.symm⟩
  split
  · rename_i same
    exact .inl ⟨'r', rfl, by decide, by decide, congrArg some same.symm⟩
  split
  · rename_i same
    exact .inl ⟨'t', rfl, by decide, by decide, congrArg some same.symm⟩
  split
  · rename_i code
    exact .inl ⟨'b', rfl, by decide, by decide, congrArg some (named code)⟩
  split
  · rename_i code
    exact .inl ⟨'f', rfl, by decide, by decide, congrArg some (named code)⟩
  split
  · rename_i quotes _ _ _ _ _ range
    rw [not_or] at quotes
    exact .inr (.inl ⟨rfl, quotes.1, quotes.2, range⟩)
  · exact .inr (.inr rfl)

theorem isAscii_jsonChar (character : Char) : IsAscii (jsonChar character) := by
  rcases jsonChar_cases character with
    ⟨letter, written, ascii, -⟩ | ⟨written, -, -, range⟩ | written
  · simp [written, ascii]
  · rw [written, isAscii_cons]
    exact ⟨by omega, isAscii_nil⟩
  · rw [written, codePointEscape]
    split <;> simp [isAscii_unitEscape]

theorem isAscii_jsonString (text : List Char) : IsAscii (jsonString text) := by
  have inside : IsAscii (text.flatMap jsonChar) := by
    intro character member
    obtain ⟨source, -, member⟩ := List.mem_flatMap.mp member
    exact isAscii_jsonChar source character member
  simp [jsonString, inside]

/-! ## Answers of readers -/

def Leaves (answer : JsonRead (α × Cursor)) (part : α) (rest : List Char) : Prop :=
  ∃ place, answer = .ok (part, ⟨place, rest⟩)

theorem Leaves.map {answer : JsonRead (α × Cursor)} {part : α} {rest : List Char}
    (leaves : Leaves answer part rest) (change : α → β) :
    Leaves ((fun (read, after) => (change read, after)) <$> answer) (change part) rest := by
  obtain ⟨place, rfl⟩ := leaves
  exact ⟨place, rfl⟩

/-! ## Hexadecimal digits -/

theorem hexDigitValue?_digitChar {digit : Nat} (small : digit < 16) :
    hexDigitValue? (Nat.digitChar digit) = some digit := by
  interval_cases digit <;> decide

theorem length_hexDigits (width number : Nat) : (hexDigits width number).length = width := by
  induction width generalizing number with
  | zero => rfl
  | succ width induction => simp [hexDigits, induction]

theorem foldlM_hexDigits (width number start : Nat) :
    (hexDigits width number).foldlM
        (fun value digit => (hexDigitValue? digit).map (value * 16 + ·)) start =
      some (start * 16 ^ width + number % 16 ^ width) := by
  induction width generalizing number with
  | zero => simp [hexDigits, Nat.mod_one]
  | succ width induction =>
      rw [hexDigits, List.foldlM_append, induction]
      have last := hexDigitValue?_digitChar (Nat.mod_lt number (by decide : 0 < 16))
      have split : number % 16 ^ (width + 1) = number / 16 % 16 ^ width * 16 + number % 16 := by
        rw [Nat.pow_succ', Nat.mod_mul]
        omega
      rw [split]
      simp only [Option.bind_eq_bind, Option.bind_some, List.foldlM_cons, last, Option.map_some,
        List.foldlM_nil, Option.pure_def, Nat.pow_succ, Nat.add_mul, Nat.mul_assoc, Nat.add_assoc]

theorem hexUnit?_hexDigits {unit : Nat} (small : unit < 0x10000) :
    hexUnit? (hexDigits 4 unit) = some unit := by
  rw [hexUnit?, if_pos (length_hexDigits 4 unit), foldlM_hexDigits]
  simp [Nat.mod_eq_of_lt small]

theorem hexDigits_in_front (unit : Nat) {rest : List Char} (more : rest ≠ []) :
    ¬ (hexDigits 4 unit ++ rest).length ≤ 4 ∧
      (hexDigits 4 unit ++ rest).take 4 = hexDigits 4 unit ∧
      (hexDigits 4 unit ++ rest).drop 4 = rest := by
  have digits := length_hexDigits 4 unit
  have more := List.length_pos_iff.mpr more
  refine ⟨?_, List.take_left' digits, List.drop_left' digits⟩
  rw [List.length_append, digits]
  omega

theorem lowUnit?_unitEscape {rest : List Char} (more : rest ≠ []) {unit : Nat}
    (low : 0xDC00 ≤ unit ∧ unit ≤ 0xDFFF) : lowUnit? (unitEscape unit ++ rest) = some unit := by
  obtain ⟨long, first, -⟩ := hexDigits_in_front unit more
  rw [unitEscape, List.cons_append, List.cons_append, lowUnit?, if_neg long, first,
    hexUnit?_hexDigits (by omega)]
  simp [low]

/-! ## Strings -/

theorem jsonStringFrom_skip (opening place : Nat) (escape rest : List Char) :
    jsonStringFrom opening place escape.length (escape ++ rest) =
      jsonStringFrom opening (place + escape.length) 0 rest := by
  induction escape generalizing place with
  | nil => rfl
  | cons character escape induction =>
      rw [List.cons_append, List.length_cons, jsonStringFrom, induction]
      congr 1
      omega

section Strings

variable {opening : Nat} {rest after : List Char} {points : List Nat}

def IsRestOfString (opening : Nat) (text : List Char) (points : List Nat) (after : List Char) :
    Prop :=
  ∀ place, Leaves (jsonStringFrom opening place 0 text) points after

theorem isRestOfString_quote (opening : Nat) (after : List Char) :
    IsRestOfString opening ('"' :: after) [] after := by
  intro place
  exact ⟨place + 1, by simp [jsonStringFrom]⟩

theorem IsRestOfString.ne_nil (read : IsRestOfString opening rest points after) : rest ≠ [] := by
  rintro rfl
  obtain ⟨place, read⟩ := read 0
  simp [jsonStringFrom] at read

theorem IsRestOfString.cons (read : IsRestOfString opening rest points after) {character : Char}
    (quote : character ≠ '"') (backslash : character ≠ '\\') (late : 0x20 ≤ character.toNat) :
    IsRestOfString opening (character :: rest) (character.toNat :: points) after := by
  intro place
  rw [jsonStringFrom.eq_def]
  simp only [quote, backslash, if_false, Nat.not_lt.mpr late]
  exact (read (place + 1)).map (character.toNat :: ·)

theorem IsRestOfString.shortEscape (read : IsRestOfString opening rest points after)
    {letter meant : Char} (named : shortEscape? letter = some meant) (other : letter ≠ 'u') :
    IsRestOfString opening ('\\' :: letter :: rest) (meant.toNat :: points) after := by
  intro place
  rw [jsonStringFrom.eq_def]
  simp only [Char.reduceEq, if_false, if_true, named]
  exact (read (place + 1 + 1)).map (meant.toNat :: ·)

theorem IsRestOfString.unitEscape (read : IsRestOfString opening rest points after) {unit : Nat}
    (small : unit < 0x10000) (whole : ¬ (0xD800 ≤ unit ∧ unit ≤ 0xDBFF)) :
    IsRestOfString opening (unitEscape unit ++ rest) (unit :: points) after := by
  intro place
  obtain ⟨long, first, -⟩ := hexDigits_in_front unit read.ne_nil
  have skipped := jsonStringFrom_skip opening (place + 1) ('u' :: hexDigits 4 unit) rest
  rw [List.length_cons, length_hexDigits] at skipped
  rw [Data.unitEscape, jsonStringFrom.eq_def]
  simp only [List.cons_append, Char.reduceEq, if_false, if_true, long, first,
    hexUnit?_hexDigits small, whole]
  rw [← List.cons_append, skipped]
  exact (read _).map (unit :: ·)

theorem IsRestOfString.pairEscape (read : IsRestOfString opening rest points after)
    {high low code : Nat} (isHigh : 0xD800 ≤ high ∧ high ≤ 0xDBFF)
    (isLow : 0xDC00 ≤ low ∧ low ≤ 0xDFFF)
    (joined : 0x10000 + (high - 0xD800) * 0x400 + (low - 0xDC00) = code) :
    IsRestOfString opening (Data.unitEscape high ++ Data.unitEscape low ++ rest) (code :: points)
      after := by
  intro place
  have more : Data.unitEscape low ++ rest ≠ [] := by simp [Data.unitEscape]
  obtain ⟨long, first, second⟩ := hexDigits_in_front high more
  -- Both escapes are passed over at once: what is left of the first one, and all of the second.
  have skipped := jsonStringFrom_skip opening (place + 1)
    ('u' :: hexDigits 4 high ++ Data.unitEscape low) rest
  have eleven : ('u' :: hexDigits 4 high ++ Data.unitEscape low).length = 11 := by
    simp [Data.unitEscape, length_hexDigits]
  rw [eleven, List.append_assoc] at skipped
  rw [List.append_assoc]
  nth_rewrite 1 [Data.unitEscape]
  rw [jsonStringFrom.eq_def]
  simp only [List.cons_append, Char.reduceEq, if_false, if_true, long, first, second,
    hexUnit?_hexDigits (show high < 0x10000 by omega), isHigh, and_self,
    lowUnit?_unitEscape read.ne_nil isLow, joined]
  rw [List.cons_append] at skipped
  rw [skipped]
  exact (read _).map (code :: ·)

theorem valid_toNat (character : Char) :
    character.toNat < 0xD800 ∨ 0xDFFF < character.toNat ∧ character.toNat < 0x110000 :=
  character.valid

theorem IsRestOfString.codePointEscape (read : IsRestOfString opening rest points after)
    (character : Char) :
    IsRestOfString opening (codePointEscape character.toNat ++ rest) (character.toNat :: points)
      after := by
  have valid := valid_toNat character
  rw [Data.codePointEscape]
  split
  · rename_i small
    exact read.unitEscape small (by omega)
  · exact read.pairEscape (by omega) (by omega) (by omega)

theorem IsRestOfString.jsonChar (read : IsRestOfString opening rest points after)
    (character : Char) :
    IsRestOfString opening (jsonChar character ++ rest) (character.toNat :: points) after := by
  rcases jsonChar_cases character with
    ⟨letter, written, -, other, named⟩ | ⟨written, quote, backslash, range⟩ | written
  · rw [written]
    exact read.shortEscape named other
  · rw [written]
    exact read.cons quote backslash range.1
  · rw [written]
    exact read.codePointEscape character

theorem isRestOfString_text (opening : Nat) (text after : List Char) :
    IsRestOfString opening (text.flatMap Data.jsonChar ++ '"' :: after) (text.map Char.toNat)
      after := by
  induction text with
  | nil => exact isRestOfString_quote opening after
  | cons character rest induction =>
      rw [List.flatMap_cons, List.append_assoc]
      exact induction.jsonChar character

end Strings

theorem readJsonString_jsonString (place : Nat) (text after : List Char) :
    Leaves (readJsonString ((Cursor.mk place (jsonString text ++ after)).skip 1))
      (text.map Char.toNat) after := by
  have read := isRestOfString_text place text after (place + 1)
  rw [jsonString, List.append_assoc]
  exact read

theorem isCharacter_toNat (character : Char) : Value.isCharacter character.toNat = true := by
  rw [Value.isCharacter, Bool.or_eq_true, decide_eq_true_iff, decide_eq_true_iff]
  exact (valid_toNat character).imp_right And.left

theorem ofCodePoints_toNat (text : String) :
    Value.ofCodePoints (text.toList.map Char.toNat) = .text text := by
  have whole : (text.toList.map Char.toNat).all Value.isCharacter = true := by
    simp [List.all_map, Function.comp_def, isCharacter_toNat]
  rw [Value.ofCodePoints, if_pos whole]
  simp [Function.comp_def, Char.ofNat_toNat]

theorem map_keyChar_toNat (text : String) :
    String.ofList ((text.toList.map Char.toNat).map keyChar) = text := by
  have same (character : Char) : keyChar character.toNat = character := by
    rw [keyChar, if_pos (isCharacter_toNat character), Char.ofNat_toNat]
  simp [Function.comp_def, same]

end TableSchema.Data
