import Mathlib.Algebra.Group.Nat.Defs
import Mathlib.Tactic.SplitIfs
import TableSchema.Text.Utf8

/-! # Reading UTF-8

Octets are read as a text exactly if they are what the text is written as. A character is written as
a first octet, which says how many follow, and its last digits to the base 64.
-/

namespace TableSchema.Text.Utf8

/-! ## The end of a character -/

def continuation (number : Nat) : (count : Nat) → List UInt8
  | 0 => []
  | count + 1 => UInt8.ofNat (number / 64 ^ count % 64 + 0x80) :: continuation number count

theorem length_continuation (number count : Nat) : (continuation number count).length = count := by
  induction count with
  | zero => rfl
  | succ count induction => rw [continuation, List.length_cons, induction]

theorem length_opened (octet second : UInt8) (number count : Nat) :
    (octet :: second :: continuation number count).length = 2 + count := by
  rw [List.length_cons, List.length_cons, length_continuation]
  omega

def Completes (position count bits : Nat) (octets : List UInt8) (text : List Char) : Prop :=
  ∃ number rest more, octets = continuation number count ++ rest ∧ number / 64 ^ count = bits ∧
    text = Char.ofNat number :: more ∧ decodeFrom (position + count) none rest = .ok more

theorem map_eq_ok {ε α β : Type} {f : α → β} {first : Except ε α} {result : β} :
    f <$> first = .ok result ↔ ∃ value, first = .ok value ∧ f value = result := by
  cases first <;> simp [Functor.map, Except.map]

section

variable {position count bits : Nat} {octets : List UInt8} {text : List Char}

theorem completes_zero :
    Completes position 0 bits octets text ↔
      (Char.ofNat bits :: ·) <$> decodeFrom position none octets = .ok text := by
  rw [map_eq_ok]
  constructor
  · rintro ⟨number, rest, more, rfl, rfl, rfl, later⟩
    exact ⟨more, later, by rw [Nat.pow_zero, Nat.div_one]⟩
  · rintro ⟨more, later, rfl⟩
    exact ⟨bits, octets, more, rfl, Nat.div_one bits, rfl, later⟩

theorem completes_succ :
    Completes position (count + 1) bits octets text ↔
      ∃ octet rest, octets = octet :: rest ∧ (0x80 ≤ octet.toNat ∧ octet.toNat ≤ 0xBF) ∧
        Completes (position + 1) count (bits * 64 + (octet.toNat - 0x80)) rest text := by
  have shift (number : Nat) : number / 64 ^ (count + 1) = number / 64 ^ count / 64 := by
    rw [Nat.pow_succ, Nat.div_div_eq_div_mul]
  constructor
  · rintro ⟨number, rest, more, rfl, rfl, rfl, later⟩
    refine ⟨_, continuation number count ++ rest, rfl, ?_, number, rest, more, rfl, ?_, rfl, ?_⟩
    · rw [UInt8.toNat_ofNat']
      omega
    · rw [UInt8.toNat_ofNat', shift]
      omega
    · rwa [Nat.add_assoc, Nat.add_comm 1]
  · rintro ⟨octet, _, rfl, inside, number, rest, more, rfl, digits, rfl, later⟩
    refine ⟨number, rest, more, ?_, ?_, rfl, ?_⟩
    · have same : octet = UInt8.ofNat (number / 64 ^ count % 64 + 0x80) := by
        rw [← UInt8.toNat_inj, UInt8.toNat_ofNat']
        omega
      rw [continuation, List.cons_append, same]
    · rw [shift]
      omega
    · rwa [Nat.add_assoc, Nat.add_comm 1] at later

theorem exists_cons_iff {α : Type} {P : α → List α → Prop} {first : α} {rest : List α} :
    (∃ octet octets, first :: rest = octet :: octets ∧ P octet octets) ↔ P first rest := by
  constructor
  · rintro ⟨_, _, ⟨⟩, holds⟩
    exact holds
  · exact fun holds => ⟨first, rest, rfl, holds⟩

/-- In the middle of a character the digits that are missing are read, of which the first one may
have to be in a smaller range. -/
theorem decodeFrom_pending_eq_ok {low high : Nat} {read : List UInt8} :
    decodeFrom position (some ⟨count + 1, low, high, bits, read⟩) octets = .ok text ↔
      ∃ octet rest, octets = octet :: rest ∧ (low ≤ octet.toNat ∧ octet.toNat ≤ high) ∧
        Completes (position + 1) count (bits * 64 + (octet.toNat - 0x80)) rest text := by
  induction count generalizing position low high bits read octets with
  | zero =>
      cases octets with
      | nil => simp [decodeFrom]
      | cons octet octets =>
          rw [exists_cons_iff, completes_zero, decodeFrom]
          by_cases inside : low ≤ octet.toNat ∧ octet.toNat ≤ high <;> simp [inside]
  | succ count induction =>
      cases octets with
      | nil => simp [decodeFrom]
      | cons octet octets =>
          rw [exists_cons_iff, completes_succ, ← @induction _ _ _ _ _ (read ++ [octet]), decodeFrom]
          by_cases inside : low ≤ octet.toNat ∧ octet.toNat ≤ high <;> simp [inside]

end

/-! ## Characters -/

theorem toNat_ofNat_of_valid {number : Nat} (valid : number.isValidChar) :
    (Char.ofNat number).toNat = number := by
  rw [Char.ofNat, dif_pos valid]
  rfl

theorem ofNat_eq_of_toNat {octet : UInt8} {number : Nat} (same : octet.toNat = number) :
    UInt8.ofNat number = octet := by
  rw [← same, UInt8.ofNat_toNat]

section

variable {character : Char}

theorem utf8EncodeChar_one (high : character.toNat < 0x80) :
    String.utf8EncodeChar character = [UInt8.ofNat character.toNat] := by
  rw [String.utf8EncodeChar, Char.toNat_val, if_pos (by omega)]

theorem utf8EncodeChar_two (low : 0x80 ≤ character.toNat) (high : character.toNat < 0x800) :
    String.utf8EncodeChar character =
      UInt8.ofNat (character.toNat / 64 + 0xC0) :: continuation character.toNat 1 := by
  simp only [String.utf8EncodeChar, Char.toNat_val]
  rw [if_neg (by omega), if_pos (by omega), Nat.mod_eq_of_lt (by omega : character.toNat / 64 < 32)]
  simp [continuation]

theorem utf8EncodeChar_three (low : 0x800 ≤ character.toNat) (high : character.toNat < 0x10000) :
    String.utf8EncodeChar character =
      UInt8.ofNat (character.toNat / 4096 + 0xE0) :: continuation character.toNat 2 := by
  simp only [String.utf8EncodeChar, Char.toNat_val]
  rw [if_neg (by omega), if_neg (by omega), if_pos (by omega),
    Nat.mod_eq_of_lt (by omega : character.toNat / 4096 < 16)]
  simp [continuation]

theorem utf8EncodeChar_four (low : 0x10000 ≤ character.toNat) :
    String.utf8EncodeChar character =
      UInt8.ofNat (character.toNat / 262144 + 0xF0) :: continuation character.toNat 3 := by
  have valid : character.toNat < 0xD800 ∨ 0xDFFF < character.toNat ∧ character.toNat < 0x110000 :=
    character.valid
  simp only [String.utf8EncodeChar, Char.toNat_val]
  rw [if_neg (by omega), if_neg (by omega), if_neg (by omega),
    Nat.mod_eq_of_lt (by omega : character.toNat / 262144 < 8)]
  simp [continuation]

end

/-- The first and the second octet of a character of which `count` more octets follow. Neither
digits that are not needed nor surrogates nor numbers that are too large are written. -/
def Opens (octet second : UInt8) (count bits : Nat) : Prop :=
  (0x80 ≤ second.toNat ∧ second.toNat ≤ 0xBF) ∧
    ((count = 0 ∧ octet.toNat = bits + 0xC0 ∧ 2 ≤ bits ∧ bits < 32) ∨
      (count = 1 ∧ octet.toNat = bits + 0xE0 ∧ bits < 16 ∧
        (bits = 0 → 0xA0 ≤ second.toNat) ∧ (bits = 13 → second.toNat ≤ 0x9F)) ∨
      (count = 2 ∧ octet.toNat = bits + 0xF0 ∧ bits ≤ 4 ∧
        (bits = 0 → 0x90 ≤ second.toNat) ∧ (bits = 4 → second.toNat ≤ 0x8F)))

theorem exists_start?_iff {octet second : UInt8} {count bits : Nat} :
    (∃ low high read, start? octet = some ⟨count + 1, low, high, bits, read⟩ ∧
      low ≤ second.toNat ∧ second.toNat ≤ high) ↔ Opens octet second count bits := by
  unfold start? Opens
  dsimp only
  split_ifs <;> simp [and_assoc] <;> omega

theorem needed_ne_zero {octet : UInt8} {pending : Pending} (starts : start? octet = some pending) :
    pending.needed ≠ 0 := by
  unfold start? at starts
  dsimp only at starts
  split_ifs at starts <;> cases starts <;> simp

theorem Opens.char {octet second : UInt8} {number count bits : Nat}
    (opens : Opens octet second count bits)
    (digits : number / 64 ^ count = bits * 64 + (second.toNat - 0x80)) :
    number.isValidChar ∧ String.utf8EncodeChar (Char.ofNat number) =
      octet :: second :: continuation number count := by
  have digit (same : second.toNat = number / 64 ^ count % 64 + 0x80) :
      continuation number (count + 1) = second :: continuation number count := by
    rw [continuation, ofNat_eq_of_toNat same]
  obtain ⟨inside, one | two | three⟩ := opens
  · obtain rfl := one.1
    rw [Nat.pow_zero, Nat.div_one] at digits digit
    have valid : number.isValidChar := .inl (by omega)
    have lead : UInt8.ofNat (number / 64 + 0xC0) = octet := ofNat_eq_of_toNat (by omega)
    have same := toNat_ofNat_of_valid valid
    refine ⟨valid, ?_⟩
    rw [utf8EncodeChar_two (by omega) (by omega), same, lead, digit (by omega)]
  · obtain rfl := two.1
    rw [Nat.pow_one] at digits digit
    have valid : number.isValidChar := by
      unfold Nat.isValidChar
      omega
    have lead : UInt8.ofNat (number / 4096 + 0xE0) = octet := ofNat_eq_of_toNat (by omega)
    have same := toNat_ofNat_of_valid valid
    refine ⟨valid, ?_⟩
    rw [utf8EncodeChar_three (by omega) (by omega), same, lead, digit (by omega)]
  · obtain rfl := three.1
    simp only [Nat.reducePow] at digits digit
    have valid : number.isValidChar := by
      unfold Nat.isValidChar
      omega
    have lead : UInt8.ofNat (number / 262144 + 0xF0) = octet := ofNat_eq_of_toNat (by omega)
    have same := toNat_ofNat_of_valid valid
    refine ⟨valid, ?_⟩
    rw [utf8EncodeChar_four (by omega), same, lead, digit (by omega)]

/-- A character beyond ASCII is written as a first octet, a second one and the digits that are
left. -/
theorem exists_opens {character : Char} (high : 0x80 ≤ character.toNat) :
    ∃ octet second count bits, Opens octet second count bits ∧
      character.toNat / 64 ^ count = bits * 64 + (second.toNat - 0x80) ∧
      String.utf8EncodeChar character = octet :: second :: continuation character.toNat count := by
  have valid : character.toNat < 0xD800 ∨ 0xDFFF < character.toNat ∧ character.toNat < 0x110000 :=
    character.valid
  have encoded (number : Nat) : (UInt8.ofNat number).toNat = number % 256 := UInt8.toNat_ofNat'
  by_cases two : character.toNat < 0x800
  · refine ⟨_, _, 0, character.toNat / 64, ?_, ?_, utf8EncodeChar_two high two⟩
    · simp only [Opens, encoded]
      exact ⟨by omega, .inl ⟨trivial, by omega⟩⟩
    · simp only [encoded]
      omega
  by_cases three : character.toNat < 0x10000
  · refine ⟨_, _, 1, character.toNat / 4096, ?_, ?_, utf8EncodeChar_three (by omega) three⟩
    · simp only [Opens, encoded]
      exact ⟨by omega, .inr (.inl ⟨trivial, by omega⟩)⟩
    · simp only [encoded]
      omega
  · refine ⟨_, _, 2, character.toNat / 262144, ?_, ?_, utf8EncodeChar_four (by omega)⟩
    · simp only [Opens, encoded]
      exact ⟨by omega, .inr (.inr ⟨trivial, by omega⟩)⟩
    · simp only [encoded]
      omega

theorem lead_lt_iff {character : Char} {octet : UInt8} {octets rest : List UInt8}
    (split : octet :: octets = String.utf8EncodeChar character ++ rest) :
    octet.toNat < 0x80 ↔ character.toNat < 0x80 := by
  by_cases ascii : character.toNat < 0x80
  · rw [utf8EncodeChar_one ascii] at split
    cases split
    rw [UInt8.toNat_ofNat', Nat.mod_eq_of_lt (by omega)]
  · obtain ⟨first, second, count, bits, opens, -, encoded⟩ := exists_opens (Nat.not_lt.mp ascii)
    rw [encoded] at split
    cases split
    have beyond : 0x80 ≤ octet.toNat := by
      have := opens.2
      omega
    exact iff_of_false (Nat.not_lt.mpr beyond) ascii

/-! ## Texts -/

/-- Behind a first octet beyond ASCII the octet that it asks for is read, and then the digits that
are left. -/
theorem decodeFrom_high_eq_ok {position : Nat} {octet : UInt8} (high : ¬octet.toNat < 0x80)
    {octets : List UInt8} {text : List Char} :
    decodeFrom position none (octet :: octets) = .ok text ↔
      ∃ second rest count bits, octets = second :: rest ∧ Opens octet second count bits ∧
        Completes (position + 2) count (bits * 64 + (second.toNat - 0x80)) rest text := by
  rw [decodeFrom, if_neg high]
  cases starts : start? octet with
  | none =>
      refine iff_of_false (by simp) ?_
      rintro ⟨_, _, _, _, _, opens, _⟩
      obtain ⟨_, _, _, started, _⟩ := exists_start?_iff.mpr opens
      cases starts.symm.trans started
  | some pending =>
      obtain ⟨needed, low, above, bits, read⟩ := pending
      obtain ⟨count, rfl⟩ : ∃ count, needed = count + 1 :=
        Nat.exists_eq_add_one_of_ne_zero (needed_ne_zero starts)
      simp only [decodeFrom_pending_eq_ok]
      constructor
      · rintro ⟨second, rest, rfl, inside, completes⟩
        exact ⟨second, rest, count, bits, rfl, exists_start?_iff.mp ⟨_, _, _, starts, inside⟩,
          completes⟩
      · rintro ⟨second, rest, _, _, rfl, opens, completes⟩
        obtain ⟨_, _, _, started, inside⟩ := exists_start?_iff.mpr opens
        cases starts.symm.trans started
        exact ⟨second, rest, rfl, inside, completes⟩

theorem decodeFrom_eq_ok {position : Nat} {octets : List UInt8} {text : List Char} :
    decodeFrom position none octets = .ok text ↔
      (octets = [] ∧ text = []) ∨ ∃ character rest more,
        octets = String.utf8EncodeChar character ++ rest ∧ text = character :: more ∧
          decodeFrom (position + (String.utf8EncodeChar character).length) none rest = .ok more := by
  cases octets with
  | nil => cases text <;> simp [decodeFrom]
  | cons octet octets =>
      simp only [reduceCtorEq, false_and, false_or]
      by_cases low : octet.toNat < 0x80
      · have valid : octet.toNat.isValidChar := .inl (by omega)
        have same := toNat_ofNat_of_valid valid
        rw [decodeFrom, if_pos low, map_eq_ok]
        constructor
        · rintro ⟨more, later, rfl⟩
          refine ⟨Char.ofNat octet.toNat, octets, more, ?_, rfl, ?_⟩
          · rw [utf8EncodeChar_one (by omega), same, UInt8.ofNat_toNat]
            rfl
          · rwa [utf8EncodeChar_one (by omega)]
        · rintro ⟨character, rest, more, split, rfl, later⟩
          have ascii := (lead_lt_iff split).mp low
          rw [utf8EncodeChar_one ascii] at split later
          cases split
          exact ⟨more, later, by rw [UInt8.toNat_ofNat', Nat.mod_eq_of_lt (by omega),
            Char.ofNat_toNat]⟩
      · rw [decodeFrom_high_eq_ok low]
        constructor
        · rintro ⟨second, _, count, bits, rfl, opens, number, rest, more, rfl, digits, rfl, later⟩
          have encoded := (opens.char digits).2
          refine ⟨Char.ofNat number, rest, more, by rw [encoded]; rfl, rfl, ?_⟩
          rwa [encoded, length_opened, ← Nat.add_assoc]
        · rintro ⟨character, rest, more, split, rfl, later⟩
          have beyond := Nat.not_lt.mp fun ascii => low ((lead_lt_iff split).mpr ascii)
          obtain ⟨first, second, count, bits, opens, digits, encoded⟩ := exists_opens beyond
          rw [encoded, length_opened, ← Nat.add_assoc] at later
          rw [encoded] at split
          cases split
          exact ⟨second, _, count, bits, rfl, opens, character.toNat, rest, more, rfl, digits,
            by rw [Char.ofNat_toNat], later⟩

theorem decode_eq_ok_iff_flatMap {octets : List UInt8} {text : List Char} :
    decode octets = .ok text ↔ octets = text.flatMap String.utf8EncodeChar := by
  suffices general : ∀ position, decodeFrom position none octets = .ok text ↔
      octets = text.flatMap String.utf8EncodeChar from general 0
  induction text generalizing octets with
  | nil =>
      intro position
      rw [decodeFrom_eq_ok]
      simp
  | cons character more induction =>
      intro position
      rw [decodeFrom_eq_ok, List.flatMap_cons]
      constructor
      · rintro (⟨-, ⟨⟩⟩ | ⟨_, rest, _, rfl, ⟨⟩, later⟩)
        rw [(induction _).mp later]
      · rintro rfl
        exact .inr ⟨character, _, more, rfl, rfl, (induction _).mpr rfl⟩

theorem toList_toUTF8 (text : List Char) :
    (String.ofList text).toUTF8.data.toList = text.flatMap String.utf8EncodeChar := by
  rw [String.toUTF8, String.toByteArray_ofList, List.utf8Encode, List.data_toByteArray]

/-- Octets are read as a text exactly if they are what the text is written as. -/
theorem decode_eq_ok_iff {octets : List UInt8} {text : List Char} :
    decode octets = .ok text ↔ (String.ofList text).toUTF8.data.toList = octets := by
  rw [decode_eq_ok_iff_flatMap, toList_toUTF8, eq_comm]

end TableSchema.Text.Utf8
