import TableSchema.Sql.Identifier
import TableSchema.Sql.TypeLabel
import TableSchema.Proofs.Matching

/-! # Marks

Parentheses, commas and semicolons hold a script together, dashes and slashes open its comments. Neither
names nor labels ever gain one of these marks, so to count them tells whether anything of a script
got lost.
-/

namespace TableSchema.Sql

open Text

def marks : List Char := ['(', ')', ',', ';', '-', '/']

def markCount (text : List Char) : Nat := text.countP (· ∈ marks)

@[simp] theorem markCount_nil : markCount [] = 0 := rfl

@[simp] theorem markCount_append (first second : List Char) :
    markCount (first ++ second) = markCount first + markCount second :=
  List.countP_append

theorem markCount_cons (character : Char) (rest : List Char) :
    markCount (character :: rest) = markCount rest + if character ∈ marks then 1 else 0 := by
  simp [markCount, List.countP_cons]

theorem markCount_mark {mark : Char} (isMark : mark ∈ marks) (rest : List Char) :
    markCount (mark :: rest) = markCount rest + 1 := by
  rw [markCount_cons, if_pos isMark]

theorem markCount_other {character : Char} (other : character ∉ marks) (rest : List Char) :
    markCount (character :: rest) = markCount rest := by
  rw [markCount_cons, if_neg other, Nat.add_zero]

theorem markCount_eq_zero {text : List Char} (free : ∀ character ∈ text, character ∉ marks) :
    markCount text = 0 := by
  rw [markCount, List.countP_eq_zero]
  intro character member
  simpa using free character member

theorem markCount_le_of_sublist {first second : List Char} (sublist : first.Sublist second) :
    markCount first ≤ markCount second :=
  sublist.countP_le

theorem not_mem_marks_of_isBlank {character : Char} (blank : isBlank character = true) :
    character ∉ marks :=
  not_mem_of_holds blank (by decide)

/-- Texts that go on with a mark are the same if they hold equally many marks and start a common
text. -/
theorem eq_of_markCount {first second rest rest' : List Char} {mark mark' : Char}
    (isMark : mark ∈ marks) (isMark' : mark' ∈ marks)
    (same : first ++ mark :: rest = second ++ mark' :: rest')
    (count : markCount first = markCount second) : first = second ∧ rest = rest' := by
  rcases List.append_eq_append_iff.mp same with ⟨more, rfl, tail⟩ | ⟨more, rfl, tail⟩
  · cases more with
    | nil =>
        rw [List.append_nil]
        exact ⟨rfl, (List.cons.inj tail).2⟩
    | cons character more =>
        cases (List.cons.inj tail).1
        rw [markCount_append, markCount_mark isMark] at count
        omega
  · cases more with
    | nil =>
        rw [List.append_nil]
        exact ⟨rfl, (List.cons.inj tail).2.symm⟩
    | cons character more =>
        cases (List.cons.inj tail).1
        rw [markCount_append, markCount_mark isMark'] at count
        omega

/-! ## Names -/

theorem markCount_doubleQuotes (name : List Char) :
    markCount (doubleQuotes name) = markCount name := by
  have other : '"' ∉ marks := by decide
  induction name with
  | nil => rfl
  | cons character name induction =>
      rw [doubleQuotes]
      split
      · rename_i quote
        rw [markCount_other other, markCount_other other, quote, markCount_other other, induction]
      · rw [markCount_cons, markCount_cons, induction]

theorem markCount_quote (name : List Char) : markCount (quote name) = markCount name := by
  have other : '"' ∉ marks := by decide
  unfold quote
  split
  · rfl
  · rw [markCount_append, markCount_other other, markCount_other other, markCount_doubleQuotes]
    rfl

theorem markCount_collapseQuotes (text : List Char) :
    markCount (collapseQuotes text) = markCount text := by
  have other : '"' ∉ marks := by decide
  fun_induction collapseQuotes text with
  | case1 => rfl
  | case2 rest induction =>
      rw [markCount_other other, markCount_other other, markCount_other other, induction]
  | case3 character rest _ induction => rw [markCount_cons, markCount_cons, induction]

theorem markCount_unquote_le (text : List Char) : markCount (unquote text) ≤ markCount text := by
  unfold unquote
  split
  · split
    · rw [markCount_collapseQuotes]
      exact markCount_le_of_sublist ((List.dropLast_sublist _).trans (List.sublist_cons_self ..))
    · exact Nat.le_refl _
  · exact Nat.le_refl _

end TableSchema.Sql
