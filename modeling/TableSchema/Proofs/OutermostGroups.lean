import TableSchema.Proofs.PhrasesInCode
import TableSchema.Proofs.RespacedHeaders
import TableSchema.Proofs.Spellings

/-! # Outermost groups of parentheses

What a text says outside its parentheses, and whether it has parentheses in parentheses. Exchanging
blanks, as collapsing does, changes neither its words outside them nor how they are nested.
-/

namespace TableSchema.Sql

open Text

def outsideFrom : (depth : Nat) → List Char → List Char
  | _, [] => []
  | depth, character :: rest =>
      if character = '(' then (if depth = 0 then [' '] else []) ++ outsideFrom (depth + 1) rest
      else if character = ')' then outsideFrom (depth - 1) rest
      else (if depth = 0 then [character] else []) ++ outsideFrom depth rest

def outside (text : List Char) : List Char := outsideFrom 0 text

example : outside "a(b(1),2) c(3)".toList = "a  c ".toList := by decide

/-- A parenthesis is opened where another one is open already. -/
def Nested (text : List Char) : Prop :=
  ∃ before inner after, text = before ++ '(' :: (inner ++ '(' :: after) ∧ ')' ∉ inner

@[simp] theorem outsideFrom_open (depth : Nat) (rest : List Char) :
    outsideFrom depth ('(' :: rest) =
      (if depth = 0 then [' '] else []) ++ outsideFrom (depth + 1) rest := rfl

@[simp] theorem outsideFrom_close (depth : Nat) (rest : List Char) :
    outsideFrom (depth + 1) (')' :: rest) = outsideFrom depth rest := rfl

theorem outsideFrom_other (depth : Nat) {character : Char} (opens : character ≠ '(')
    (closes : character ≠ ')') (rest : List Char) :
    outsideFrom depth (character :: rest) =
      (if depth = 0 then [character] else []) ++ outsideFrom depth rest := by
  rw [outsideFrom, if_neg opens, if_neg closes]

theorem outsideFrom_append {depth later : Nat} {first : List Char}
    (after : depthAfter? depth first = some later) (second : List Char) :
    outsideFrom depth (first ++ second) =
      outsideFrom depth first ++ outsideFrom later second := by
  induction first generalizing depth with
  | nil =>
      cases after
      rfl
  | cons character first induction =>
      rw [List.cons_append]
      by_cases opens : character = '('
      · subst opens
        rw [depthAfter?_open] at after
        rw [outsideFrom_open, outsideFrom_open, induction after, List.append_assoc]
      · by_cases closes : character = ')'
        · subst closes
          cases depth with
          | zero => cases after
          | succ depth =>
              rw [depthAfter?_close] at after
              rw [outsideFrom_close, outsideFrom_close, induction after]
        · rw [depthAfter?_other _ opens closes] at after
          rw [outsideFrom_other _ opens closes, outsideFrom_other _ opens closes, induction after,
            List.append_assoc]

theorem outsideFrom_free {text : List Char} (opens : '(' ∉ text) (closes : ')' ∉ text)
    (depth : Nat) : outsideFrom depth text = if depth = 0 then text else [] := by
  induction text with
  | nil => exact (ite_self _).symm
  | cons character rest induction =>
      simp only [List.mem_cons, not_or] at opens closes
      rw [outsideFrom_other _ (Ne.symm opens.1) (Ne.symm closes.1), induction opens.2 closes.2]
      split <;> rfl

theorem not_mem_outsideFrom {parenthesis : Char} (listed : parenthesis ∈ ['(', ')']) (depth : Nat)
    (text : List Char) : parenthesis ∉ outsideFrom depth text := by
  have notBlank : parenthesis ≠ ' ' := by
    rintro rfl
    revert listed
    decide
  induction text generalizing depth with
  | nil => exact List.not_mem_nil
  | cons character rest induction =>
      intro member
      rw [outsideFrom] at member
      split at member
      · rcases List.mem_append.mp member with blank | later
        · split at blank
          · exact notBlank (List.mem_singleton.mp blank)
          · cases blank
        · exact induction _ later
      · rename_i opens
        split at member
        · exact induction _ member
        · rename_i closes
          rcases List.mem_append.mp member with here | later
          · split at here
            · rw [List.mem_singleton.mp here] at listed
              simp [opens, closes] at listed
            · cases here
          · exact induction _ later

/-! ### Other blanks -/

theorem parentheses_not_mem_blanks {blanks : List Char} (blank : AllBlank blanks) :
    '(' ∉ blanks ∧ ')' ∉ blanks := by
  constructor
  · intro member
    cases blank _ member
  · intro member
    cases blank _ member

theorem outsideFrom_blanks {blanks : List Char} (blank : AllBlank blanks) (depth : Nat)
    (rest : List Char) :
    outsideFrom depth (blanks ++ rest) =
      (if depth = 0 then blanks else []) ++ outsideFrom depth rest := by
  rcases parentheses_not_mem_blanks blank with ⟨opens, closes⟩
  have level := depthAfter?_add (Balanced.of_not_mem opens closes) depth
  rw [Nat.zero_add] at level
  rw [outsideFrom_append level, outsideFrom_free opens closes]

theorem wordsFrom_append_congr {rest rest' : List Char}
    (later : ∀ word, wordsFrom word rest = wordsFrom word rest') (front word : List Char) :
    wordsFrom word (front ++ rest) = wordsFrom word (front ++ rest') := by
  induction front generalizing word with
  | nil => exact later word
  | cons character front induction =>
      rw [List.cons_append, List.cons_append, wordsFrom, wordsFrom, induction, induction]

theorem wordsFrom_outsideFrom {lines : Prop} {first second : List Char}
    (same : Respaced lines first second) (depth : Nat) (word : List Char) :
    wordsFrom word (outsideFrom depth first) = wordsFrom word (outsideFrom depth second) := by
  induction same generalizing depth word with
  | nil => rfl
  | cons character _ induction =>
      rw [outsideFrom, outsideFrom]
      split
      · exact wordsFrom_append_congr (induction _) _ _
      · split
        · exact induction _ _
        · exact wordsFrom_append_congr (induction _) _ _
  | part exchanged _ induction =>
      rw [outsideFrom_blanks exchanged.blank_left, outsideFrom_blanks exchanged.blank_right]
      split
      · rw [wordsFrom_blanks exchanged.blank_left exchanged.nonempty_left,
          wordsFrom_blanks exchanged.blank_right exchanged.nonempty_right, words, words, induction]
      · exact induction _ _

theorem collapse_of_balanced {text : List Char} (balanced : Balanced text) :
    Balanced (collapse text) ∧ words (outside (collapse text)) = words (outside text) := by
  rcases exists_respaced_collapse text with ⟨before, more, after, whole, blank, blank', same⟩
  have level {blanks : List Char} (blank : AllBlank blanks) : Balanced blanks :=
    .of_not_mem (parentheses_not_mem_blanks blank).1 (parentheses_not_mem_blanks blank).2
  rw [whole] at balanced
  have behind := (balanced.of_append (level blank).surplus_eq).2
  have sum := behind.surplus_eq
  rw [surplus_append, (level blank').surplus_eq, Int.add_zero] at sum
  have inner := (behind.of_append sum).1
  refine ⟨inner.respaced same, ?_⟩
  have around : outside text = before ++ (outside more ++ after) := by
    rw [outside, whole, outsideFrom_blanks blank, if_pos rfl, outsideFrom_append inner]
    congr 2
    have last := outsideFrom_blanks blank' 0 []
    rwa [List.append_nil, if_pos rfl, outsideFrom, List.append_nil] at last
  rw [around, words_around blank blank']
  exact (wordsFrom_outsideFrom same 0 []).symm

theorem Nested.respaced {lines : Prop} {first second : List Char} (nested : Nested first)
    (same : Respaced lines first second) : Nested second := by
  rcases nested with ⟨before, inner, after, rfl, free⟩
  have visible : isBlank '(' = false := by decide
  rcases Respaced.exists_of_visible visible same with ⟨before', _, rfl, _, behind⟩
  rcases Respaced.exists_of_visible visible behind with ⟨inner', after', rfl, inside, _⟩
  exact ⟨before', inner', after', rfl, fun member => free (Respaced.mem (by decide) inside member)⟩

theorem nested_around_iff {before text after : List Char} (blank : AllBlank before)
    (blank' : AllBlank after) : Nested (before ++ (text ++ after)) ↔ Nested text := by
  constructor
  · rintro ⟨front, inner, back, whole, free⟩
    have between : before ++ (text ++ after) = front ++ ('(' :: (inner ++ ['(']) ++ back) := by
      rw [whole]
      simp
    have ends : ('(' :: (inner ++ ['('])).getLast? = some '(' := by
      rw [← List.cons_append, List.getLast?_concat]
    rcases exists_between_blanks blank blank' rfl ends (by decide) (by decide) between with
      ⟨front', back', rfl, _⟩
    exact ⟨front', inner, back', by simp, free⟩
  · rintro ⟨front, inner, back, rfl, free⟩
    exact ⟨before ++ front, inner, back ++ after, by simp, free⟩

theorem nested_collapse_iff {text : List Char} : Nested (collapse text) ↔ Nested text := by
  rcases exists_respaced_collapse text with ⟨before, more, after, rfl, blank, blank', same⟩
  rw [nested_around_iff blank blank']
  exact ⟨fun nested => nested.respaced same.symm, fun nested => nested.respaced same⟩

end TableSchema.Sql
