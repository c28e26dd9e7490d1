import TableSchema.Sql.Clause
import TableSchema.Sql.Statement

/-! # Parentheses

The parenthesis that closes a header and the commas that cut a body are both found by counting. A
balanced text moves neither.
-/

namespace TableSchema.Sql

/-- How many parentheses are open after a text, if `depth` are open before it and none is closed that
was never opened. -/
def depthAfter? : (depth : Nat) → List Char → Option Nat
  | depth, [] => some depth
  | depth, character :: rest =>
      if character = '(' then depthAfter? (depth + 1) rest
      else if character = ')' then
        match depth with
        | 0 => none
        | depth + 1 => depthAfter? depth rest
      else depthAfter? depth rest

/-- Every parenthesis of the text is closed in it, and opened before. -/
def Balanced (text : List Char) : Prop := depthAfter? 0 text = some 0

instance (text : List Char) : Decidable (Balanced text) := inferInstanceAs (Decidable (_ = _))

example : Balanced "a(b())".toList ∧ ¬ Balanced ")(".toList := by decide

def surplus : List Char → Int
  | [] => 0
  | character :: rest =>
      if character = '(' then surplus rest + 1
      else if character = ')' then surplus rest - 1
      else surplus rest

/-! ## Single characters -/

@[simp] theorem depthAfter?_open (depth : Nat) (rest : List Char) :
    depthAfter? depth ('(' :: rest) = depthAfter? (depth + 1) rest := by
  rw [depthAfter?.eq_def]
  rfl

@[simp] theorem depthAfter?_close (depth : Nat) (rest : List Char) :
    depthAfter? (depth + 1) (')' :: rest) = depthAfter? depth rest := by
  rw [depthAfter?.eq_def]
  rfl

@[simp] theorem depthAfter?_close_zero (rest : List Char) : depthAfter? 0 (')' :: rest) = none := rfl

theorem depthAfter?_other (depth : Nat) {character : Char} (opens : character ≠ '(')
    (closes : character ≠ ')') (rest : List Char) :
    depthAfter? depth (character :: rest) = depthAfter? depth rest := by
  rw [depthAfter?.eq_def]
  simp only [opens, closes, if_false]

@[simp] theorem closingAt?_open (inner : Nat) (rest : List Char) :
    closingAt? inner ('(' :: rest) = (closingAt? (inner + 1) rest).map (· + 1) := by
  rw [closingAt?.eq_def]
  rfl

@[simp] theorem closingAt?_close (inner : Nat) (rest : List Char) :
    closingAt? (inner + 1) (')' :: rest) = (closingAt? inner rest).map (· + 1) := by
  rw [closingAt?.eq_def]
  rfl

@[simp] theorem closingAt?_close_zero (rest : List Char) : closingAt? 0 (')' :: rest) = some 0 := rfl

theorem closingAt?_other (inner : Nat) {character : Char} (opens : character ≠ '(')
    (closes : character ≠ ')') (rest : List Char) :
    closingAt? inner (character :: rest) = (closingAt? inner rest).map (· + 1) := by
  rw [closingAt?.eq_def]
  simp only [opens, closes, if_false]

/-! ## Depth -/

theorem depthAfter?_append (depth : Nat) (first second : List Char) :
    depthAfter? depth (first ++ second) =
      (depthAfter? depth first).bind fun later => depthAfter? later second := by
  fun_induction depthAfter? depth first with
  | case1 => rfl
  | case2 depth rest induction => rw [List.cons_append, depthAfter?_open, induction]
  | case3 rest _ => rfl
  | case4 rest depth _ induction => rw [List.cons_append, depthAfter?_close, induction]
  | case5 depth character rest opens closes induction =>
      rw [List.cons_append, depthAfter?_other _ opens closes, induction]

theorem depthAfter?_add {depth later : Nat} {text : List Char}
    (after : depthAfter? depth text = some later) (outer : Nat) :
    depthAfter? (depth + outer) text = some (later + outer) := by
  fun_induction depthAfter? depth text with
  | case1 =>
      cases after
      rfl
  | case2 depth rest induction =>
      rw [depthAfter?_open, Nat.add_right_comm]
      exact induction after
  | case3 => cases after
  | case4 rest depth _ induction =>
      rw [Nat.succ_add, depthAfter?_close]
      exact induction after
  | case5 depth character rest opens closes induction =>
      rw [depthAfter?_other _ opens closes]
      exact induction after

theorem surplus_of_depthAfter? {depth later : Nat} {text : List Char}
    (after : depthAfter? depth text = some later) : (later : Int) = depth + surplus text := by
  fun_induction depthAfter? depth text with
  | case1 =>
      cases after
      simp [surplus]
  | case2 depth rest induction =>
      have same := induction after
      simp only [surplus, if_true]
      omega
  | case3 => cases after
  | case4 rest depth _ induction =>
      have same := induction after
      simp only [surplus, Char.reduceEq, if_false, if_true]
      omega
  | case5 depth character rest opens closes induction =>
      have same := induction after
      simp only [surplus, opens, closes, if_false]
      exact same

theorem surplus_append (first second : List Char) :
    surplus (first ++ second) = surplus first + surplus second := by
  induction first with
  | nil => exact (Int.zero_add _).symm
  | cons character rest induction =>
      simp only [List.cons_append, surplus, induction]
      split
      · omega
      · split <;> omega

theorem surplus_eq (text : List Char) : surplus text = text.count '(' - text.count ')' := by
  induction text with
  | nil => rfl
  | cons character rest induction =>
      rw [surplus, induction, List.count_cons, List.count_cons]
      by_cases opens : character = '('
      · subst opens
        simp
        omega
      · by_cases closes : character = ')'
        · subst closes
          simp
          omega
        · simp [opens, closes]

namespace Balanced

theorem append {first second : List Char} (balanced : Balanced first)
    (balanced' : Balanced second) : Balanced (first ++ second) := by
  rw [Balanced, depthAfter?_append, balanced]
  exact balanced'

theorem surplus_eq {text : List Char} (balanced : Balanced text) : surplus text = 0 := by
  have same := surplus_of_depthAfter? balanced
  omega

theorem of_append {first second : List Char} (balanced : Balanced (first ++ second))
    (level : surplus first = 0) : Balanced first ∧ Balanced second := by
  rw [Balanced, depthAfter?_append] at balanced
  rcases Option.bind_eq_some_iff.mp balanced with ⟨depth, before, after⟩
  have none := surplus_of_depthAfter? before
  have closed : depth = 0 := by omega
  subst closed
  exact ⟨before, after⟩

theorem of_not_mem {text : List Char} (opens : '(' ∉ text) (closes : ')' ∉ text) :
    Balanced text := by
  induction text with
  | nil => rfl
  | cons character rest induction =>
      simp only [List.mem_cons, not_or] at opens closes
      rw [Balanced, depthAfter?_other _ (Ne.symm opens.1) (Ne.symm closes.1)]
      exact induction opens.2 closes.2

end Balanced

/-! ## Counting -/

structure WellNested (text : List Char) : Prop where
  fronts : ∀ front, front <+: text → front.count ')' ≤ front.count '('
  total : text.count '(' = text.count ')'

theorem forall_prefix_cons {character : Char} {rest : List Char} {property : List Char → Prop} :
    (∀ front, front <+: character :: rest → property front) ↔
      property [] ∧ ∀ front, front <+: rest → property (character :: front) := by
  constructor
  · intro every
    exact ⟨every [] List.nil_prefix, fun front short => every _ (List.prefix_cons_inj character |>.mpr short)⟩
  · rintro ⟨first, later⟩ front short
    rcases List.prefix_cons_iff.mp short with rfl | ⟨front, rfl, shorter⟩
    · exact first
    · exact later front shorter

theorem depthAfter?_eq_some_iff {depth later : Nat} {text : List Char} :
    depthAfter? depth text = some later ↔
      (∀ front, front <+: text → front.count ')' ≤ depth + front.count '(') ∧
        depth + text.count '(' = later + text.count ')' := by
  fun_induction depthAfter? depth text with
  | case1 depth => simp
  | case2 depth rest induction =>
      have fronts (front : List Char) : ('(' :: front).count ')' ≤ depth + ('(' :: front).count '(' ↔
          front.count ')' ≤ depth + 1 + front.count '(' := by
        simp only [List.count_cons, Char.reduceBEq, Bool.false_eq_true, if_true, if_false]
        omega
      rw [induction, forall_prefix_cons]
      simp only [fronts, List.count_nil, Nat.zero_le, true_and]
      simp only [List.count_cons, Char.reduceBEq, Bool.false_eq_true, if_true, if_false]
      exact and_congr_right fun _ => by omega
  | case3 rest =>
      constructor
      · rintro ⟨⟩
      · rintro ⟨fronts, _⟩
        exact absurd (fronts [')'] (by simp)) (by decide)
  | case4 rest depth _ induction =>
      have fronts (front : List Char) :
          (')' :: front).count ')' ≤ depth + 1 + (')' :: front).count '(' ↔
            front.count ')' ≤ depth + front.count '(' := by
        simp only [List.count_cons, Char.reduceBEq, Bool.false_eq_true, if_true, if_false]
        omega
      rw [induction, forall_prefix_cons]
      simp only [fronts, List.count_nil, Nat.zero_le, true_and]
      simp only [List.count_cons, Char.reduceBEq, Bool.false_eq_true, if_true, if_false]
      exact and_congr_right fun _ => by omega
  | case5 depth character rest opens closes induction =>
      rw [induction, forall_prefix_cons]
      simp [opens, closes]

theorem balanced_iff_wellNested {text : List Char} : Balanced text ↔ WellNested text := by
  rw [Balanced, depthAfter?_eq_some_iff]
  simp only [Nat.zero_add]
  exact ⟨fun ⟨fronts, total⟩ => ⟨fronts, total⟩, fun nested => ⟨nested.fronts, nested.total⟩⟩

/-! ## The closing parenthesis -/

theorem closingAt?_append {inner later : Nat} {text : List Char}
    (after : depthAfter? inner text = some later) (rest : List Char) :
    closingAt? inner (text ++ rest) = (closingAt? later rest).map (· + text.length) := by
  fun_induction depthAfter? inner text with
  | case1 =>
      cases after
      simp
  | case2 depth tail induction =>
      rw [List.cons_append, closingAt?_open, induction after, Option.map_map]
      rfl
  | case3 => cases after
  | case4 tail depth _ induction =>
      rw [List.cons_append, closingAt?_close, induction after, Option.map_map]
      rfl
  | case5 depth character tail opens closes induction =>
      rw [List.cons_append, closingAt?_other _ opens closes, induction after, Option.map_map]
      rfl

theorem closingAt?_eq_some {inner length : Nat} {text : List Char} :
    closingAt? inner text = some length ↔
      ∃ inside rest, text = inside ++ ')' :: rest ∧ inside.length = length ∧
        depthAfter? inner inside = some 0 := by
  constructor
  · intro closes
    fun_induction closingAt? inner text generalizing length with
    | case1 => cases closes
    | case2 inner rest induction =>
        rcases Option.map_eq_some_iff.mp closes with ⟨more, later, rfl⟩
        rcases induction later with ⟨inside, after, rfl, rfl, depth⟩
        exact ⟨'(' :: inside, after, rfl, rfl, by rwa [depthAfter?_open]⟩
    | case3 rest =>
        cases closes
        exact ⟨[], rest, rfl, rfl, rfl⟩
    | case4 rest inner _ induction =>
        rcases Option.map_eq_some_iff.mp closes with ⟨more, later, rfl⟩
        rcases induction later with ⟨inside, after, rfl, rfl, depth⟩
        exact ⟨')' :: inside, after, rfl, rfl, depth⟩
    | case5 inner character rest opens closes' induction =>
        rcases Option.map_eq_some_iff.mp closes with ⟨more, later, rfl⟩
        rcases induction later with ⟨inside, after, rfl, rfl, depth⟩
        refine ⟨character :: inside, after, rfl, rfl, ?_⟩
        rwa [depthAfter?_other _ opens closes']
  · rintro ⟨inside, rest, rfl, rfl, depth⟩
    rw [closingAt?_append depth]
    simp [closingAt?]

/-! ## Cuts -/

/-- The first cut stands at a comma outside all parentheses, and the other cuts are those of what
follows. -/
theorem cutsFrom_eq_cons {place cut : Nat} {depth : Int} {text : List Char} {rest : List Nat}
    (cuts : cutsFrom place depth text = cut :: rest) :
    ∃ before after, text = before ++ ',' :: after ∧ cut = place + before.length ∧
      rest = cutsFrom (cut + 1) 0 after ∧ cutsFrom place depth before = [] ∧
      depth + surplus before = 0 := by
  fun_induction cutsFrom place depth text with
  | case1 => cases cuts
  | case2 place depth after induction =>
      rcases induction cuts with ⟨before, behind, rfl, rfl, rfl, uncut, level⟩
      refine ⟨'(' :: before, behind, rfl, by simp only [List.length_cons]; omega, rfl, ?_, ?_⟩
      · rwa [cutsFrom, if_pos rfl]
      · simp only [surplus, if_true]
        omega
  | case3 place depth after _ induction =>
      rcases induction cuts with ⟨before, behind, rfl, rfl, rfl, uncut, level⟩
      refine ⟨')' :: before, behind, rfl, by simp only [List.length_cons]; omega, rfl, ?_, ?_⟩
      · rwa [cutsFrom, if_neg (by decide), if_pos rfl]
      · simp only [surplus, Char.reduceEq, if_false, if_true]
        omega
  | case4 place depth character after _ _ comma =>
      rcases comma with ⟨rfl, rfl⟩
      cases cuts
      exact ⟨[], after, rfl, rfl, rfl, rfl, rfl⟩
  | case5 place depth character after opens closes comma induction =>
      rcases induction cuts with ⟨before, behind, rfl, rfl, rfl, uncut, level⟩
      refine ⟨character :: before, behind, rfl, by simp only [List.length_cons]; omega, rfl, ?_, ?_⟩
      · rwa [cutsFrom, if_neg opens, if_neg closes, if_neg comma]
      · simpa only [surplus, opens, closes, if_false] using level

theorem cutsFrom_append (place : Nat) (depth : Int) (first second : List Char) :
    cutsFrom place depth (first ++ second) = cutsFrom place depth first ++
      cutsFrom (place + first.length) (depth + surplus first) second := by
  fun_induction cutsFrom place depth first with
  | case1 => simp [surplus]
  | case2 place depth rest induction =>
      have sum : depth + 1 + surplus rest = depth + surplus ('(' :: rest) := by
        simp only [surplus, if_true]
        omega
      have length : place + 1 + rest.length = place + ('(' :: rest).length := by
        rw [List.length_cons]
        omega
      rw [List.cons_append, cutsFrom, if_pos rfl, induction, sum, length]
  | case3 place depth rest _ induction =>
      have sum : depth - 1 + surplus rest = depth + surplus (')' :: rest) := by
        simp only [surplus, Char.reduceEq, if_false, if_true]
        omega
      have length : place + 1 + rest.length = place + (')' :: rest).length := by
        rw [List.length_cons]
        omega
      rw [List.cons_append, cutsFrom, if_neg (by decide), if_pos rfl, induction, sum, length]
  | case4 place depth character rest opens closes comma induction =>
      have sum : surplus rest = surplus (character :: rest) := by
        simp only [surplus, opens, closes, if_false]
      have length : place + 1 + rest.length = place + (character :: rest).length := by
        rw [List.length_cons]
        omega
      rw [List.cons_append, cutsFrom, if_neg opens, if_neg closes, if_pos comma, induction, sum,
        length, List.cons_append]
  | case5 place depth character rest opens closes comma induction =>
      have sum : surplus rest = surplus (character :: rest) := by
        simp only [surplus, opens, closes, if_false]
      have length : place + 1 + rest.length = place + (character :: rest).length := by
        rw [List.length_cons]
        omega
      rw [List.cons_append, cutsFrom, if_neg opens, if_neg closes, if_neg comma, induction, sum,
        length]

theorem cutsFrom_add (place distance : Nat) (depth : Int) (text : List Char) :
    cutsFrom (place + distance) depth text = (cutsFrom place depth text).map (· + distance) := by
  fun_induction cutsFrom place depth text with
  | case1 => rfl
  | case2 place depth rest induction =>
      rw [cutsFrom, if_pos rfl, Nat.add_right_comm]
      exact induction
  | case3 place depth rest _ induction =>
      rw [cutsFrom, if_neg (by decide), if_pos rfl, Nat.add_right_comm]
      exact induction
  | case4 place depth character rest opens closes comma induction =>
      rw [cutsFrom, if_neg opens, if_neg closes, if_pos comma, Nat.add_right_comm, induction,
        List.map_cons]
  | case5 place depth character rest opens closes comma induction =>
      rw [cutsFrom, if_neg opens, if_neg closes, if_neg comma, Nat.add_right_comm]
      exact induction

theorem cutsFrom_eq_nil_iff (place : Nat) (text : List Char) :
    cutsFrom place 0 text = [] ↔ cutsFrom 0 0 text = [] := by
  rw [← Nat.zero_add place, cutsFrom_add, List.map_eq_nil_iff]

theorem cutsFrom_append_eq_nil {first : List Char} (level : surplus first = 0)
    (second : List Char) : cutsFrom 0 0 (first ++ second) = [] ↔
      cutsFrom 0 0 first = [] ∧ cutsFrom 0 0 second = [] := by
  rw [cutsFrom_append, level, Int.add_zero, List.append_eq_nil_iff,
    cutsFrom_eq_nil_iff (0 + first.length)]

end TableSchema.Sql
