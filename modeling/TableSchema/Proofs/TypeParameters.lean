import TableSchema.Proofs.ColumnTypes
import TableSchema.Proofs.OutermostGroups

/-! # Parameters of types

A type that is not well known is shown without its parameters: what stands in parentheses is left
out, up to the next closing parenthesis. So nothing is left of parameters that hold no parentheses,
and where they do, a closing parenthesis stays behind.
-/

namespace TableSchema.Sql

open Text

/-! ## What is left out -/

theorem withoutParameters_eq_drop (skip : Nat) (text : List Char) :
    withoutParameters skip text = withoutParameters 0 (text.drop skip) := by
  induction text generalizing skip with
  | nil => cases skip <;> rfl
  | cons character rest induction =>
      cases skip with
      | zero => rfl
      | succ skip => exact induction skip

theorem withoutParameters_group {inside : List Char} (first : ')' ∉ inside) (rest : List Char) :
    withoutParameters 0 ('(' :: (inside ++ ')' :: rest)) = ' ' :: withoutParameters 0 rest := by
  have passes : ∀ character ∈ inside, decide (character ≠ ')') = true := fun character member =>
    decide_eq_true fun same => first (same ▸ member)
  have taken : (inside ++ ')' :: rest).takeWhile (· ≠ ')') = inside :=
    (takeWhile_of_stop inside (')' :: rest) passes (by simp)).1
  rw [withoutParameters, if_pos ⟨rfl, by simp⟩, taken, withoutParameters_eq_drop]
  simp

theorem withoutParameters_plain {character : Char} {rest : List Char}
    (plain : character = '(' → ')' ∉ rest) :
    withoutParameters 0 (character :: rest) = character :: withoutParameters 0 rest := by
  rw [withoutParameters, if_neg fun opens => plain opens.1 opens.2]

theorem parameter_induction {property : List Char → Prop} (nil : property [])
    (plain : ∀ character rest, (character = '(' → ')' ∉ rest) → property rest →
      property (character :: rest))
    (group : ∀ inside rest, ')' ∉ inside → property rest →
      property ('(' :: (inside ++ ')' :: rest))) (text : List Char) : property text := by
  match text with
  | [] => exact nil
  | character :: rest =>
      by_cases opens : character = '(' ∧ ')' ∈ rest
      · rcases List.eq_append_cons_of_mem opens.2 with ⟨inside, later, whole, first⟩
        rw [opens.1, whole]
        exact group inside later first (parameter_induction nil plain group later)
      · exact plain character rest (fun same member => opens ⟨same, member⟩)
          (parameter_induction nil plain group rest)
termination_by text.length
decreasing_by
  · rw [whole]
    simp only [List.length_cons, List.length_append]
    omega
  · exact Nat.lt_succ_self _

/-- Where no parentheses are nested, what is left out are the outermost groups. -/
theorem withoutParameters_eq_outside {text : List Char} (balanced : Balanced text)
    (flat : ¬ Nested text) : withoutParameters 0 text = outside text := by
  induction text using parameter_induction with
  | nil => rfl
  | plain character rest plain induction =>
      have later : ¬ Nested rest := fun ⟨before, inner, after, whole, free⟩ =>
        flat ⟨character :: before, inner, after, by rw [whole]; rfl, free⟩
      have opens : character ≠ '(' := by
        rintro rfl
        -- What is opened in a balanced text is closed in it.
        have total := (balanced_iff_wellNested.mp balanced).total
        rw [List.count_cons_self, List.count_cons_of_ne (by decide),
          List.count_eq_zero.mpr (plain rfl)] at total
        cases total
      have closes : character ≠ ')' := by
        rintro rfl
        cases balanced
      rw [Balanced, depthAfter?_other _ opens closes] at balanced
      rw [withoutParameters_plain plain, induction balanced later, outside, outside,
        outsideFrom_other _ opens closes]
      rfl
  | group inside rest first induction =>
      have unopened : '(' ∉ inside := by
        intro member
        rcases List.eq_append_cons_of_mem member with ⟨inner, after, rfl, _⟩
        refine flat ⟨[], inner, after ++ ')' :: rest, by simp, fun closes => first ?_⟩
        exact List.mem_append_left _ closes
      have later : ¬ Nested rest := fun ⟨before, inner, after, whole, free⟩ =>
        flat ⟨'(' :: (inside ++ ')' :: before), inner, after, by rw [whole]; simp, free⟩
      have level : depthAfter? 1 inside = some 1 :=
        depthAfter?_add (Balanced.of_not_mem unopened first) 1
      rw [Balanced, depthAfter?_open, depthAfter?_append, level] at balanced
      have shown : outside ('(' :: (inside ++ ')' :: rest)) = ' ' :: outside rest := by
        rw [outside, outsideFrom_open, outsideFrom_append level, outsideFrom_free unopened first]
        rfl
      rw [withoutParameters_group first, shown, induction balanced later]

theorem exists_behind_mark {first second rest rest' : List Char} {mark mark' : Char}
    (different : mark ≠ mark') (absent : mark' ∉ first)
    (same : first ++ mark :: rest = second ++ mark' :: rest') :
    ∃ more, second = first ++ mark :: more ∧ rest = more ++ mark' :: rest' := by
  rcases List.append_eq_append_iff.mp same with ⟨more, ends, behind⟩ | ⟨more, ends, behind⟩
  · rcases List.cons_eq_append_iff.mp behind with ⟨_, same⟩ | ⟨more, rfl, whole⟩
    · exact absurd (List.cons.inj same).1.symm different
    · exact ⟨more, ends, whole⟩
  · rcases List.cons_eq_append_iff.mp behind with ⟨_, same⟩ | ⟨more, rfl, _⟩
    · exact absurd (List.cons.inj same).1 different
    · exact absurd (ends ▸ List.mem_append_right _ (List.mem_cons_self ..)) absent

theorem Nested.of_group {inside rest : List Char} (unopened : '(' ∉ inside)
    (nested : Nested ('(' :: (inside ++ ')' :: rest))) : Nested rest := by
  rcases nested with ⟨before, inner, after, whole, free⟩
  cases before with
  | nil =>
      rcases exists_behind_mark (by decide) unopened (List.cons.inj whole).2 with ⟨more, rfl, _⟩
      exact absurd (by simp) free
  | cons _ before =>
      rcases exists_behind_mark (by decide) unopened (List.cons.inj whole).2 with ⟨more, _, behind⟩
      exact ⟨more, inner, after, behind, free⟩

theorem Nested.of_cons {character : Char} {rest : List Char} (opens : character ≠ '(')
    (nested : Nested (character :: rest)) : Nested rest := by
  rcases nested with ⟨before, inner, after, whole, free⟩
  cases before with
  | nil => exact absurd (List.cons.inj whole).1 opens
  | cons _ before => exact ⟨before, inner, after, (List.cons.inj whole).2, free⟩

/-- A list that is left out holds one closing parenthesis and at least one opening one, and more
than one where parentheses are nested. -/
theorem count_withoutParameters (text : List Char) :
    text.count ')' + (withoutParameters 0 text).count '(' ≤
        text.count '(' + (withoutParameters 0 text).count ')' ∧
      (Nested text →
        text.count ')' < text.count '(' + (withoutParameters 0 text).count ')') := by
  induction text using parameter_induction with
  | nil => exact ⟨Nat.le_refl _, fun ⟨before, _, _, whole, _⟩ => by cases before <;> cases whole⟩
  | plain character rest plain induction =>
      rw [withoutParameters_plain plain]
      simp only [List.count_cons]
      by_cases opens : character = '('
      · have none := List.count_eq_zero.mpr (plain opens)
        subst opens
        simp only [none, Char.reduceBEq, Bool.false_eq_true, if_true, if_false]
        omega
      · refine ⟨?_, fun nested => ?_⟩
        · have kept := induction.1
          omega
        · have kept := induction.2 (nested.of_cons opens)
          simp only [beq_iff_eq, opens, if_false]
          omega
  | group inside rest first induction =>
      have none := List.count_eq_zero.mpr first
      rw [withoutParameters_group first]
      simp only [List.count_cons, List.count_append, none, Char.reduceBEq, Bool.false_eq_true,
        if_true, if_false]
      refine ⟨by omega, fun nested => ?_⟩
      by_cases unopened : '(' ∈ inside
      · have positive := List.count_pos_iff.mpr unopened
        omega
      · have kept := induction.2 (nested.of_group unopened)
        omega

theorem close_mem_withoutParameters {text : List Char} (balanced : Balanced text)
    (nested : Nested text) : ')' ∈ withoutParameters 0 text := by
  have total := (balanced_iff_wellNested.mp balanced).total
  have counted := (count_withoutParameters text).2 nested
  exact List.count_pos_iff.mp (by omega)

/-! ## Labels -/

def IsWellKnown (rawType : List Char) : Prop :=
  (varcharLength? (collapse rawType)).isSome = true ∨
    ∃ entry ∈ wellKnown, occurs entry.1 (collapse rawType) = true

instance (rawType : List Char) : Decidable (IsWellKnown rawType) :=
  inferInstanceAs (Decidable (_ ∨ _))

theorem typeLabel_of_unknown {rawType : List Char} (unknown : ¬ IsWellKnown rawType) :
    typeLabel rawType = upper (collapse (withoutParameters 0 (collapse rawType))) := by
  rw [IsWellKnown, not_or, Bool.not_eq_true, Option.isSome_eq_false_iff, Option.isNone_iff_eq_none]
    at unknown
  have none : wellKnown.find? (fun entry => occurs entry.1 (collapse rawType)) = none :=
    List.find?_eq_none.mpr fun entry listed here => unknown.2 ⟨entry, listed, here⟩
  simp only [typeLabel, unknown.1, none]

theorem digits_ne_nil_of_numberInParens? {text digits after : List Char}
    (found : numberInParens? text = some (digits, after)) : digits ≠ [] := by
  unfold numberInParens? at found
  simp only [Option.bind_eq_bind, Option.bind_eq_some_iff, Prod.exists, Option.some.injEq,
    Prod.mk.injEq] at found
  rcases found with ⟨inside, _, read, rest, digital, _, _, rfl, _⟩
  unfold digitsAt? at digital
  split at digital
  · cases digital
  · rename_i nonempty
    cases digital
    exact nonempty

theorem typeLabel_of_known {rawType : List Char} (known : IsWellKnown rawType) :
    (∃ digits, digits ≠ [] ∧ (∀ character ∈ digits, isDigit character = true) ∧
        typeLabel rawType = varcharLabel digits) ∨
      ∃ entry ∈ wellKnown, typeLabel rawType = entry.2.toList := by
  cases sized : varcharLength? (collapse rawType) with
  | some digits =>
      left
      rcases exists_number_of_varcharLength? sized with ⟨_, _, _, _, number⟩
      refine ⟨digits, digits_ne_nil_of_numberInParens? number, (of_numberInParens? number).2, ?_⟩
      have label : typeLabel rawType = varcharOpening ++ digits ++ [')'] := by
        simp only [typeLabel, sized]
        rfl
      rw [label, List.append_assoc]
      rfl
  | none =>
      right
      have listed : ∃ entry ∈ wellKnown, occurs entry.1 (collapse rawType) = true := by
        rcases known with sized' | listed
        · rw [sized] at sized'
          cases sized'
        · exact listed
      rcases Option.isSome_iff_exists.mp (List.find?_isSome.mpr listed) with ⟨entry, found⟩
      refine ⟨entry, List.mem_of_find?_eq_some found, ?_⟩
      simp only [typeLabel, sized, found]

/-! ### Marks that stay -/

theorem count_upper {mark : Char} (early : 0 < mark.toNat ∧ mark.toNat < 0x41)
    (own : upperChar mark = [mark]) (text : List Char) :
    (upper text).count mark = text.count mark := by
  induction text with
  | nil => rfl
  | cons character text induction =>
      change (upperChar character ++ upper text).count mark = _
      rw [List.count_append, induction, List.count_cons, Nat.add_comm]
      congr 1
      by_cases same : character = mark
      · rw [same, own, List.count_singleton]
      · rw [if_neg (beq_iff_eq.not.mpr same), List.count_eq_zero]
        intro member
        rcases upperChar_cases member with here | late | zero
        · exact same here.symm
        · omega
        · omega

theorem filter_collapse (text : List Char) :
    (collapse text).filter (!isBlank ·) = text.filter (!isBlank ·) := by
  have collapsed := flatten_wordsFrom [] (collapse text)
  rw [← words, words_collapse, words, flatten_wordsFrom] at collapsed
  exact collapsed.symm

theorem count_upper_collapse {mark : Char} (listed : mark ∈ ['(', ')', ',']) (text : List Char) :
    (upper (collapse text)).count mark = text.count mark := by
  have each : ∀ mark ∈ ['(', ')', ','], isBlank mark = false ∧
      (0 < mark.toNat ∧ mark.toNat < 0x41) ∧ upperChar mark = [mark] :=
    List.all_iff_forall_prop.mp (by decide)
  have isMark := each mark listed
  have visible (text : List Char) : (text.filter (!isBlank ·)).count mark = text.count mark :=
    List.count_filter (by rw [isMark.1]; rfl)
  rw [count_upper isMark.2.1 isMark.2.2, ← visible (collapse text), filter_collapse, visible]

/-! ## Strays -/

/-- A parenthesis stays behind: it closes where no list is open, or it opens a list that is not
closed. The lists that are open are not counted: any closing parenthesis ends them all. -/
def straysFrom : (opened : Bool) → List Char → Bool
  | opened, [] => opened
  | opened, character :: rest =>
      if character = '(' then straysFrom true rest
      else if character = ')' then !opened || straysFrom false rest
      else straysFrom opened rest

/-- A parenthesis of a text is in none of its parameter lists. -/
def HoldsStray (text : List Char) : Prop := straysFrom false text = true

instance (text : List Char) : Decidable (HoldsStray text) := inferInstanceAs (Decidable (_ = _))

theorem straysFrom_other {character : Char} (opens : character ≠ '(') (closes : character ≠ ')')
    (opened : Bool) (rest : List Char) :
    straysFrom opened (character :: rest) = straysFrom opened rest := by
  rw [straysFrom, if_neg opens, if_neg closes]

theorem straysFrom_filter (opened : Bool) (text : List Char) :
    straysFrom opened (text.filter (!isBlank ·)) = straysFrom opened text := by
  induction text generalizing opened with
  | nil => rfl
  | cons character rest induction =>
      cases blank : isBlank character with
      | true =>
          have opens : character ≠ '(' := by rintro rfl; cases blank
          have closes : character ≠ ')' := by rintro rfl; cases blank
          rw [List.filter_cons_of_neg (by rw [blank]; decide), induction,
            straysFrom_other opens closes]
      | false =>
          rw [List.filter_cons_of_pos (by rw [blank]; rfl), straysFrom, straysFrom, induction,
            induction, induction]

theorem holdsStray_collapse_iff {text : List Char} :
    HoldsStray (collapse text) ↔ HoldsStray text := by
  rw [HoldsStray, HoldsStray, ← straysFrom_filter, filter_collapse, straysFrom_filter]

theorem straysFrom_closed {inside : List Char} (first : ')' ∉ inside) (rest : List Char) :
    straysFrom true (inside ++ ')' :: rest) = straysFrom false rest := by
  induction inside with
  | nil => rfl
  | cons character inside induction =>
      simp only [List.mem_cons, not_or] at first
      rw [List.cons_append, straysFrom, if_neg (Ne.symm first.1), induction first.2, ite_self]

theorem straysFrom_unclosed {text : List Char} (unclosed : ')' ∉ text) :
    straysFrom true text = true := by
  induction text with
  | nil => rfl
  | cons character text induction =>
      simp only [List.mem_cons, not_or] at unclosed
      rw [straysFrom, if_neg (Ne.symm unclosed.1), induction unclosed.2, ite_self]

/-- What stays behind are the parentheses that are in none of the lists. -/
theorem parenthesis_mem_withoutParameters_iff {text : List Char} :
    '(' ∈ withoutParameters 0 text ∨ ')' ∈ withoutParameters 0 text ↔ HoldsStray text := by
  rw [HoldsStray]
  induction text using parameter_induction with
  | nil => simp [withoutParameters, straysFrom]
  | plain character rest plain induction =>
      rw [withoutParameters_plain plain]
      by_cases opens : character = '('
      · subst opens
        exact iff_of_true (.inl (List.mem_cons_self ..)) (straysFrom_unclosed (plain rfl))
      · by_cases closes : character = ')'
        · subst closes
          exact iff_of_true (.inr (List.mem_cons_self ..)) rfl
        · rw [straysFrom_other opens closes, ← induction, List.mem_cons, List.mem_cons,
            or_iff_right (Ne.symm opens), or_iff_right (Ne.symm closes)]
  | group inside rest first induction =>
      have read : straysFrom false ('(' :: (inside ++ ')' :: rest)) = straysFrom false rest :=
        straysFrom_closed first rest
      rw [withoutParameters_group first, read, ← induction, List.mem_cons, List.mem_cons,
        or_iff_right (show '(' ≠ ' ' by decide), or_iff_right (show ')' ≠ ' ' by decide)]

/-! ## Labels without parameters -/

theorem parenthesis_mem_typeLabel_iff {rawType : List Char} (unknown : ¬ IsWellKnown rawType) :
    '(' ∈ typeLabel rawType ∨ ')' ∈ typeLabel rawType ↔ HoldsStray rawType := by
  rw [typeLabel_of_unknown unknown, ← holdsStray_collapse_iff,
    ← parenthesis_mem_withoutParameters_iff, ← List.count_pos_iff, ← List.count_pos_iff,
    ← List.count_pos_iff, ← List.count_pos_iff, count_upper_collapse (by decide),
    count_upper_collapse (by decide)]

theorem holdsStray_iff_nested {text : List Char} (balanced : Balanced text) :
    HoldsStray text ↔ Nested text := by
  refine ⟨fun stray => ?_, fun nested => ?_⟩
  · by_contra flat
    rw [← parenthesis_mem_withoutParameters_iff, withoutParameters_eq_outside balanced flat]
      at stray
    rcases stray with opens | closes
    · exact not_mem_outsideFrom (by decide) 0 text opens
    · exact not_mem_outsideFrom (by decide) 0 text closes
  · exact parenthesis_mem_withoutParameters_iff.mp
      (.inr (close_mem_withoutParameters balanced nested))

theorem typeLabel_eq_outside {rawType : List Char} (balanced : Balanced rawType)
    (unknown : ¬ IsWellKnown rawType) (flat : ¬ Nested rawType) :
    typeLabel rawType = upper (collapse (outside rawType)) := by
  have collapsed := collapse_of_balanced balanced
  rw [typeLabel_of_unknown unknown,
    withoutParameters_eq_outside collapsed.1 (nested_collapse_iff.not.mpr flat), collapse,
    collapsed.2, collapse]

theorem not_mem_label_of_mem_wellKnown {entry : (Option Char → List Char → Bool) × String}
    (listed : entry ∈ wellKnown) {mark : Char} (isMark : mark ∈ ['(', ')', ',']) :
    mark ∉ entry.2.toList := by
  have labels : ∀ label ∈ wellKnown.map Prod.snd,
      ['(', ')', ','].all (· ∉ label.toList) = true := by
    decide
  exact List.all_iff_forall_prop.mp (labels entry.2 (List.mem_map_of_mem listed)) mark isMark

theorem count_comma_typeLabel_le {rawType : List Char} (balanced : Balanced rawType)
    (flat : ¬ Nested rawType)
    (unsized : IsWellKnown rawType → ∃ entry ∈ wellKnown, typeLabel rawType = entry.2.toList) :
    (typeLabel rawType).count ',' ≤ (outside rawType).count ',' := by
  by_cases known : IsWellKnown rawType
  · rcases unsized known with ⟨entry, listed, label⟩
    rw [label, List.count_eq_zero.mpr (not_mem_label_of_mem_wellKnown listed (by decide))]
    exact Nat.zero_le _
  · rw [typeLabel_eq_outside balanced known flat, count_upper_collapse (by decide)]

/-- A type that is not well known is shown as what stands outside its parentheses, in upper case and
with single blanks, if and only if no parameter list stands in another one. So the label of a
column is a character type with a length, or it has no parentheses unless one is stray in its raw
type, and no commas from parameters that hold no parameters. -/
theorem parameters_are_left_out_iff (rawType clause : List Char) :
    (Balanced rawType → ¬ IsWellKnown rawType →
      (typeLabel rawType = upper (collapse (outside rawType)) ↔ ¬ Nested rawType) ∧
        ('(' ∈ typeLabel rawType ∨ ')' ∈ typeLabel rawType ↔ Nested rawType)) ∧
      ∀ name label, nameAndLabel clause = .ok (name, label) →
        ∃ rawType, (ClauseView.ofClause clause).nameAndRawType? = some (name.toList, rawType) ∧
          label.toList = typeLabel rawType ∧
          ((∃ digits, digits ≠ [] ∧ (∀ character ∈ digits, isDigit character = true) ∧
              label.toList = varcharLabel digits) ∨
            ('(' ∈ label.toList ∨ ')' ∈ label.toList ↔
                ¬ IsWellKnown rawType ∧ HoldsStray rawType) ∧
              (Balanced rawType → ¬ Nested rawType →
                label.toList.count ',' ≤ (outside rawType).count ',')) := by
  refine ⟨fun balanced unknown => ?_, fun name label read => ?_⟩
  · have stray := (parenthesis_mem_typeLabel_iff unknown).trans (holdsStray_iff_nested balanced)
    refine ⟨⟨fun same nested => ?_, typeLabel_eq_outside balanced unknown⟩, stray⟩
    have shown := stray.mpr nested
    rw [same, ← List.count_pos_iff, ← List.count_pos_iff, count_upper_collapse (by decide),
      count_upper_collapse (by decide), List.count_pos_iff, List.count_pos_iff] at shown
    rcases shown with opens | closes
    · exact not_mem_outsideFrom (by decide) 0 rawType opens
    · exact not_mem_outsideFrom (by decide) 0 rawType closes
  · rcases ClauseView.exists_of_nameAndLabel read with ⟨rawType, given, shown⟩
    refine ⟨rawType, given, shown, ?_⟩
    rw [shown]
    by_cases known : IsWellKnown rawType
    · rcases typeLabel_of_known known with sized | fixed
      · exact .inl sized
      · right
        refine ⟨⟨fun member => ?_, fun stray => absurd known stray.1⟩, fun balanced flat =>
          count_comma_typeLabel_le balanced flat fun _ => fixed⟩
        rcases fixed with ⟨entry, listed, same⟩
        rw [same] at member
        rcases member with opens | closes
        · exact absurd opens (not_mem_label_of_mem_wellKnown listed (by decide))
        · exact absurd closes (not_mem_label_of_mem_wellKnown listed (by decide))
    · right
      refine ⟨?_, fun balanced flat => count_comma_typeLabel_le balanced flat (absurd · known)⟩
      rw [parenthesis_mem_typeLabel_iff known]
      exact (and_iff_right known).symm

theorem interval_with_parameters :
    let rawType := "interval(3) day (2) to  second".toList
    let clause := "span interval(3) day (2) to  second not null".toList
    (Balanced rawType ∧ ¬ IsWellKnown rawType ∧ ¬ Nested rawType ∧
      typeLabel rawType = upper (collapse (outside rawType))) ∧
    nameAndLabel clause = .ok ("span", "INTERVAL DAY TO SECOND") ∧
      ∃ rawType, (ClauseView.ofClause clause).nameAndRawType? = some ("span".toList, rawType) ∧
        typeLabel rawType = "INTERVAL DAY TO SECOND".toList := by
  intro rawType clause
  have balanced : Balanced rawType := rfl
  have unknown : ¬ IsWellKnown rawType := by decide +kernel
  have shown : typeLabel rawType = upper (collapse (outside rawType)) := by decide +kernel
  have read : nameAndLabel clause = .ok ("span", "INTERVAL DAY TO SECOND") := by decide +kernel
  have both := parameters_are_left_out_iff rawType clause
  rcases both.2 _ _ read with ⟨rawType, given, label, _⟩
  exact ⟨⟨balanced, unknown, (both.1 balanced unknown).1.mp shown, shown⟩, read, rawType, given,
    label.symm⟩

/-- Behind the first closing parenthesis, parameters are no longer left out. -/
theorem nested_parameters_leave_parenthesis :
    let rawType := "domain(char(3), 2)".toList
    Balanced rawType ∧ ¬ IsWellKnown rawType ∧
      upper (collapse (outside rawType)) = "DOMAIN".toList ∧
      typeLabel rawType = "DOMAIN , 2)".toList ∧
      nameAndLabel "rate domain(char(3), 2) not null".toList = .ok ("rate", "DOMAIN , 2)") := by
  decide +kernel

end TableSchema.Sql
