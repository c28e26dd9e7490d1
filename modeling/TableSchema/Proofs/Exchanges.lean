import TableSchema.Proofs.Matching

/-! # Lists that are the same but for exchanges

One list is another with some of its parts exchanged for others. Whatever reads lists from left to
right finds the same in both, as long as it cannot tell the parts that are exchanged from one
another.
-/

namespace TableSchema.Text

universe u v

/-- The lists are the same but for parts, each of which stands in one list where a part that it is
exchanged for stands in the other. -/
inductive SameBut {α : Type u} (exchange : List α → List α → Prop) : List α → List α → Prop
  | nil : SameBut exchange [] []
  | cons (element : α) {rest rest' : List α} (later : SameBut exchange rest rest') :
      SameBut exchange (element :: rest) (element :: rest')
  | part {part part' rest rest' : List α} (exchanged : exchange part part')
      (later : SameBut exchange rest rest') : SameBut exchange (part ++ rest) (part' ++ rest')

def AllPass {α : Type u} (test : α → Bool) (list : List α) : Prop :=
  ∀ element ∈ list, test element = true

def StopsAt {α : Type u} (test : α → Bool) (list : List α) : Prop :=
  ∃ element rest, list = element :: rest ∧ test element = false

/-- The test cannot tell the parts of an exchange from one another: both pass it as a whole, or
neither passes it at the start. -/
def Blind {α : Type u} (exchange : List α → List α → Prop) (test : α → Bool) : Prop :=
  ∀ part part', exchange part part' →
    AllPass test part ∧ AllPass test part' ∨ StopsAt test part ∧ StopsAt test part'

def Lasting {α : Type u} (exchange : List α → List α → Prop) : Prop :=
  ∀ part part', exchange part part' → part ≠ [] ∧ part' ≠ []

namespace SameBut

variable {α : Type u} {β : Type v} {exchange : List α → List α → Prop} {first second : List α}

theorem refl (list : List α) : SameBut exchange list list := by
  induction list with
  | nil => exact .nil
  | cons element rest induction => exact .cons element induction

theorem single {part part' : List α} (exchanged : exchange part part') :
    SameBut exchange part part' := by
  have same : SameBut exchange (part ++ []) (part' ++ []) := .part exchanged .nil
  rwa [List.append_nil, List.append_nil] at same

theorem append {rest rest' : List α} (same : SameBut exchange first second)
    (later : SameBut exchange rest rest') : SameBut exchange (first ++ rest) (second ++ rest') := by
  induction same with
  | nil => exact later
  | cons element _ induction => exact .cons element induction
  | part exchanged _ induction =>
      rw [List.append_assoc, List.append_assoc]
      exact .part exchanged induction

theorem symm (symmetric : ∀ part part', exchange part part' → exchange part' part)
    (same : SameBut exchange first second) : SameBut exchange second first := by
  induction same with
  | nil => exact .nil
  | cons element _ induction => exact .cons element induction
  | part exchanged _ induction => exact .part (symmetric _ _ exchanged) induction

theorem reverse (backwards : ∀ part part', exchange part part' →
      exchange part.reverse part'.reverse) (same : SameBut exchange first second) :
    SameBut exchange first.reverse second.reverse := by
  induction same with
  | nil => exact .nil
  | cons element _ induction =>
      rw [List.reverse_cons, List.reverse_cons]
      exact induction.append (refl [element])
  | part exchanged _ induction =>
      rw [List.reverse_append, List.reverse_append]
      exact induction.append (single (backwards _ _ exchanged))

theorem flatMap {exchange' : List β → List β → Prop} (view : α → List β)
    (viewed : ∀ part part', exchange part part' →
      SameBut exchange' (part.flatMap view) (part'.flatMap view))
    (same : SameBut exchange first second) :
    SameBut exchange' (first.flatMap view) (second.flatMap view) := by
  induction same with
  | nil => exact .nil
  | cons element _ induction => exact (refl (view element)).append induction
  | part exchanged _ induction =>
      rw [List.flatMap_append, List.flatMap_append]
      exact (viewed _ _ exchanged).append induction

theorem map {exchange' : List β → List β → Prop} (view : α → β)
    (viewed : ∀ part part', exchange part part' → SameBut exchange' (part.map view) (part'.map view))
    (same : SameBut exchange first second) :
    SameBut exchange' (first.map view) (second.map view) := by
  induction same with
  | nil => exact .nil
  | cons element _ induction => exact .cons (view element) induction
  | part exchanged _ induction =>
      rw [List.map_append, List.map_append]
      exact (viewed _ _ exchanged).append induction

theorem mono {exchange' : List α → List α → Prop}
    (wider : ∀ part part', exchange part part' → exchange' part part')
    (same : SameBut exchange first second) : SameBut exchange' first second := by
  induction same with
  | nil => exact .nil
  | cons element _ induction => exact .cons element induction
  | part exchanged _ induction => exact .part (wider _ _ exchanged) induction

theorem within (same : SameBut exchange first second) :
    SameBut (fun part part' => exchange part part' ∧ part ⊆ first ∧ part' ⊆ second) first second := by
  induction same with
  | nil => exact .nil
  | cons element _ induction =>
      refine .cons element (induction.mono fun _ _ inside => ⟨inside.1, ?_, ?_⟩)
      · exact List.subset_cons_of_subset _ inside.2.1
      · exact List.subset_cons_of_subset _ inside.2.2
  | part exchanged _ induction =>
      refine .part ⟨exchanged, List.subset_append_left .., List.subset_append_left ..⟩
        (induction.mono fun _ _ inside => ⟨inside.1, ?_, ?_⟩)
      · exact List.subset_append_of_subset_right _ inside.2.1
      · exact List.subset_append_of_subset_right _ inside.2.2

/-! ## Counting -/

theorem countP_eq {test : α → Bool} (kept : ∀ part part', exchange part part' →
      part.countP test = part'.countP test) (same : SameBut exchange first second) :
    first.countP test = second.countP test := by
  induction same with
  | nil => rfl
  | cons element _ induction => rw [List.countP_cons, List.countP_cons, induction]
  | part exchanged _ induction =>
      rw [List.countP_append, List.countP_append, kept _ _ exchanged, induction]

theorem nil_iff (lasting : Lasting exchange) (same : SameBut exchange first second) :
    first = [] ↔ second = [] := by
  cases same with
  | nil => exact Iff.rfl
  | cons => simp
  | part exchanged =>
      have nonempty := lasting _ _ exchanged
      simp [nonempty.1, nonempty.2]

/-! ## Dividing -/

theorem exists_of_append_cons {before after : List α} {element : α}
    (kept : ∀ part part', exchange part part' → element ∉ part)
    (same : SameBut exchange (before ++ element :: after) second) :
    ∃ before' after', second = before' ++ element :: after' ∧ SameBut exchange before before' ∧
      SameBut exchange after after' := by
  generalize whole : before ++ element :: after = first at same
  induction same generalizing before with
  | nil => simp at whole
  | @cons other rest rest' later induction =>
      cases before with
      | nil =>
          cases whole
          exact ⟨[], rest', rfl, .nil, later⟩
      | cons _ before =>
          rcases List.cons.inj whole with ⟨rfl, tail⟩
          rcases induction tail with ⟨before', after', rfl, front, back⟩
          exact ⟨_ :: before', after', rfl, .cons _ front, back⟩
  | @part part part' rest rest' exchanged _ induction =>
      rcases List.append_eq_append_iff.mp whole with ⟨more, inPart, tail⟩ | ⟨more, rfl, tail⟩
      · cases more with
        | nil =>
            rw [List.append_nil] at inPart
            rcases @induction [] tail with ⟨before', after', rfl, front, back⟩
            refine ⟨part' ++ before', after', by simp, ?_, back⟩
            rw [← inPart, ← List.append_nil part]
            exact .part exchanged front
        | cons other more =>
            cases (List.cons.inj tail).1
            exact absurd (by rw [inPart]; simp) (kept _ _ exchanged)
      · rcases induction tail.symm with ⟨before', after', rfl, front, back⟩
        exact ⟨part' ++ before', after', by simp, .part exchanged front, back⟩

section

variable {test : α → Bool}

/-- What comes first in both lists and passes the test is the same but for exchanges, and so is what
follows it. -/
theorem span (blind : Blind exchange test) (same : SameBut exchange first second) :
    SameBut exchange (first.takeWhile test) (second.takeWhile test) ∧
      SameBut exchange (first.dropWhile test) (second.dropWhile test) := by
  induction same with
  | nil => exact ⟨.nil, .nil⟩
  | @cons element rest rest' later induction =>
      cases holds : test element with
      | false =>
          simp only [List.takeWhile_cons, List.dropWhile_cons, holds, Bool.false_eq_true, if_false]
          exact ⟨.nil, .cons element later⟩
      | true =>
          simp only [List.takeWhile_cons, List.dropWhile_cons, holds, if_true]
          exact ⟨.cons element induction.1, induction.2⟩
  | @part part part' rest rest' exchanged later induction =>
      rcases blind _ _ exchanged with
        ⟨pass, pass'⟩ | ⟨⟨element, more, rfl, fails⟩, ⟨element', more', rfl, fails'⟩⟩
      · rw [List.takeWhile_append_of_pos pass, List.takeWhile_append_of_pos pass',
          List.dropWhile_append_of_pos pass, List.dropWhile_append_of_pos pass']
        exact ⟨.part exchanged induction.1, induction.2⟩
      · simp only [List.cons_append, List.takeWhile_cons, List.dropWhile_cons, fails, fails',
          Bool.false_eq_true, if_false]
        exact ⟨.nil, .part exchanged later⟩

theorem dropWhile (blind : Blind exchange test) (same : SameBut exchange first second) :
    SameBut exchange (first.dropWhile test) (second.dropWhile test) :=
  (same.span blind).2

theorem takeWhile_eq (stops : ∀ part part', exchange part part' →
      StopsAt test part ∧ StopsAt test part') (same : SameBut exchange first second) :
    first.takeWhile test = second.takeWhile test := by
  induction same with
  | nil => rfl
  | cons element _ induction =>
      rw [List.takeWhile_cons, List.takeWhile_cons, induction]
  | part exchanged _ _ =>
      rcases stops _ _ exchanged with ⟨⟨element, more, rfl, fails⟩, ⟨element', more', rfl, fails'⟩⟩
      simp only [List.cons_append, List.takeWhile_cons, fails, fails', Bool.false_eq_true, if_false]

theorem any_head?_eq (stops : ∀ part part', exchange part part' →
      StopsAt test part ∧ StopsAt test part') (same : SameBut exchange first second) :
    first.head?.any test = second.head?.any test := by
  cases same with
  | nil | cons => rfl
  | part exchanged _ =>
      rcases stops _ _ exchanged with ⟨⟨element, more, rfl, fails⟩, ⟨element', more', rfl, fails'⟩⟩
      simp [fails, fails']

end

end SameBut

end TableSchema.Text
