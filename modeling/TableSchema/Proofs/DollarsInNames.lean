import TableSchema.Proofs.Hiding

/-! # Dollar signs in names

A dollar sign behind a word character opens nothing, but behind another dollar sign it may: a tag
that stands there opens a dollar string, although all of it belongs to a name. No other region
starts in a name.
-/

namespace TableSchema.Sql

open Text

/-- A dollar tag stands in the name, behind a dollar sign. -/
def HoldsTag (name : List Char) : Prop :=
  ∃ before tag after, name = before ++ (tag ++ after) ∧ before.getLast? = some '$' ∧
    IsDollarTag tag

theorem IsDollarTag.isNamePart {tag : List Char} (isTag : IsDollarTag tag) {character : Char}
    (member : character ∈ tag) : isNamePart character = true := by
  rcases isTag with ⟨name, rfl, _, isWords⟩
  rcases List.mem_cons.mp member with rfl | member
  · decide
  · rcases List.mem_append.mp member with word | last
    · rw [Text.isNamePart, isWords character word]
      rfl
    · rw [List.mem_singleton.mp last]
      decide

theorem Opens.exists_tag {before text : List Char} {kind : RegionKind}
    (opens : Opens before kind text) {first : Char} (starts : text.head? = some first)
    (named : isNamePart first = true) :
    kind = .dollarString ∧ isWordAt before.getLast? = false ∧
      ∃ tag after, IsDollarTag tag ∧ text = tag ++ after := by
  cases opens with
  | lineComment | blockComment | string | quotedIdentifier =>
      cases starts
      exact absurd named (by decide)
  | dollarString isTag free rest => exact ⟨rfl, free, _, rest, isTag, rfl⟩

section

variable {name rest : List Char} {region : Region}

theorem exists_tag_inside {part tag after : List Char}
    (setOff : ∀ character ∈ rest.head?, isBlank character = true) (isTag : IsDollarTag tag)
    (same : part ++ rest = tag ++ after) : ∃ more, part = tag ++ more := by
  rcases List.append_eq_append_iff.mp same with ⟨more, tagged, behind⟩ | ⟨more, inside, _⟩
  · cases more with
    | nil => exact ⟨[], by rw [tagged, List.append_nil, List.append_nil]⟩
    | cons character more =>
        have part := isTag.isNamePart (tagged ▸ List.mem_append_right _ (List.mem_cons_self ..))
        rw [behind] at setOff
        rw [isNamePart_eq_false_of_isBlank (setOff character rfl)] at part
        cases part
  · exact ⟨more, inside⟩

theorem getLast?_of_isNamePart {front : List Char} (nonempty : front ≠ [])
    (named : ∀ character ∈ front, isNamePart character = true)
    (free : isWordAt front.getLast? = false) : front.getLast? = some '$' := by
  have last := List.getLast?_eq_some_getLast nonempty
  have part := named _ (List.getLast_mem nonempty)
  rw [last] at free ⊢
  rw [isNamePart, show isWord _ = false from free, Bool.false_or, beq_iff_eq] at part
  rw [part]

/-- A region that starts in a name is a dollar string whose tag is part of the name. -/
theorem holdsTag_of_region (plain : isPlainName name = true)
    (setOff : ∀ character ∈ rest.head?, isBlank character = true)
    (member : region ∈ scan (name ++ rest)) (inside : region.start < name.length) :
    region.kind = .dollarString ∧ HoldsTag name := by
  have opens := (isTokenOf_of_mem_scan member).opens (bounds_of_mem_scan member).1
  rw [List.take_append_of_le_length (Nat.le_of_lt inside),
    List.drop_append_of_le_length (Nat.le_of_lt inside)] at opens
  have whole := List.take_append_drop region.start name
  have shown : name.drop region.start ≠ [] := by
    rw [ne_eq, List.drop_eq_nil_iff]
    omega
  rcases List.exists_cons_of_ne_nil shown with ⟨first, more, here⟩
  have named : ∀ character ∈ name, isNamePart character = true :=
    fun _ => isNamePart_of_isPlainName plain
  have starts := named first (List.mem_of_mem_drop (here ▸ List.mem_cons_self ..))
  rcases opens.exists_tag (by rw [here]; rfl) starts with ⟨kind, free, tag, after, isTag, same⟩
  rcases exists_tag_inside setOff isTag same with ⟨after, tagged⟩
  refine ⟨kind, name.take region.start, tag, after, by rw [← tagged, whole], ?_, isTag⟩
  refine getLast?_of_isNamePart ?_ (fun _ taken => named _ (List.mem_of_mem_take taken)) free
  -- A name does not start with a dollar sign, so the tag does not stand at its front.
  intro nothing
  rw [nothing, tagged, List.nil_append] at whole
  rcases isTag with ⟨inner, rfl, _⟩
  rw [← whole] at plain
  cases plain

theorem exists_region_of_holdsTag (holds : HoldsTag name) (rest : List Char) :
    ∃ region ∈ scan (name ++ rest), region.start < name.length := by
  rcases holds with ⟨before, tag, after, rfl, behind, isTag⟩
  have tokenisation := (isTokenisation_iff_eq_scan (before ++ (tag ++ after) ++ rest) _).mpr rfl
  have nonempty : 0 < tag.length := by
    rcases isTag with ⟨inner, rfl, _⟩
    exact Nat.succ_pos _
  by_contra none
  refine tokenisation.complete before.length (Nat.zero_le _) ?_ ?_ .dollarString ?_
  · simp only [List.length_append]
    omega
  · rintro region member ⟨early, _⟩
    refine none ⟨region, member, Nat.lt_of_le_of_lt early ?_⟩
    simp only [List.length_append]
    omega
  · rw [List.append_assoc, List.take_left, List.drop_left, List.append_assoc]
    refine .dollarString isTag ?_ (after ++ rest)
    rw [behind]
    decide

/-- In a name that blanks or nothing follow, no region starts but a dollar string, and one does
exactly if the name holds a whole dollar tag behind a dollar sign. -/
theorem regions_start_in_name_iff (plain : isPlainName name = true)
    (setOff : ∀ character ∈ rest.head?, isBlank character = true) :
    (∀ region ∈ scan (name ++ rest), region.start < name.length → region.kind = .dollarString) ∧
      ((∃ region ∈ scan (name ++ rest), region.start < name.length) ↔ HoldsTag name) := by
  refine ⟨fun region member inside => (holdsTag_of_region plain setOff member inside).1, ?_,
    fun holds => exists_region_of_holdsTag holds rest⟩
  rintro ⟨region, member, inside⟩
  exact (holdsTag_of_region plain setOff member inside).2

end

/-- The word between two dollar signs makes a tag of them; the digit does not. -/
theorem tag_in_name_opens :
    let name := "a$1$$b$c".toList
    let rest := "\tint, d text".toList
    isPlainName name = true ∧ HoldsTag name ∧
      ∃ region ∈ scan (name ++ rest), region.start < name.length := by
  intro name rest
  have plain : isPlainName name = true := by decide
  have holds : HoldsTag name :=
    ⟨"a$1$".toList, "$b$".toList, "c".toList, rfl, rfl, "b".toList, rfl, by rintro _ ⟨⟩; rfl,
      List.all_iff_forall_prop.mp (by decide)⟩
  have setOff : ∀ character ∈ rest.head?, isBlank character = true := by
    rintro _ ⟨⟩
    rfl
  exact ⟨plain, holds, (regions_start_in_name_iff plain setOff).2.mpr holds⟩

/-- A plain name whose last two dollar signs open a string: all that follows is lost in it. -/
theorem dollars_in_name_open_string :
    let name := "a$$$".toList
    let rest := " int".toList
    isPlainName name = true ∧ scan (name ++ rest) = [⟨.dollarString, 2, 8⟩] :=
  ⟨by decide, by decide⟩

end TableSchema.Sql
