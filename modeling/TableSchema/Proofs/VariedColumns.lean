import TableSchema.Proofs.Cells
import TableSchema.Proofs.PlainColumns

/-! # Variations of columns

What a clause is read as is decided on its mask, but for the name and the type of a column, which are
cut out of the text. Both stand in front of what strings hold, so variations of a clause are read
alike.
-/

namespace TableSchema

structure Field.Agrees (types : Prop) (field field' : Field) : Prop where
  name : field.name = field'.name
  required : field.required = field'.required
  description : field.description = field'.description
  typeLabel : types → field.typeLabel = field'.typeLabel

namespace Sql

open Text

variable {lines strings : Prop}

/-! ## Tests of masks -/

theorem constraintPhrases_keywords : ∀ phrase ∈ constraintPhrases, AreKeywords phrase := by decide

theorem afterExclude_respaced {first second : List Char} (same : Respaced lines first second) :
    afterExclude first = afterExclude second := by
  have opening (text : List Char) : decide (text.head? = some '(') = text.head?.any (· == '(') := by
    cases text with
    | nil => rfl
    | cons character rest => simp [Bool.beq_eq_decide_eq]
  have blank : ∀ character, isBlank character = true → (character == '(') = false := by
    intro character blank
    rw [beq_eq_false_iff_ne]
    rintro rfl
    cases blank
  have lower : ∀ letter ∈ "using".toList, letter.isLower = true :=
    List.all_iff_forall_prop.mp (by decide)
  have found := Respaced.rel_bind (Respaced.afterBlanks? same) fun _ _ =>
    Respaced.afterKeyword? lower
  rw [afterExclude, afterExclude, opening, opening,
    (Respaced.trimLeft same).any_head?_eq (BlankRuns.stopsAt blank)]
  congr 1
  generalize Text.afterBlanks? first >>= afterKeyword? "using".toList = rest at found ⊢
  generalize Text.afterBlanks? second >>= afterKeyword? "using".toList = rest' at found ⊢
  cases found with
  | none => rfl
  | some same => simp only [Respaced.isWordAt_head? same]

theorem startsConstraint_respaced {first second : List Char} (same : Respaced lines first second) :
    startsConstraint first = startsConstraint second := by
  have lower : ∀ letter ∈ "exclude".toList, letter.isLower = true :=
    List.all_iff_forall_prop.mp (by decide)
  have found := Respaced.afterKeyword? lower same
  have phrases : (constraintPhrases.any fun phrase => wholeWordsAt phrase none first) =
      constraintPhrases.any fun phrase => wholeWordsAt phrase none second := by
    rw [Bool.eq_iff_iff, List.any_eq_true, List.any_eq_true]
    refine exists_congr fun phrase => and_congr_right fun listed => ?_
    rw [Respaced.wholeWordsAt_eq (fun word member =>
      (constraintPhrases_keywords phrase listed word member).2) rfl same]
  rw [startsConstraint, startsConstraint, phrases]
  congr 1
  generalize Text.afterKeyword? "exclude".toList first = rest at found ⊢
  generalize Text.afterKeyword? "exclude".toList second = rest' at found ⊢
  cases found with
  | none => rfl
  | some same => simp only [Option.map_some, afterExclude_respaced same]

theorem forbidsNull_respaced {first second : List Char} (same : Respaced lines first second) :
    forbidsNull first = forbidsNull second := by
  have found := Respaced.rel_findPlace? (by decide : AreKeywords ["not".toList, "null".toList]) same
  rw [forbidsNull, forbidsNull]
  generalize findPlace? (wholeWordsAt ["not".toList, "null".toList]) none first = place at found ⊢
  generalize findPlace? (wholeWordsAt ["not".toList, "null".toList]) none second = place' at found ⊢
  cases found with
  | none => rfl
  | some before => simp only [Respaced.occurs_eq (by decide : AreKeywords ["default".toList]) before]

theorem saysPrimaryKey_respaced {first second : List Char} (same : Respaced lines first second) :
    saysPrimaryKey first = saysPrimaryKey second :=
  Respaced.occurs_eq (by decide : AreKeywords ["primary".toList, "key".toList]) same

theorem typeEndsAt_alike {previous previous' : Option Char} {first second : List Char}
    (behind : isWordAt previous = isWordAt previous') (same : Respaced lines first second) :
    typeEndsAt previous first = typeEndsAt previous' second := by
  rw [typeEndsAt, typeEndsAt, Bool.eq_iff_iff, List.any_eq_true, List.any_eq_true]
  refine exists_congr fun keyword => and_congr_right fun listed => ?_
  rw [Respaced.wholeWordsAt_eq (fun word member => ?_) behind same]
  rw [List.mem_singleton.mp member]
  exact (isLower_of_mem_typeEnds keyword listed).2

/-! ## Types -/

theorem startsType_eq_any (text : List Char) :
    startsType text = text.head?.any fun character => isNameStart character || character == '"' := by
  cases text <;> rfl

theorem head?_trim (text : List Char) : (trim text).head? = (trimLeft text).head? := by
  have bare := bare_trimLeft text
  rw [trim, trimRight]
  generalize trimLeft text = rest at bare ⊢
  cases rest with
  | nil => rfl
  | cons character rest =>
      have visible := bare character rfl
      rw [List.reverse_cons, List.dropWhile_append]
      split
      · rw [List.dropWhile_cons_of_neg (by rw [visible]; decide)]
        rfl
      · rw [List.reverse_append]
        rfl

theorem startsType_varied {cells cells' : List (Char × Char)}
    (same : CellsVaried lines strings cells cells') :
    startsType (trim (cells.map Prod.snd)) = startsType (trim (cells'.map Prod.snd)) := by
  have bare := same.dropWhile (@CellExchange.blind _ _ isBlank (fun _ => id) (by decide))
  have shown (cells : List (Char × Char)) : startsType (trim (cells.map Prod.snd)) =
      (cells.dropWhile fun cell => isBlank cell.2).head?.any
        fun cell => isNameStart cell.2 || cell.2 == '"' := by
    rw [startsType_eq_any, head?_trim, trimLeft, List.dropWhile_map, List.head?_map, Option.any_map]
    rfl
  have fails : ∀ character, isBlank character = true →
      (isNameStart character || character == '"') = false := by
    intro character blank
    rw [isNameStart_eq_false_of_isBlank blank, Bool.false_or, beq_eq_false_iff_ne]
    rintro rfl
    cases blank
  rw [shown, shown]
  exact bare.any_head?_eq (CellExchange.stopsAt fails (by decide))

theorem typeLabel_respaced {first second : List Char} (same : Respaced lines first second) :
    typeLabel (trim first) = typeLabel (trim second) := by
  have collapsed : collapse (trim first) = collapse (trim second) :=
    congrArg joinWords (Respaced.trim same).words_eq
  rw [typeLabel, typeLabel, collapsed]

/-! ## Classification -/

inductive ReadAlike (types : Prop) : Except Refusal Field → Except Refusal Field → Prop
  | refused (refusal : Refusal) : ReadAlike types (.error refusal) (.error refusal)
  | column {field field' : Field} (agrees : field.Agrees types field') :
      ReadAlike types (.ok field) (.ok field')

theorem BehindBlank.masked {core : List Segment} {tail : List (Char × Char)}
    (behind : BehindBlank (cellsOf core) tail) :
    (maskOf core).drop ((textOf core).length - (tail.map Prod.snd).length) = tail.map Prod.fst ∧
      isWordAt (maskOf core)[(textOf core).length - (tail.map Prod.snd).length - 1]? = false := by
  rcases behind.split with ⟨front, blank, whole, plain⟩
  have start : (textOf core).length - (tail.map Prod.snd).length = front.length + 1 := by
    rw [← map_snd_cellsOf, whole]
    simp only [List.length_map, List.length_append, List.length_cons]
    omega
  have hidden : isBlank blank.1 = true := by
    rcases shown_or_blank (whole ▸ List.mem_append_right front (List.mem_cons_self ..)) with
      same | blank
    · rwa [same]
    · exact blank
  rw [start, ← map_fst_cellsOf, whole]
  constructor
  · rw [List.map_append, List.map_cons, ← List.length_map (f := Prod.fst),
      List.drop_length_add_append]
    rfl
  · rw [Nat.add_sub_cancel, List.getElem?_map, List.getElem?_append_right (Nat.le_refl _),
      Nat.sub_self]
    exact isWord_eq_false_of_isBlank hidden

theorem types_varied {tail tail' : List (Char × Char)} {previous previous' : Option Char}
    (behind : isWordAt previous = isWordAt previous')
    (same : CellsVaried lines strings tail tail') :
    CellsVaried lines strings
      (tail.take ((findPlace? typeEndsAt previous (tail.map Prod.fst)).getD
        (tail.map Prod.snd).length))
      (tail'.take ((findPlace? typeEndsAt previous' (tail'.map Prod.fst)).getD
        (tail'.map Prod.snd).length)) := by
  have found := rel_findPlace? startsWords_typeEndsAt
    (fun _ _ _ _ behind same => typeEndsAt_alike behind (CellsVaried.masked same))
    CellExchange.lasting CellExchange.dull same behind
  generalize findPlace? typeEndsAt previous (tail.map Prod.fst) = place at found ⊢
  generalize findPlace? typeEndsAt previous' (tail'.map Prod.fst) = place' at found ⊢
  cases found with
  | some same => exact same
  | none =>
      rw [Option.getD_none, Option.getD_none, List.length_map, List.length_map, List.take_length,
        List.take_length]
      exact same

/-- Variations of the code of a clause are read alike. -/
theorem classify_varied {core core' : List Segment} (legible : Legible core)
    (legible' : Legible core') (same : Varied lines strings core core')
    (comment : Option (List Char)) :
    ReadAlike (¬ strings) (ClauseView.mk (maskOf core) (textOf core) comment).classify
      (ClauseView.mk (maskOf core') (textOf core') comment).classify := by
  have masked := same.maskOf
  have empty : (maskOf core).isEmpty = (maskOf core').isEmpty := by
    rw [Bool.eq_iff_iff, List.isEmpty_iff, List.isEmpty_iff]
    exact Respaced.nil_iff masked
  unfold ClauseView.classify
  simp only [empty, startsConstraint_respaced masked]
  split
  · exact .refused _
  split
  · exact .refused _
  have names := columnName?_varied legible legible' same
  generalize columnName? (textOf core) = name at names ⊢
  generalize columnName? (textOf core') = name' at names ⊢
  cases names with
  | none => exact .refused _
  | @some name tail tail' behind behind' same =>
      have types := types_varied (behind.masked.2.trans behind'.masked.2.symm) same
      simp only [behind.masked.1, behind'.masked.1, ← List.map_take, startsType_varied types,
        saysPrimaryKey_respaced masked, forbidsNull_respaced masked]
      split
      · exact .refused _
      · exact .column ⟨rfl, rfl, rfl, fun kept => congrArg String.ofList
          (typeLabel_respaced (types.plain kept))⟩

end Sql

end TableSchema
