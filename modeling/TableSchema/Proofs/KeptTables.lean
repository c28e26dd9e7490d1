import TableSchema.Proofs.SpelledOut

/-! # Tables that are kept

Where the tables that are read from a script are the ones that it was written for, none of its marks
is lost. So each statement is told where it was written, and each of its columns is read as itself.
-/

namespace TableSchema

open Sql Text

namespace Sql

/-! ## Statements in their places -/

namespace Wording

variable {wording : Wording} {table : Table} {front feeds rest later : List Char}

/-- A statement that loses no mark is told where it was written. -/
theorem Tells.aligned (tells : wording.Tells table)
    (same : front ++ (wording.text ++ rest) = feeds ++ (table.block.text ++ later))
    (free : markCount feeds = 0) (more : markCount later ≤ markCount rest) :
    front ++ (wording.lead ++ (wording.identifier ++ wording.gap)) =
        feeds ++ (createWords ++ ' ' :: (quote table.block.name ++ [' '])) ∧
      wording.body = table.block.body ∧ rest = later := by
  have name := tells.markCount_name_le
  have body := tells.markCount_body_le
  have sum := congrArg markCount same
  rw [markCount_append, markCount_append, markCount_append, markCount_append, markCount_text,
    markCount_opening, Block.markCount_text, free] at sum
  have words : markCount createWords = 0 := by decide
  have opened : (front ++ (wording.lead ++ (wording.identifier ++ wording.gap))) ++
      '(' :: (wording.body ++ ')' :: (wording.blanks ++ ';' :: rest)) =
        (feeds ++ (createWords ++ ' ' :: (quote table.block.name ++ [' ']))) ++
          '(' :: (table.block.body ++ ')' :: ';' :: later) := by
    rw [Block.text_eq] at same
    simpa [text, opening] using same
  have space : markCount [' '] = 0 := by decide
  have count : markCount (front ++ (wording.lead ++ (wording.identifier ++ wording.gap))) =
      markCount (feeds ++ (createWords ++ ' ' :: (quote table.block.name ++ [' ']))) := by
    rw [markCount_append, markCount_append, markCount_append, markCount_append, markCount_append,
      markCount_other (by decide), markCount_append, markCount_quote, free, words, space]
    omega
  have none : markCount wording.blanks = markCount [] := by
    rw [markCount_nil]
    omega
  rcases eq_of_markCount (by decide) (by decide) opened count with ⟨ahead, inside⟩
  rcases eq_of_markCount (by decide) (by decide) inside (by omega) with ⟨body, behind⟩
  exact ⟨ahead, body, (eq_of_markCount (by decide) (by decide) behind none).2⟩

theorem Sound.exists_gap (sound : wording.Sound) {name : List Char}
    (plain : isPlainName name = true) (lineFeeds : ∀ character ∈ feeds, character = '\n')
    (aligned : front ++ (wording.lead ++ (name ++ wording.gap)) =
      feeds ++ (createWords ++ ' ' :: (name ++ [' ']))) :
    wording.lead = createWords ++ [' '] ∧ wording.gap = [' '] := by
  have words : createWords.length = 12 := rfl
  have late := sound.late
  have nonempty : wording.gap ≠ [] := by
    intro none
    rcases List.eq_nil_or_concat name with rfl | ⟨start, last, rfl⟩
    · cases plain
    · have part : isNamePart last = true := isNamePart_of_isPlainName plain (by simp)
      rw [none, List.append_nil, List.concat_eq_append, ← List.append_assoc, ← List.append_assoc,
        ← List.cons_append, ← List.append_assoc, ← List.append_assoc] at aligned
      cases (List.append_inj' aligned rfl).2
      cases part
  have long : 0 < wording.gap.length := List.length_pos_iff.mpr nonempty
  have lengths := congrArg List.length aligned
  simp only [List.length_append, List.length_cons, List.length_nil, words] at lengths
  have split : wording.lead ++ (name ++ wording.gap) = (createWords ++ [' ']) ++ (name ++ [' ']) := by
    rw [List.append_assoc]
    rcases List.append_eq_append_iff.mp aligned with ⟨more, rfl, tail⟩ | ⟨more, rfl, tail⟩
    · cases more with
      | nil => exact tail
      | cons feed more =>
          refine absurd ?_ sound.starts
          rw [← lineFeeds feed (by simp)]
          have first := congrArg List.head? tail
          rwa [List.head?_append_of_ne_nil _ (List.length_pos_iff.mp (by omega))] at first
    · have none : more = [] := by
        rw [← List.length_eq_zero_iff]
        rw [List.length_append] at lengths
        omega
      rw [none] at tail
      exact tail.symm
  have length : wording.lead.length = (createWords ++ [' ']).length := by
    have lengths' := congrArg List.length split
    simp only [List.length_append, List.length_cons, List.length_nil, words] at lengths' ⊢
    omega
  rcases List.append_inj split length with ⟨lead, behind⟩
  exact ⟨lead, List.append_cancel_left behind⟩

theorem Sound.readable (sound : wording.Sound) {name : List Char}
    (named : name = unquote wording.identifier) (lineFeeds : ∀ character ∈ feeds, character = '\n')
    (aligned : front ++ (wording.lead ++ (wording.identifier ++ wording.gap)) =
      feeds ++ (createWords ++ ' ' :: (quote name ++ [' ']))) : Readable name := by
  intro plain
  rw [quote_of_plain plain] at aligned
  rcases sound.identifier with quotes | ⟨plain', free⟩
  · have member : '"' ∈ feeds ++ (createWords ++ ' ' :: (name ++ [' '])) := by
      rw [← aligned, quotes]
      simp [quoted]
    have words : '"' ∉ createWords := by decide
    simp only [List.mem_append, List.mem_cons, List.not_mem_nil, words, Char.reduceEq, false_or,
      or_false] at member
    rcases member with feed | part
    · cases lineFeeds _ feed
    · cases isNamePart_of_isPlainName plain part
  · have same := unquote_quote wording.identifier
    rw [quote_of_plain plain', ← named] at same
    rw [← same] at aligned free
    rcases sound.exists_gap plain lineFeeds aligned with ⟨lead, gap⟩
    apply free
    · rw [lead, List.getLast?_concat]
    · rw [gap, List.head?_cons]

end Wording

end Sql

/-! ## Tables -/

/-- A statement that is written in the same way again once it has been written and read: it holds
together, and each of its columns, read alone, is written in the same way again. -/
structure Sql.Block.Regenerates (block : Block) : Prop where
  sound : block.Sound
  reread : ∀ column ∈ block.columns, columnOf? column = some column

instance (block : Block) : Decidable block.Regenerates :=
  decidable_of_iff (block.Sound ∧ ∀ column ∈ block.columns, columnOf? column = some column)
    ⟨fun ⟨sound, reread⟩ => ⟨sound, reread⟩, fun regenerates => ⟨regenerates.sound, regenerates.reread⟩⟩

theorem getLast?_columnText (name label : List Char) (required : Bool) :
    (columnText name label required).getLast? = some 'L' := by
  rcases nullWords_ends required with ⟨front, ends⟩
  rw [columnText, ends, ← List.append_assoc, ← List.cons_append, ← List.append_assoc,
    List.getLast?_concat]

theorem SpelledOut.regenerates {text feeds : List Char} {tables : List Table}
    (spelled : SpelledOut text tables) (lineFeeds : ∀ character ∈ feeds, character = '\n')
    (written : text = feeds ++ paragraphs (tables.map Table.block)) :
    ∀ block ∈ tables.map Table.block, block.Regenerates := by
  induction spelled generalizing feeds with
  | nil => exact fun _ member => by cases member
  | @cons front rest wording table tables tells later induction =>
      have free : markCount feeds = 0 := by
        apply markCount_eq_zero
        intro character member
        rw [lineFeeds character member]
        decide
      have more : markCount ('\n' :: '\n' :: paragraphs (tables.map Table.block)) ≤
          markCount rest := by
        rw [markCount_other (by decide), markCount_other (by decide)]
        exact later.markCount_le
      rw [List.map_cons, paragraphs_cons] at written
      rcases tells.aligned written free more with ⟨aligned, body, behind⟩
      rcases tells.columns with ⟨runs, reads⟩
      have balanced := tells.sound.balanced
      rw [body] at reads balanced
      have kept := reads.kept balanced tells.columns_ne_nil (by
        intro column member
        rcases List.mem_map.mp member with ⟨field, _, rfl⟩
        exact ⟨trimmed_columnText .., getLast?_columnText ..⟩)
      have here : table.block.Regenerates := by
        refine ⟨⟨tells.sound.readable tells.name lineFeeds aligned, fun column member => ?_⟩, ?_⟩
        · exact (kept column member).1
        · exact fun column member => (kept column member).2
      have others := @induction ['\n', '\n'] (by simp) behind
      exact List.forall_mem_cons.mpr ⟨here, others⟩

end TableSchema
