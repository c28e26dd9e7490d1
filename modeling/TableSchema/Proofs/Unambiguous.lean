import TableSchema.Proofs.Rereading

/-! # Generated scripts are unambiguous

A generated script tells which names and which columns it was written for, even where it is not read
back as such: every name ends where its identifier does, and every column with its line.
-/

namespace TableSchema.Sql

open Text

/-! ## Columns -/

def IsColumn (column : List Char) : Prop :=
  ∃ name line, column = quote name ++ ' ' :: (line ++ ['L']) ∧ '\n' ∉ line

theorem isColumn_columnText {name label : List Char} (oneLine : '\n' ∉ label) (required : Bool) :
    IsColumn (columnText name label required) := by
  have words : '\n' ∉ nullWords required := by
    cases required <;> decide
  rcases nullWords_ends required with ⟨front, ends⟩
  refine ⟨name, label ++ front, by rw [columnText, ends, List.append_assoc], fun member => ?_⟩
  rcases List.mem_append.mp member with inLabel | inWords
  · exact oneLine inLabel
  · exact words (ends ▸ List.mem_append_left _ inWords)

def separators : List (List Char) := [[], [',']]

theorem IsColumn.append_inj {column column' separator separator' more more' : List Char}
    (isColumn : IsColumn column) (isColumn' : IsColumn column') (separates : separator ∈ separators)
    (separates' : separator' ∈ separators)
    (same : column ++ (separator ++ '\n' :: more) = column' ++ (separator' ++ '\n' :: more')) :
    column = column' ∧ separator = separator' ∧ more = more' := by
  rcases isColumn with ⟨name, line, rfl, oneLine⟩
  rcases isColumn' with ⟨name', line', rfl, oneLine'⟩
  have short : ∀ separator ∈ separators, '\n' ∉ 'L' :: separator := by decide
  have whole {line separator : List Char} (oneLine : '\n' ∉ line) (separates : separator ∈ separators) :
      '\n' ∉ line ++ 'L' :: separator := by
    intro member
    exact (List.mem_append.mp member).elim oneLine (short separator separates)
  have named : quote name ++ ' ' :: ((line ++ 'L' :: separator) ++ '\n' :: more) =
      quote name' ++ ' ' :: ((line' ++ 'L' :: separator') ++ '\n' :: more') := by
    simpa using same
  rcases quote_append_inj named with ⟨rfl, lines⟩
  rcases eq_of_stop (whole oneLine separates) (whole oneLine' separates') lines with ⟨ends, rest⟩
  have parts : line = line' ∧ separator = separator' := by
    simp only [separators, List.mem_cons, List.not_mem_nil, or_false] at separates separates'
    rcases separates with rfl | rfl <;> rcases separates' with rfl | rfl
    · exact ⟨(List.append_inj' ends rfl).1, rfl⟩
    · rw [List.append_cons line'] at ends
      cases (List.append_inj' ends rfl).2
    · rw [List.append_cons line] at ends
      cases (List.append_inj' ends rfl).2
    · exact ⟨(List.append_inj' ends rfl).1, rfl⟩
  rcases parts with ⟨rfl, rfl⟩
  exact ⟨rfl, rfl, rest⟩

def separatorBefore (columns : List (List Char)) : List Char :=
  if columns.isEmpty then [] else [',']

theorem separatorBefore_mem (columns : List (List Char)) : separatorBefore columns ∈ separators := by
  cases columns <;> simp [separatorBefore, separators]

theorem joinColumns_cons (column : List Char) (columns : List (List Char)) (rest : List Char) :
    joinColumns ((column :: columns).map indented) ++ rest = indented (column ++
      (separatorBefore columns ++ '\n' :: (joinColumns (columns.map indented) ++ rest))) := by
  cases columns <;> simp [joinColumns, indented, separatorBefore]

theorem joinColumns_inj {columns columns' : List (List Char)} {rest rest' : List Char}
    (isColumn : ∀ column ∈ columns, IsColumn column)
    (isColumn' : ∀ column ∈ columns', IsColumn column)
    (nonempty : columns ≠ []) (nonempty' : columns' ≠ [])
    (same : joinColumns (columns.map indented) ++ ')' :: rest =
      joinColumns (columns'.map indented) ++ ')' :: rest') : columns = columns' ∧ rest = rest' := by
  induction columns generalizing columns' with
  | nil => exact absurd rfl nonempty
  | cons column columns induction =>
      cases columns' with
      | nil => exact absurd rfl nonempty'
      | cons column' columns' =>
          rw [joinColumns_cons, joinColumns_cons] at same
          rcases (isColumn column (List.mem_cons_self ..)).append_inj
            (isColumn' column' (List.mem_cons_self ..)) (separatorBefore_mem columns)
            (separatorBefore_mem columns') (List.cons.inj (List.cons.inj same).2).2 with
            ⟨rfl, separator, behind⟩
          have others := fun other member => isColumn other (List.mem_cons_of_mem column member)
          have others' := fun other member => isColumn' other (List.mem_cons_of_mem column member)
          cases columns with
          | nil =>
              cases columns' with
              | nil => exact ⟨rfl, (List.cons.inj behind).2⟩
              | cons => cases separator
          | cons =>
              cases columns' with
              | nil => cases separator
              | cons =>
                  rcases induction others others' (by simp) (by simp) behind with ⟨same', rest⟩
                  exact ⟨by rw [same'], rest⟩

/-! ## Statements -/

structure Block.Written (block : Block) : Prop where
  nonempty : block.columns ≠ []
  columns : ∀ column ∈ block.columns, IsColumn column

theorem Block.Written.append_inj {block block' : Block} {rest rest' : List Char}
    (written : block.Written) (written' : block'.Written)
    (same : block.text ++ rest = block'.text ++ rest') : block = block' ∧ rest = rest' := by
  have named : quote block.name ++ ' ' :: '(' :: '\n' ::
        (joinColumns (block.columns.map indented) ++ ')' :: ';' :: rest) =
      quote block'.name ++ ' ' :: '(' :: '\n' ::
        (joinColumns (block'.columns.map indented) ++ ')' :: ';' :: rest') := by
    rw [Block.text_eq, Block.text_eq, List.append_assoc, List.append_assoc] at same
    have behind := List.append_cancel_left same
    simpa [Block.body, Block.lines] using behind
  rcases quote_append_inj named with ⟨name, lines⟩
  have bodies := (List.cons.inj (List.cons.inj lines).2).2
  rcases joinColumns_inj written.columns written'.columns written.nonempty
      written'.nonempty bodies with
    ⟨columns, behind⟩
  cases block
  cases block'
  cases name
  cases columns
  exact ⟨rfl, (List.cons.inj behind).2⟩

/-- Scripts are the same only if their statements are. -/
theorem paragraphs_inj {blocks blocks' : List Block} (written : ∀ block ∈ blocks, block.Written)
    (written' : ∀ block ∈ blocks', block.Written) (same : paragraphs blocks = paragraphs blocks') :
    blocks = blocks' := by
  have nonempty (block : Block) (blocks : List Block) : paragraphs (block :: blocks) ≠ [] := by
    simp [paragraphs_cons]
  induction blocks generalizing blocks' with
  | nil =>
      cases blocks' with
      | nil => rfl
      | cons block' blocks' => exact absurd same.symm (nonempty block' blocks')
  | cons block blocks induction =>
      cases blocks' with
      | nil => exact absurd same (nonempty block blocks)
      | cons block' blocks' =>
          rw [paragraphs_cons, paragraphs_cons] at same
          rcases (written block (List.mem_cons_self ..)).append_inj
            (written' block' (List.mem_cons_self ..)) same with ⟨rfl, behind⟩
          have later := induction (fun other member => written other (List.mem_cons_of_mem _ member))
            (fun other member => written' other (List.mem_cons_of_mem _ member))
            (List.cons.inj (List.cons.inj behind).2).2
          rw [later]

end TableSchema.Sql
