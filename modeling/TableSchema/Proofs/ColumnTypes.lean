import TableSchema.Sql.Column

/-! # Names and types of columns

What a clause says of the name and the type of a column: the type stands between the name and the
first word that starts a constraint of the column.
-/

namespace TableSchema.Sql

open Text

namespace ClauseView

def rawTypeIn (view : ClauseView) (rest : List Char) : List Char :=
  let typeStart := view.plain.length - rest.length
  trim (rest.take ((findPlace? typeEndsAt view.masked[typeStart - 1]?
    (view.masked.drop typeStart)).getD rest.length))

def nameAndRawType? (view : ClauseView) : Option (List Char × List Char) :=
  (columnName? view.plain).map fun (written, rest) => (unquote written, view.rawTypeIn rest)

def nameAndLabel (view : ClauseView) : Except Refusal (String × String) :=
  view.classify.map fun field => (field.name, field.typeLabel)

theorem nameAndLabel_eq (view : ClauseView) :
    view.nameAndLabel =
      if view.masked.isEmpty then .error .emptyClause
      else if startsConstraint view.masked then .error .constraint
      else match view.nameAndRawType? with
        | none => .error .noNameAndType
        | some (name, rawType) =>
            if name.isEmpty || !startsType rawType then .error .noType
            else .ok (String.ofList name, String.ofList (typeLabel rawType)) := by
  rw [nameAndLabel, nameAndRawType?, classify]
  split
  · rfl
  split
  · rfl
  cases columnName? view.plain with
  | none => rfl
  | some read =>
      simp only [Option.map_some, rawTypeIn]
      split <;> rfl

theorem exists_of_nameAndLabel {view : ClauseView} {name label : String}
    (read : view.nameAndLabel = .ok (name, label)) :
    ∃ rawType, view.nameAndRawType? = some (name.toList, rawType) ∧
      label.toList = typeLabel rawType := by
  rw [nameAndLabel_eq] at read
  split at read
  · cases read
  split at read
  · cases read
  split at read
  · cases read
  · rename_i given
    split at read
    · cases read
    · cases read
      exact ⟨_, by rw [given, String.toList_ofList], String.toList_ofList⟩

end ClauseView

def nameAndLabel (clause : List Char) : Except Refusal (String × String) :=
  (ClauseView.ofClause clause).nameAndLabel

end TableSchema.Sql
