import TableSchema.Export.Csv

/-! # Reading CSV

A reader of CSV takes a text character by character. A comma ends a cell and a line feed ends a
record, unless they stand between quotes; a quote between quotes is written twice, and a carriage
return is a character like any other. What is written as CSV is read again as the same records,
so the export of a document holds a record for the names of the columns and one for each field.
-/

namespace TableSchema

namespace Csv

/-! ## The reader -/

inductive Spot where
  | recordStart
  /-- In front of a cell, behind a comma. -/
  | cellStart
  | bare
  | quoted
  /-- Behind a quote in a quoted cell, which ends the cell or is the first half of a doubled one. -/
  | behindQuote
  deriving DecidableEq, Repr

structure Reader where
  spot : Spot := .recordStart
  records : List (List (List Char)) := []
  cells : List (List Char) := []
  text : List Char := []
  deriving DecidableEq, Repr

namespace Reader

def take (reader : Reader) (spot : Spot) (character : Char) : Reader :=
  { reader with spot, text := reader.text ++ [character] }

def endCell (reader : Reader) : Reader :=
  { reader with spot := .cellStart, cells := reader.cells ++ [reader.text], text := [] }

def endRecord (reader : Reader) : Reader where
  records := reader.records ++ [reader.cells ++ [reader.text]]

/-- The next character. A quote inside a bare cell is refused, and so is anything but a comma or a
line feed behind a quoted cell. -/
def step (reader : Reader) (character : Char) : Option Reader :=
  if reader.spot = .quoted then
    if character = '"' then some { reader with spot := .behindQuote }
    else some (reader.take .quoted character)
  else if character = ',' then some reader.endCell
  else if character = '\n' then some reader.endRecord
  else match reader.spot with
    | .behindQuote => if character = '"' then some (reader.take .quoted character) else none
    | .bare => if character = '"' then none else some (reader.take .bare character)
    | _ => if character = '"' then some { reader with spot := .quoted }
        else some (reader.take .bare character)

/-- The records that have been read at the end of a text. The last line feed may be missing, but a
quoted cell has to be closed. -/
def finish (reader : Reader) : Option (List (List (List Char))) :=
  match reader.spot with
  | .recordStart => some reader.records
  | .quoted => none
  | _ => some reader.endRecord.records

end Reader

def read? (text : List Char) : Option (List (List (List Char))) :=
  (text.foldlM Reader.step {}).bind Reader.finish

example : read? "a,\"b,\"\"\"\n,".toList =
    some [["a".toList, "b,\"".toList], [[], []]] := by decide

/-- A quoted cell that is not closed is refused. -/
example : read? "a,\"b\n".toList = none := by decide

/-! ## Cells -/

namespace Reader

variable {reader : Reader}

theorem step_comma (unquoted : reader.spot ≠ .quoted) : reader.step ',' = some reader.endCell := by
  rw [step, if_neg unquoted, if_pos rfl]

theorem step_lineFeed (unquoted : reader.spot ≠ .quoted) :
    reader.step '\n' = some reader.endRecord := by
  rw [step, if_neg unquoted, if_neg (by decide), if_pos rfl]

theorem foldlM_step_bare (bare : reader.spot = .bare) {text : List Char}
    (quiet : text.any needsQuotes = false) :
    text.foldlM step reader = some { reader with text := reader.text ++ text } := by
  induction text generalizing reader with
  | nil => simp
  | cons character rest induction =>
      simp only [List.any_cons, Bool.or_eq_false_iff, needsQuotes, beq_eq_false_iff_ne] at quiet
      obtain ⟨⟨⟨comma, quote⟩, lineFeed⟩, quiet⟩ := quiet
      have taken : reader.step character = some (reader.take .bare character) := by
        simp [step, bare, comma, quote, lineFeed]
      have next : (reader.take .bare character).spot = .bare := rfl
      have later := induction next quiet
      rw [List.foldlM_cons, taken]
      simpa [take, bare] using later

theorem foldlM_step_doubled (quoted : reader.spot = .quoted) (text : List Char) :
    (doubled text).foldlM step reader = some { reader with text := reader.text ++ text } := by
  induction text generalizing reader with
  | nil => simp [doubled]
  | cons character rest induction =>
      rw [doubled]
      split
      · -- The reader takes a doubled quote in two steps, and is between quotes again behind it.
        rename_i quote
        subst quote
        have first : reader.step '"' = some { reader with spot := .behindQuote } := by
          simp [step, quoted]
        have second : ({ reader with spot := .behindQuote } : Reader).step '"' =
            some (reader.take .quoted '"') := by
          simp [step, take]
        have next : (reader.take .quoted '"').spot = .quoted := rfl
        have later := induction next
        rw [List.foldlM_cons, first]
        simp only [Option.bind_eq_bind, Option.bind_some]
        rw [List.foldlM_cons, second]
        simpa [take, quoted] using later
      · rename_i other
        have taken : reader.step character = some (reader.take .quoted character) := by
          simp [step, quoted, other]
        have next : (reader.take .quoted character).spot = .quoted := rfl
        have later := induction next
        rw [List.foldlM_cons, taken]
        simpa [take, quoted] using later

def AtStart (reader : Reader) : Prop :=
  (reader.spot = .recordStart ∨ reader.spot = .cellStart) ∧ reader.text = []

theorem foldlM_step_cell (start : reader.AtStart) (text : List Char) :
    ∃ spot ≠ Spot.quoted, (cell text).foldlM step reader = some { reader with spot, text } := by
  obtain ⟨front, empty⟩ := start
  unfold cell
  -- With quotes the reader is left behind the closing one, without them in a bare cell. It has not
  -- moved at all if the cell is empty.
  split
  · have opened : reader.step '"' = some { reader with spot := .quoted } := by
      rcases front with front | front <;> simp [step, front]
    have closed : ({ reader with spot := .quoted, text } : Reader).step '"' =
        some { reader with spot := .behindQuote, text } := by
      simp [step]
    refine ⟨.behindQuote, by decide, ?_⟩
    rw [List.cons_append, List.foldlM_cons, opened]
    simp only [Option.bind_eq_bind, Option.bind_some]
    rw [List.foldlM_append, foldlM_step_doubled rfl]
    simp [empty, closed]
  · rename_i quiet
    rw [Bool.not_eq_true] at quiet
    cases text with
    | nil =>
        have same : reader = { reader with text := [] } := by rw [← empty]
        exact ⟨reader.spot, by rcases front with front | front <;> simp [front],
          congrArg some same⟩
    | cons character rest =>
        simp only [List.any_cons, Bool.or_eq_false_iff] at quiet
        have taken : reader.step character = some (reader.take .bare character) := by
          simp only [needsQuotes, Bool.or_eq_false_iff, beq_eq_false_iff_ne] at quiet
          obtain ⟨⟨⟨comma, quote⟩, lineFeed⟩, -⟩ := quiet
          rcases front with front | front <;> simp [step, front, comma, quote, lineFeed]
        refine ⟨.bare, by decide, ?_⟩
        have next : (reader.take .bare character).spot = .bare := rfl
        have later := foldlM_step_bare next quiet.2
        rw [List.foldlM_cons, taken]
        simpa [take, empty] using later

/-! ## Records -/

theorem foldlM_step_cells (start : reader.AtStart) {texts : List (List Char)}
    (nonempty : texts ≠ []) :
    (record texts).foldlM step reader =
      some { records := reader.records ++ [reader.cells ++ texts] } := by
  unfold record
  fun_induction Csv.cells texts generalizing reader with
  | case1 => exact absurd rfl nonempty
  | case2 text =>
      obtain ⟨spot, unquoted, read⟩ := foldlM_step_cell start text
      have ended : ({ reader with spot, text } : Reader).step '\n' =
          some ({ reader with spot, text } : Reader).endRecord := step_lineFeed unquoted
      rw [List.foldlM_append, read]
      simp [ended, endRecord]
  | case3 text rest more induction =>
      obtain ⟨spot, unquoted, read⟩ := foldlM_step_cell start text
      have ended : ({ reader with spot, text } : Reader).step ',' =
          some ({ reader with spot, text } : Reader).endCell := step_comma unquoted
      rw [List.append_assoc, List.foldlM_append, read]
      simp only [Option.bind_eq_bind, Option.bind_some]
      rw [List.cons_append, List.foldlM_cons, ended]
      simp only [Option.bind_eq_bind, Option.bind_some]
      rw [induction ⟨.inr rfl, rfl⟩ (by simpa using more)]
      simp [endCell]

theorem foldlM_step_file {records : List (List (List Char))}
    (nonempty : ∀ texts ∈ records, texts ≠ [])
    (before : List (List (List Char))) :
    (file records).foldlM step { records := before } = some { records := before ++ records } := by
  induction records generalizing before with
  | nil => simp [file]
  | cons texts rest induction =>
      have start : ({ records := before } : Reader).AtStart := ⟨.inl rfl, rfl⟩
      have first := foldlM_step_cells start (nonempty texts (by simp))
      have later := induction (fun other member => nonempty other (by simp [member]))
        (before ++ [texts])
      rw [file, List.flatMap_cons, List.foldlM_append, first]
      rw [file] at later
      simp [later]

end Reader

/-- A file of records that have cells is read as these records. -/
theorem read?_file {records : List (List (List Char))} (nonempty : ∀ texts ∈ records, texts ≠ []) :
    read? (file records) = some records := by
  rw [read?, Reader.foldlM_step_file nonempty]
  simp [Reader.finish]

end Csv

/-! ## Documents -/

def Csv.readText? (text : String) : Option (List (List String)) :=
  (Csv.read? text.toList).map (·.map (·.map String.ofList))

theorem Document.readText?_csv (document : Document) :
    Csv.readText? document.csv = some document.csvRecords := by
  have filled : ∀ texts ∈ document.csvRecords.map (·.map String.toList), texts ≠ [] := by
    simp only [List.mem_map, csvRecords, List.mem_cons, List.mem_flatMap]
    rintro texts ⟨_, rfl | ⟨table, -, field, -, rfl⟩, rfl⟩ <;> simp [csvColumns, Field.csvRecord]
  rw [Csv.readText?, csv, String.toList_ofList, Csv.read?_file filled]
  simp [Function.comp_def]

/-- The CSV export of a document is read as the names of the columns and, in order, one record of
five cells for each field of each table. -/
theorem csv_holds_one_record_per_field (document : Document) :
    Csv.readText? document.csv =
      some (["table", "field", "type", "required", "description"] ::
        document.tables.flatMap fun table => table.fields.map fun field =>
          [table.name, field.name, field.typeLabel, if field.required then "true" else "false",
            match field.description with
            | some description => description
            | none => ""]) := by
  rw [document.readText?_csv]
  have same (field : Field) : field.description.getD "" =
      match field.description with
      | some description => description
      | none => "" := by
    cases field.description <;> rfl
  simp [Document.csvRecords, csvColumns, Field.csvRecord, same]

end TableSchema
