import TableSchema.Proofs.CommentFree
import TableSchema.Proofs.KeptTables
import TableSchema.Proofs.Unambiguous

/-! # Regeneration

To regenerate a script is to read it and to write what was read. Regenerated once more it stays as
it is exactly if each of its columns, read alone, is written in the same way again; and it is read
as the same tables exactly if each of its columns is read as the same field.
-/

namespace TableSchema

open Sql Text

/-! ## What is read can be told from what is written -/

theorem isColumn_of_columnOf? {clause column : List Char} (read : columnOf? clause = some column) :
    IsColumn column := by
  rcases Option.map_eq_some_iff.mp read with ⟨field, classified, rfl⟩
  cases outcome : classify clause with
  | error refusal =>
      rw [outcome] at classified
      cases classified
  | ok other =>
      rw [outcome] at classified
      cases classified
      rcases ClauseView.exists_of_classify outcome with ⟨_, _, _, rawType, _, _, _, label⟩
      rw [Field.column, label, String.toList_ofList]
      exact isColumn_columnText (lineFeed_not_mem_typeLabel rawType) _

theorem Sql.Wording.Tells.written {wording : Wording} {table : Table} (tells : wording.Tells table) :
    table.block.Written := by
  refine ⟨tells.columns_ne_nil, fun column member => ?_⟩
  rcases tells.columns with ⟨runs, reads⟩
  rw [reads.columns] at member
  rcases List.mem_filterMap.mp member with ⟨run, _, read⟩
  exact isColumn_of_columnOf? read

theorem SpelledOut.written {text : List Char} {tables : List Table}
    (spelled : SpelledOut text tables) : ∀ block ∈ tables.map Table.block, block.Written := by
  induction spelled with
  | nil => exact fun _ member => by cases member
  | cons tells _ induction => exact List.forall_mem_cons.mpr ⟨tells.written, induction⟩

/-! ## Scripts that are written for what is read -/

theorem spelledOut_ddl (document : Document) {header : Option String}
    (preamble : ∀ line ∈ header, IsPreamble line) :
    SpelledOut (paragraphs (document.tables.map Table.block))
      (parse (document.ddl header)).document.tables := by
  rcases headers_headerLines preamble (paragraphs (document.tables.map Table.block)) with
    ⟨front, previous, length, masked, _, found⟩
  have script := document.toList_ddl header
  rw [← script] at masked found
  have shown : mask (paragraphs (document.tables.map Table.block)) =
      (mask (document.ddl header).toList).drop (headerLines header).length := by
    rw [masked, List.drop_left' length]
  have behind : (document.ddl header).toList.drop ((headerLines header).length + 0) =
      paragraphs (document.tables.map Table.block) := by
    rw [script, Nat.add_zero, List.drop_left]
  have spelled := @spelledOut_headersFrom _ previous _ 0 _ shown
  rw [behind, ← found, ← tables_eq] at spelled
  exact spelled

theorem Document.ddl_eq_iff {document other : Document} (header : Option String) :
    document.ddl header = other.ddl header ↔
      paragraphs (document.tables.map Table.block) = paragraphs (other.tables.map Table.block) := by
  have whole := document.toList_ddl header
  have whole' := other.toList_ddl header
  constructor
  · intro same
    rw [same, whole'] at whole
    exact (List.append_cancel_left whole).symm
  · intro same
    apply String.toList_inj.mp
    rw [whole, whole', same]

theorem regenerates_of_ddl_eq {sql : String} {header : Option String}
    (preamble : ∀ line ∈ header, IsPreamble line)
    (same : (parse ((parse sql).document.ddl header)).document.ddl header =
      (parse sql).document.ddl header) :
    ∀ table ∈ (parse sql).document.tables, table.block.Regenerates := by
  have spelled : SpelledOut sql.toList (parse sql).document.tables := spelledOut sql.toList
  have spelled' := spelledOut_ddl (parse sql).document preamble
  have scripts := (Document.ddl_eq_iff header).mp same
  have written : paragraphs ((parse sql).document.tables.map Table.block) = [] ++ paragraphs
      ((parse ((parse sql).document.ddl header)).document.tables.map Table.block) := by
    rw [List.nil_append, scripts]
  have kept := spelled'.regenerates (fun _ member => by cases member) written
  rw [paragraphs_inj spelled'.written spelled.written scripts] at kept
  exact fun table member => kept table.block (List.mem_map_of_mem member)

/-! ## Reading back -/

def Field.readBack (field : Field) : Field := (classify field.column).toOption.getD field

def Table.readBack (table : Table) : Table :=
  { table with fields := table.fields.map Field.readBack }

theorem Sql.Block.Regenerates.readBack {table : Table} (regenerates : table.block.Regenerates)
    {field : Field} (member : field ∈ table.fields) :
    classify field.column = .ok field.readBack ∧ field.readBack.column = field.column := by
  have read := regenerates.reread field.column (List.mem_map_of_mem member)
  rw [columnOf?] at read
  rw [Field.readBack]
  cases outcome : classify field.column with
  | error refusal =>
      rw [outcome] at read
      cases read
  | ok other =>
      rw [outcome] at read
      exact ⟨rfl, Option.some.inj read⟩

theorem Sql.Block.Regenerates.rereadAs {table : Table} (regenerates : table.block.Regenerates)
    (nonempty : table.fields ≠ []) : table.RereadAs table.readBack where
  sound := regenerates.sound
  name := rfl
  nonempty := nonempty
  fields := by
    rw [Table.readBack, List.forall₂_map_right_iff, List.forall₂_same]
    exact fun field member => (regenerates.readBack member).1

theorem Sql.Block.Regenerates.block_readBack {table : Table}
    (regenerates : table.block.Regenerates) : table.readBack.block = table.block := by
  have columns : (table.fields.map Field.readBack).map Field.column =
      table.fields.map Field.column := by
    rw [List.map_map]
    exact List.map_congr_left fun field member => (regenerates.readBack member).2
  exact congrArg (Block.mk table.name.toList) columns

def Document.readBack (document : Document) : Document := ⟨document.tables.map Table.readBack⟩

theorem parse_ddl_of_regenerates {document : Document}
    (regenerates : ∀ table ∈ document.tables, table.block.Regenerates)
    (nonempty : ∀ table ∈ document.tables, table.fields ≠ []) {header : Option String}
    (preamble : ∀ line ∈ header, IsPreamble line) :
    parse (document.ddl header) = { document := document.readBack } := by
  refine parse_ddl ?_ preamble
  rw [Document.readBack, List.forall₂_map_right_iff, List.forall₂_same]
  exact fun table member => (regenerates table member).rereadAs (nonempty table member)

theorem fields_ne_nil {sql : String} {table : Table} (member : table ∈ (parse sql).document.tables) :
    table.fields ≠ [] := by
  have spelled : SpelledOut sql.toList (parse sql).document.tables := spelledOut sql.toList
  have nonempty := (spelled.written table.block (List.mem_map_of_mem member)).nonempty
  simpa [Table.block] using nonempty

/-- A table that is read back as it is, but for what its fields are described as. -/
structure Table.Recovers (table : Table) : Prop where
  sound : table.block.Sound
  reread : ∀ field ∈ table.fields,
    (classify field.column).toOption.map Field.undescribed = some field.undescribed

theorem Table.Recovers.regenerates {table : Table} (recovers : table.Recovers) :
    table.block.Regenerates := by
  refine ⟨recovers.sound, fun column member => ?_⟩
  rcases List.mem_map.mp member with ⟨field, listed, rfl⟩
  have read := congrArg (Option.map Field.column) (recovers.reread field listed)
  rw [Option.map_map] at read
  exact read

theorem Table.recovers_iff {table : Table} (regenerates : table.block.Regenerates) :
    table.Recovers ↔ table.readBack.undescribed = table.undescribed := by
  have reread (field : Field) (member : field ∈ table.fields) :
      (classify field.column).toOption.map Field.undescribed = some field.undescribed ↔
        field.readBack.undescribed = field.undescribed := by
    rw [(regenerates.readBack member).1]
    exact Option.some_inj
  have same : table.readBack.undescribed = table.undescribed ↔
      (table.fields.map Field.readBack).map Field.undescribed =
        table.fields.map Field.undescribed := by
    simp only [undescribed, readBack, Table.mk.injEq, true_and]
  rw [same, List.map_map, List.map_inj_left]
  constructor
  · exact fun recovers field member => (reread field member).mp (recovers.reread field member)
  · exact fun same =>
      ⟨regenerates.sound, fun field member => (reread field member).mpr (same field member)⟩

theorem Document.ddl_undescribed (document : Document) (header : Option String) :
    document.undescribed.ddl header = document.ddl header := by
  rw [ddl_eq_iff, undescribed, List.map_map]
  congr 1
  apply List.map_congr_left
  intro table _
  simp only [Function.comp_apply, Table.block, Table.undescribed, List.map_map]
  rfl

theorem Document.ddl_readBack {document : Document}
    (regenerates : ∀ table ∈ document.tables, table.block.Regenerates) (header : Option String) :
    document.readBack.ddl header = document.ddl header := by
  rw [ddl_eq_iff, readBack, List.map_map]
  congr 1
  exact List.map_congr_left fun table member => (regenerates table member).block_readBack

theorem Document.recovers_iff {document : Document}
    (regenerates : ∀ table ∈ document.tables, table.block.Regenerates) :
    (∀ table ∈ document.tables, table.Recovers) ↔
      document.readBack.undescribed = document.undescribed := by
  have same : document.readBack.undescribed = document.undescribed ↔
      (document.tables.map Table.readBack).map Table.undescribed =
        document.tables.map Table.undescribed := by
    simp only [undescribed, readBack, Document.mk.injEq]
  rw [same, List.map_map, List.map_inj_left]
  constructor
  · intro recovers table member
    exact (Table.recovers_iff (regenerates table member)).mp (recovers table member)
  · intro same table member
    exact (Table.recovers_iff (regenerates table member)).mpr (same table member)

/-! ## Scripts that are regenerated -/

def regenerate (sql : String) : String := (parse sql).document.ddl

/-- A regenerated script stays the same when it is regenerated exactly if every column of it, read
alone, is written in the same way again. It is read as the same tables, but for descriptions, exactly
if every column of it, read alone, is read as its own field. -/
theorem regenerate_regenerate_iff (sql : String) :
    (regenerate (regenerate sql) = regenerate sql ↔
      ∀ table ∈ (parse sql).document.tables, table.block.Regenerates) ∧
    ((parse (regenerate sql)).document.undescribed = (parse sql).document.undescribed ↔
      ∀ table ∈ (parse sql).document.tables, table.Recovers) := by
  have preamble : ∀ line ∈ some defaultHeader, IsPreamble line := by
    rintro _ ⟨⟩
    exact isPreamble_defaultHeader
  have nonempty : ∀ table ∈ (parse sql).document.tables, table.fields ≠ [] :=
    fun _ member => fields_ne_nil member
  have read (regenerates : ∀ table ∈ (parse sql).document.tables, table.block.Regenerates) :
      (parse (regenerate sql)).document = (parse sql).document.readBack := by
    rw [regenerate, parse_ddl_of_regenerates regenerates nonempty preamble]
  have rewritten : regenerate (regenerate sql) = regenerate sql ↔
      ∀ table ∈ (parse sql).document.tables, table.block.Regenerates := by
    constructor
    · exact regenerates_of_ddl_eq preamble
    · intro regenerates
      rw [regenerate, read regenerates]
      exact Document.ddl_readBack regenerates _
  refine ⟨rewritten, ?_, ?_⟩
  · intro same
    have regenerates := rewritten.mp (by
      rw [regenerate, ← Document.ddl_undescribed, same, Document.ddl_undescribed]
      rfl)
    rw [read regenerates] at same
    exact (Document.recovers_iff regenerates).mpr same
  · intro recovers
    have regenerates := fun table member => (recovers table member).regenerates
    rw [read regenerates]
    exact (Document.recovers_iff regenerates).mp recovers

/-- A keyword in quotes is written without them, and then taken for a constraint. -/
theorem quoted_keyword_is_lost :
    let sql := "CREATE TABLE t (\"check\" int, b text);"
    ¬ (∀ table ∈ (parse sql).document.tables, table.block.Regenerates) ∧
      regenerate (regenerate sql) ≠ regenerate sql := by
  decide +kernel

end TableSchema
