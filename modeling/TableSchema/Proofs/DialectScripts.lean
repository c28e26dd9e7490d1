import Mathlib.Data.List.TakeWhile
import TableSchema.Dialect
import TableSchema.Export.Format
import TableSchema.Proofs.RoundTrip

/-! # Scripts in dialects

Of a translator it is assumed that it writes the statement of a table with other types, unless it
fails on it. As long as the types that it writes are plain if those of the document are, nothing but
the types is lost on the way back. The translator of the library does what is assumed.
-/

namespace TableSchema

open Sql Text

/-! ## Documents with other types -/

section

variable (retype : List Char → List Char)

def Field.retyped (field : Field) : Field :=
  { field with typeLabel := String.ofList (retype field.typeLabel.toList) }

def Table.retyped (table : Table) : Table :=
  { table with fields := table.fields.map (Field.retyped retype) }

def Document.retyped (chosen : Table → Bool) (document : Document) : Document :=
  ⟨document.tables.map fun table => if chosen table then table.retyped retype else table⟩

/-- No type loses what makes a column with it readable. -/
def KeepsPlainTypes : Prop := ∀ type : List Char, PlainType type → PlainType (retype type)

end

section

variable {retype : List Char → List Char} {chosen : Table → Bool}

theorem Document.exists_of_mem_retyped {document : Document} {made : Table}
    (listed : made ∈ (document.retyped retype chosen).tables) :
    ∃ table ∈ document.tables, made = table ∨ made = table.retyped retype := by
  obtain ⟨table, member, rfl⟩ := List.mem_map.mp listed
  refine ⟨table, member, ?_⟩
  split
  · exact .inr rfl
  · exact .inl rfl

theorem Field.Writable.retyped {field : Field} (writable : field.Writable)
    (keeps : KeepsPlainTypes retype) : (field.retyped retype).Writable where
  name := writable.name
  type := by
    rw [Field.retyped, String.toList_ofList]
    exact keeps _ writable.type

theorem Table.Writable.retyped {table : Table} (writable : table.Writable)
    (keeps : KeepsPlainTypes retype) : (table.retyped retype).Writable where
  name := writable.name
  nonempty := by simpa [Table.retyped] using writable.nonempty
  fields := by
    intro made listed
    obtain ⟨field, member, rfl⟩ := List.mem_map.mp listed
    exact (writable.fields field member).retyped keeps

theorem Document.Writable.retyped {document : Document} (writable : document.Writable)
    (keeps : KeepsPlainTypes retype) : (document.retyped retype chosen).Writable := by
  intro made listed
  obtain ⟨table, member, rfl | rfl⟩ := Document.exists_of_mem_retyped listed
  · exact writable made member
  · exact (writable table member).retyped keeps

/-! ## Shapes -/

def Table.shape (table : Table) : String × List (String × Bool) :=
  (table.name, table.fields.map fun field => (field.name, field.required))

def Document.shape (document : Document) : List (String × List (String × Bool)) :=
  document.tables.map Table.shape

theorem Table.shape_retyped (table : Table) : (table.retyped retype).shape = table.shape := by
  simp [shape, retyped, Field.retyped]

theorem Document.shape_retyped (document : Document) :
    (document.retyped retype chosen).shape = document.shape := by
  rw [shape, retyped, List.map_map]
  apply List.map_congr_left
  intro table _
  rw [Function.comp_apply]
  split
  · exact table.shape_retyped
  · rfl

/-- Fields of the name `id` are required, as they are read. -/
def Document.RequiresKeys (document : Document) : Prop :=
  ∀ table ∈ document.tables, ∀ field ∈ table.fields, field.name = "id" → field.required = true

instance (document : Document) : Decidable document.RequiresKeys :=
  inferInstanceAs (Decidable (∀ table ∈ document.tables, ∀ field ∈ table.fields, _ → _))

theorem Document.RequiresKeys.retyped {document : Document} (keys : document.RequiresKeys) :
    (document.retyped retype chosen).RequiresKeys := by
  intro made listed field member named
  obtain ⟨table, here, rfl | rfl⟩ := Document.exists_of_mem_retyped listed
  · exact keys made here field member named
  · obtain ⟨original, there, rfl⟩ := List.mem_map.mp member
    exact keys table here original there named

theorem Field.name_reread (field : Field) : field.reread.name = field.name := by
  unfold reread
  split <;> rfl

theorem Field.required_reread {field : Field} (key : field.name = "id" → field.required = true) :
    field.reread.required = field.required := by
  unfold reread
  split
  · rename_i named
    exact (key named).symm
  · rfl

theorem Document.shape_reread {document : Document} (keys : document.RequiresKeys) :
    document.relabelled.reread.shape = document.shape := by
  rw [shape, reread, relabelled, List.map_map, List.map_map]
  apply List.map_congr_left
  intro table here
  simp only [Function.comp_apply, Table.shape, Table.reread, Table.relabelled, List.map_map,
    Prod.mk.injEq, true_and]
  apply List.map_congr_left
  intro field there
  exact Prod.ext field.relabelled.name_reread (Field.required_reread (keys table here field there))

/-- A document in which plain types are replaced by others is read with the shape that it had. -/
theorem parse_ddl_retyped {document : Document} (writable : document.Writable)
    (keys : document.RequiresKeys) (keeps : KeepsPlainTypes retype)
    {header : Option String} (preamble : ∀ line ∈ header, IsPreamble line) :
    (parse ((document.retyped retype chosen).ddl header)).diagnostics = [] ∧
      (parse ((document.retyped retype chosen).ddl header)).document.shape = document.shape := by
  rw [parse_ddl_of_writable (writable.retyped keeps) preamble]
  exact ⟨rfl, (Document.shape_reread keys.retyped).trans document.shape_retyped⟩

/-! ## Translators -/

/-- Whether a translator that does not fail on the statement of a table writes it with other types,
and with the same names and requirements. -/
def Translator.Renders (translator : Translator) (dialect : String)
    (retype : List Char → List Char) (table : Table) : Prop :=
  ∀ statements, translator.translate? dialect (withoutSemicolons table.ddl) = some statements →
    statements = [withoutSemicolons (table.retyped retype).ddl]

theorem withoutSemicolons_createStatement (name : List Char) (columns : List (List Char)) :
    withoutSemicolons (createStatement name columns) ++ [';'] = createStatement name columns := by
  obtain ⟨front, ends⟩ : ∃ front, createStatement name columns = front ++ [')', ';'] := ⟨_, rfl⟩
  rw [ends, withoutSemicolons, List.reverse_append]
  simp

theorem endStatements_withoutSemicolons (table : Table) :
    endStatements [withoutSemicolons table.ddl] = table.ddl := by
  have single (statement : List Char) : endStatements [statement] = statement ++ [';'] := by
    simp [endStatements, List.intercalate]
  rw [single, Table.ddl, withoutSemicolons_createStatement]

variable {translator : Translator} {dialect : String}

/-- Whether a translator fails on a table or not, the statement is that of a table. -/
theorem Table.ddlIn_eq {table : Table} (renders : translator.Renders dialect retype table) :
    table.ddlIn translator dialect =
      (if (translator.translate? dialect (withoutSemicolons table.ddl)).isSome then
        table.retyped retype else table).ddl := by
  rw [ddlIn]
  cases translated : translator.translate? dialect (withoutSemicolons table.ddl) with
  | none => rfl
  | some statements =>
      simp only [Option.isSome_some, if_true]
      rw [renders statements translated, endStatements_withoutSemicolons]

theorem Document.ddlIn_eq {document : Document}
    (renders : ∀ table ∈ document.tables, translator.Renders dialect retype table)
    (header : Option String) :
    document.ddlIn translator dialect header = (document.retyped retype fun table =>
      (translator.translate? dialect (withoutSemicolons table.ddl)).isSome).ddl header := by
  rw [ddlIn, ddl, retyped, List.map_map]
  congr 2
  exact List.map_congr_left fun table listed => Table.ddlIn_eq (renders table listed)

end

/-! ## Types in dialects -/

theorem isDigit_of_typeCharacters :
    ∀ character ∈ typeCharacters, isDigit character = true → character.isDigit = true := by
  have checked : ∀ character ∈ typeCharacters, isDigit character = character.isDigit :=
    List.all_iff_forall_prop.mp (by decide)
  intro character member digit
  rw [← checked character member, digit]

theorem sizedVarchar?_eq_some {label digits : List Char}
    (sized : Dialect.sizedVarchar? label = some digits) :
    digits ≠ [] ∧ ∀ digit ∈ digits, digit ∈ label ∧ isDigit digit = true := by
  simp only [Dialect.sizedVarchar?] at sized
  split at sized
  · rename_i shaped
    cases sized
    simp only [Bool.and_eq_true, Bool.not_eq_true', List.isEmpty_eq_false_iff,
      decide_eq_true_eq] at shaped
    refine ⟨shaped.1.2, fun digit member => ⟨?_, List.mem_takeWhile_imp member⟩⟩
    exact List.mem_of_mem_drop ((List.takeWhile_sublist _).subset member)
  · cases sized

theorem plainType_of_collapse_eq {type : List Char} (collapsed : collapse type = type ∧
    words type ≠ [] ∧ ∀ word ∈ words type, IsTypeWord word) : PlainType type := by
  rcases collapsed with ⟨same, nonempty, areTypeWords⟩
  exact same ▸ .words nonempty areTypeWords

theorem plainType_typeNameIn (dialect : Dialect) :
    ∀ names ∈ Dialect.typeNames, PlainType (dialect.typeNameIn names).toList := by
  have checked : ∀ names ∈ Dialect.typeNames, let type := (dialect.typeNameIn names).toList
      collapse type = type ∧ words type ≠ [] ∧ ∀ word ∈ words type, IsTypeWord word := by
    cases dialect <;> decide
  exact fun names listed => plainType_of_collapse_eq (checked names listed)

theorem plainType_of_typeName? {dialect : Dialect} {type made : List Char} (plain : PlainType type)
    (renamed : dialect.typeName? type = some made) : PlainType made := by
  unfold Dialect.typeName? at renamed
  split at renamed
  · rename_i digits sized
    -- A length may have digits of every script, but those of a plain type are of ASCII.
    rcases sizedVarchar?_eq_some sized with ⟨nonempty, members⟩
    have isDigits : ∀ digit ∈ digits, digit.isDigit = true := fun digit member =>
      isDigit_of_typeCharacters digit (plain.mem_typeCharacters (members digit member).1)
        (members digit member).2
    cases renamed
    split
    · exact @PlainType.sized "TEXT".toList _ (by decide) nonempty isDigits
    · exact .sized isTypeWord_varcharWord nonempty isDigits
  · split at renamed
    · rename_i names found
      cases renamed
      exact plainType_typeNameIn dialect names (List.mem_of_find?_eq_some found)
    · split at renamed
      · cases renamed
      · cases renamed
        exact plain

def Dialect.retype (dialect : Dialect) (type : List Char) : List Char :=
  (dialect.typeName? type).getD type

theorem keepsPlainTypes_retype (dialect : Dialect) : KeepsPlainTypes dialect.retype := by
  intro type plain
  rw [Dialect.retype]
  cases named : dialect.typeName? type with
  | none => exact plain
  | some made => exact plainType_of_typeName? plain named

/-! ## The translator of the library -/

namespace Dialect

variable {dialect : Dialect}

theorem identifier_eq (quotes : dialect ≠ .mysql) (name : List Char) :
    dialect.identifier name = quote name := by
  cases dialect with
  | postgres | sqlite => rfl
  | mysql => exact absurd rfl quotes

theorem findPlace?_nullWords {type : List Char} (plain : PlainType type) (required : Bool) :
    ∃ words, nullWords required = ' ' :: words ∧
      findPlace? typeEndsAt (some ' ') (type ++ ' ' :: words) = some (type.length + 1) ∧
      requirement? words = some required := by
  have passes := plain.passesOver startsWords_typeEndsAt fun _ => fails_typeEndsAt
  have first : findPlace? typeEndsAt (some ' ') "NULL".toList = some 0 := by decide
  have first' : findPlace? typeEndsAt (some ' ') "NOT NULL".toList = some 0 := by decide
  cases required with
  | false =>
      refine ⟨"NULL".toList, rfl, ?_, by decide⟩
      rw [passes, first, Option.map_some, Nat.zero_add]
  | true =>
      refine ⟨"NOT NULL".toList, rfl, ?_, by decide⟩
      rw [passes, first', Option.map_some, Nat.zero_add]

theorem column?_column (quotes : dialect ≠ .mysql) {field : Field} (writable : field.Writable)
    {column : List Char} (made : dialect.column? field.column = some column) :
    column = (field.retyped dialect.retype).ddl := by
  have plain := writable.type
  obtain ⟨words, same, place, requirement⟩ := findPlace?_nullWords plain field.required
  have bare := plain.bare_append (' ' :: words)
  have read : columnName? field.column =
      some (quote field.name.toList, field.typeLabel.toList ++ ' ' :: words) := by
    rw [Field.column, columnText, same, columnName?_quote]
    exact congrArg (fun rest => some (quote field.name.toList, rest))
      (trimLeft_blanks allBlank_nil bare)
  have type : trim ((field.typeLabel.toList ++ ' ' :: words).take
      (field.typeLabel.toList.length + 1)) = field.typeLabel.toList := by
    rw [List.take_length_add_append]
    exact trim_blanks allBlank_nil blank_allBlank plain.trimmed
  have constraint : (field.typeLabel.toList ++ ' ' :: words).drop
      (field.typeLabel.toList.length + 1) = words := by
    rw [List.drop_length_add_append]
    rfl
  simp only [column?, read, place, type, constraint, requirement, Option.bind_eq_bind,
    Option.bind_some, Option.bind_eq_some_iff] at made
  obtain ⟨name, named, ⟨⟩⟩ := made
  rw [identifier_eq quotes, unquote_quote, Field.ddl, Field.retyped, retype, named,
    String.toList_ofList]
  rfl

theorem forall₂_of_mapM {α β : Type} {read : α → Option β} {elements : List α} {results : List β}
    (answered : elements.mapM read = some results) :
    List.Forall₂ (fun element result => read element = some result) elements results := by
  induction elements generalizing results with
  | nil =>
      cases answered
      exact .nil
  | cons element elements induction =>
      simp only [List.mapM_cons, Option.bind_eq_bind, Option.bind_eq_some_iff] at answered
      rcases answered with ⟨result, here, others, there, made⟩
      cases made
      exact .cons here (induction there)

theorem mapM_column?_columns (quotes : dialect ≠ .mysql) {fields : List Field}
    (writable : ∀ field ∈ fields, field.Writable) {columns : List (List Char)}
    (made : (fields.map Field.column).mapM dialect.column? = some columns) :
    columns = fields.map fun field => (field.retyped dialect.retype).ddl := by
  have pairs := forall₂_of_mapM made
  rw [List.forall₂_map_left_iff] at pairs
  have both := (List.forall₂_and_left _ _).mpr ⟨writable, pairs⟩
  rw [← List.forall₂_eq_eq_eq, List.forall₂_map_right_iff]
  exact both.flip.imp fun column field related => column?_column quotes related.1 related.2

theorem statements_ddl {table : Table} (writable : table.Writable) :
    ∃ statement, Sql.statements (script none [withoutSemicolons table.ddl ++ [';']]) = [statement] ∧
      table.block.Describes statement := by
  have sound : ∀ block ∈ [table.block], block.Sound := by
    simpa using writable.rereadAs.sound
  obtain ⟨statements, describe, found⟩ := @findings_script none (by simp) _ sound
  obtain ⟨statement, _, describes, ⟨⟩, rfl⟩ := List.forall₂_cons_left_iff.mp describe
  refine ⟨statement, ?_, describes⟩
  have same : script none [withoutSemicolons table.ddl ++ [';']] =
      headerLines none ++ paragraphs [table.block] := by
    rw [Table.ddl, withoutSemicolons_createStatement, ← Table.ddl, table.ddl_eq]
    rfl
  rw [Sql.statements, same, found]
  rfl

/-- The translator of the library does what is assumed of translators. -/
theorem renders (quotes : dialect ≠ .mysql) {table : Table} (writable : table.Writable) :
    translator.Renders dialect.name dialect.retype table := by
  intro statements translated
  have known : ofName? dialect.name = some dialect := by cases dialect <;> decide
  obtain ⟨statement, found, name, body⟩ := statements_ddl writable
  have named : dialect.identifier statement.name.toList = quote table.name.toList := by
    rw [name, String.toList_ofList, identifier_eq quotes]
    rfl
  have clauses : (Sql.clauses statement.body.toList).map (·.text) =
      table.fields.map Field.column := by
    rw [body, String.toList_ofList]
    exact table.clauses_block writable.rereadAs.sound writable.nonempty
  simp only [translator, known, Option.bind_some, Option.map_eq_some_iff, statement?, found,
    clauses, Option.bind_eq_bind, Option.bind_eq_some_iff] at translated
  obtain ⟨made, ⟨columns, read, made_eq⟩, rfl⟩ := translated
  have same := mapM_column?_columns quotes writable.fields read
  cases columns with
  | nil => exact absurd (List.map_eq_nil_iff.mp same.symm) writable.nonempty
  | cons column columns =>
      cases made_eq
      rw [named, same, Table.ddl, Table.retyped, List.map_map]
      rfl

end Dialect

/-! ## Scripts in dialects -/

/-- If a translator writes the statements of tables with other plain types, as far as it does not
fail on them, a script in its dialect is read with all tables, fields and requirements of the
document. -/
theorem ddlIn_keeps_shape {translator : Translator} {dialect : String}
    (known : translator.knows dialect = true) {retype : List Char → List Char}
    (keeps : KeepsPlainTypes retype) {document : Document} (writable : document.Writable)
    (keys : document.RequiresKeys)
    (renders : ∀ table ∈ document.tables, translator.Renders dialect retype table)
    {header : Option String} (preamble : ∀ line ∈ header, IsPreamble line) :
    ∃ text, document.ddlInNamed dialect header translator = .ok text ∧
      (parse text).diagnostics = [] ∧ (parse text).document.shape = document.shape := by
  refine ⟨document.ddlIn translator dialect header, if_pos known, ?_⟩
  rw [Document.ddlIn_eq renders]
  exact parse_ddl_retyped writable keys keeps preamble

/-- The first table is written with other types, and on the second the translator fails. -/
theorem sqlite_script_keeps_shape :
    let document : Document := ⟨[
      ⟨"a);--", [⟨"id", "UUID", true, none⟩, ⟨"say \"hi\",\n$$", "VARCHAR(12)", false, none⟩,
        ⟨"seen", "TIMESTAMP WITH TIME ZONE", true, none⟩]⟩,
      ⟨"flags", [⟨"bits", "BIT VARYING", true, none⟩, ⟨"count", "BIGINT", false, none⟩]⟩]⟩
    let text := "-- two tables\n\n" ++
      "CREATE TABLE \"a);--\" (\n  id UUID NOT NULL,\n" ++
      "  \"say \"\"hi\"\",\n$$\" TEXT(12) NULL,\n  seen TIMESTAMPTZ NOT NULL\n);\n\n" ++
      "CREATE TABLE flags (\n  bits BIT VARYING NOT NULL,\n  count BIGINT NULL\n);\n\n"
    Dialect.translator.knows "sqlite" = true ∧ KeepsPlainTypes Dialect.sqlite.retype ∧
      document.Writable ∧ document.RequiresKeys ∧
      (∀ table ∈ document.tables,
        Dialect.translator.Renders "sqlite" Dialect.sqlite.retype table) ∧
      (∀ line ∈ some "-- two tables", IsPreamble line) ∧
      document.ddlInNamed "sqlite" (some "-- two tables") Dialect.translator = .ok text ∧
      (parse text).diagnostics = [] ∧ (parse text).document.shape = document.shape := by
  intro document text
  have length : PlainType "VARCHAR(12)".toList :=
    @PlainType.sized varcharWord ['1', '2'] isTypeWord_varcharWord (by decide)
      (List.all_iff_forall_prop.mp (by decide))
  have writable : document.Writable := by
    intro table listed
    simp only [document, List.mem_cons, List.not_mem_nil, or_false] at listed
    rcases listed with rfl | rfl
    · refine ⟨by decide, by decide, ?_⟩
      simp only [List.mem_cons, List.not_mem_nil, or_false, forall_eq_or_imp, forall_eq]
      exact ⟨⟨⟨by decide, by decide, by decide⟩, plainType_of_collapse_eq (by decide)⟩,
        ⟨⟨by decide, by decide, by decide⟩, length⟩,
        ⟨⟨by decide, by decide, by decide⟩, plainType_of_collapse_eq (by decide)⟩⟩
    · refine ⟨by decide, by decide, ?_⟩
      simp only [List.mem_cons, List.not_mem_nil, or_false, forall_eq_or_imp, forall_eq]
      exact ⟨⟨⟨by decide, by decide, by decide⟩, plainType_of_collapse_eq (by decide)⟩,
        ⟨⟨by decide, by decide, by decide⟩, plainType_of_collapse_eq (by decide)⟩⟩
  have keys : document.RequiresKeys := by decide
  have preamble : ∀ line ∈ some "-- two tables", IsPreamble line := by
    rintro _ ⟨⟩
    decide
  have known : Dialect.translator.knows "sqlite" = true := by decide
  have keeps := keepsPlainTypes_retype .sqlite
  have renders : ∀ table ∈ document.tables,
      Dialect.translator.Renders "sqlite" Dialect.sqlite.retype table :=
    fun table listed => @Dialect.renders .sqlite (by decide) _ (writable table listed)
  have written : document.ddlInNamed "sqlite" (some "-- two tables") Dialect.translator =
      .ok text := by
    decide +kernel
  obtain ⟨other, same, shape⟩ := ddlIn_keeps_shape known keeps writable keys renders preamble
  rw [written] at same
  cases same
  exact ⟨known, keeps, writable, keys, renders, preamble, written, shape⟩

end TableSchema
