import TableSchema.Proofs.Generated

/-! # Reading generated scripts

The statements of a generated script are found again, and each body is cut into the columns that
were joined. So a document is read back as what its columns are read as.
-/

namespace TableSchema.Sql

open Text

/-! ## Clauses -/

theorem piecesFrom_cut {first masked : List Char} (same : masked.length = first.length)
    (balanced : Balanced masked) (uncut : cutsFrom 0 0 masked = []) (start : Nat)
    (second later : List Char) :
    piecesFrom start (first ++ ',' :: second) (cutsFrom start 0 (masked ++ ',' :: later)) =
      (start, first) :: piecesFrom (start + first.length + 1) second
        (cutsFrom (start + first.length + 1) 0 later) := by
  rw [cutsFrom_append, (cutsFrom_eq_nil_iff _ _).mpr uncut, List.nil_append, balanced.surplus_eq, same]
  simp only [cutsFrom, Char.reduceEq, if_false, Int.add_zero, and_self, if_true]
  exact piecesFrom_cons start first second _

namespace Enclosed

variable {column : List Char}

theorem uncut_line (enclosed : Enclosed column) :
    Balanced ('\n' :: indented (mask column)) ∧ cutsFrom 0 0 ('\n' :: indented (mask column)) = [] := by
  have front : Balanced ['\n', ' ', ' '] := .of_not_mem (by decide) (by decide)
  refine ⟨front.append enclosed.balanced, ?_⟩
  exact (cutsFrom_append_eq_nil front.surplus_eq _).mpr ⟨rfl, enclosed.uncut⟩

end Enclosed

theorem trim_line {column after : List Char} (trimmed : Trimmed column) (blank : AllBlank after) :
    trim ('\n' :: (indented column ++ after)) = column := by
  have front : AllBlank ['\n', ' ', ' '] := by
    intro character member
    have blanks : ∀ other ∈ ['\n', ' ', ' '], isBlank other = true :=
      List.all_iff_forall_prop.mp (by decide)
    exact blanks character member
  exact trim_blanks front blank trimmed

theorem pieces_joinColumns {columns : List (List Char)}
    (enclosed : ∀ column ∈ columns, Enclosed column) (trimmed : ∀ column ∈ columns, Trimmed column)
    (nonempty : columns ≠ []) (start : Nat) :
    (piecesFrom start ('\n' :: joinColumns (columns.map indented))
      (cutsFrom start 0 ('\n' :: joinColumns (columns.map (indented ∘ mask))))).map (trim ·.2) =
        columns := by
  induction columns generalizing start with
  | nil => exact absurd rfl nonempty
  | cons column columns induction =>
      have line := (enclosed column (List.mem_cons_self ..)).uncut_line
      have trimmed' := trimmed column (List.mem_cons_self ..)
      cases columns with
      | nil =>
          have uncut : cutsFrom start 0 ('\n' :: joinColumns [indented (mask column)]) = [] := by
            change cutsFrom start 0 (('\n' :: indented (mask column)) ++ ['\n']) = []
            rw [cutsFrom_append, (cutsFrom_eq_nil_iff _ _).mpr line.2, line.1.surplus_eq]
            rfl
          have feed : AllBlank ['\n'] := by
            intro character member
            rw [List.mem_singleton.mp member]
            decide
          change (piecesFrom start ('\n' :: (indented column ++ ['\n']))
            (cutsFrom start 0 ('\n' :: joinColumns [indented (mask column)]))).map _ = _
          rw [uncut, piecesFrom, List.map_cons, trim_line trimmed' feed]
          rfl
      | cons next columns =>
          have same : ('\n' :: indented (mask column)).length = ('\n' :: indented column).length := by
            simp [indented, length_mask]
          change (piecesFrom start (('\n' :: indented column) ++
            ',' :: '\n' :: joinColumns ((next :: columns).map indented))
              (cutsFrom start 0 (('\n' :: indented (mask column)) ++
                ',' :: '\n' :: joinColumns ((next :: columns).map (indented ∘ mask))))).map _ = _
          have here : trim ('\n' :: indented column) = column := by
            have whole := trim_line trimmed' allBlank_nil
            rwa [List.append_nil] at whole
          rw [piecesFrom_cut same line.1 line.2, List.map_cons, here,
            induction (fun other member => enclosed other (List.mem_cons_of_mem _ member))
              (fun other member => trimmed other (List.mem_cons_of_mem _ member)) (by simp)]

/-- The clauses of a body that was generated are its columns. -/
theorem Block.Sound.clauses_body {block : Block} (sound : block.Sound)
    (trimmed : ∀ column ∈ block.columns, Trimmed column ∧ column ≠ [])
    (nonempty : block.columns ≠ []) : (clauses block.body).map (·.text) = block.columns := by
  have pieces : (piecesFrom 0 block.body (cutsFrom 0 0
      ('\n' :: joinColumns (block.columns.map (indented ∘ mask))))).map (trim ·.2) =
        block.columns :=
    pieces_joinColumns sound.enclosed (fun column member => (trimmed column member).1) nonempty 0
  have masked : mask block.body = '\n' :: joinColumns (block.columns.map (indented ∘ mask)) := by
    rw [Block.body, SelfContained.mask_cons (by decide), Block.lines,
      (selfContained_joinColumns sound.enclosed).2.1]
  have code := clauses_stripComments block.body
  rw [sound.selfContained_body.stripComments_eq, cuts, masked] at code
  rw [code, List.map_filterMap]
  generalize piecesFrom 0 block.body _ = listed at pieces ⊢
  have held (piece : Nat × List Char) (member : piece ∈ listed) :
      (clauseOf? piece []).map (·.text) = some (trim piece.2) := by
    have listed : trim piece.2 ∈ block.columns := by
      rw [← pieces]
      exact List.mem_map_of_mem member
    have nonempty := (trimmed _ listed).2
    simp [clauseOf?, nonempty]
  calc listed.zipIdx.filterMap (fun indexed => (clauseOf? indexed.1 []).map (·.text))
      = (listed.zipIdx.map Prod.fst).filterMap (fun piece => (clauseOf? piece []).map (·.text)) := by
        rw [List.filterMap_map]
        rfl
    _ = listed.map (trim ·.2) := by
        rw [List.zipIdx_map_fst, List.filterMap_congr held]
        exact congrFun List.filterMap_eq_map listed
    _ = block.columns := pieces

/-! ## Headers -/

/-- What may stand in front of a script: nothing, or one line that is a comment. -/
def IsPreamble (header : String) : Prop :=
  header = "" ∨ ['-', '-'] <+: header.toList ∧ '\n' ∉ header.toList

instance (header : String) : Decidable (IsPreamble header) := inferInstanceAs (Decidable (_ ∨ _))

theorem isPreamble_defaultHeader : IsPreamble defaultHeader := by decide

theorem mask_commentLine {line : List Char} (opens : ['-', '-'] <+: line) (oneLine : '\n' ∉ line)
    (rest : List Char) : mask (line ++ '\n' :: rest) = line.map hide ++ '\n' :: mask rest := by
  rcases opens with ⟨comment, rfl⟩
  have reads : Reads .start
      (.region .lineComment (['-', '-'] ++ comment) :: .code '\n' :: segments rest) [] := by
    refine ⟨regionAt?_of_closedRegion ?_, rfl, ?_⟩
    · exact .lineComment (by simpa using oneLine) (by simp [RegionKind.MayEndBefore])
    · apply (reads_segments rest).congr
      exact Behind.start_fresh.agrees (Behind.push_fresh _ (by decide))
  have cut := segments_textOf reads
  rw [textOf_cons, textOf_cons, textOf, text_segments] at cut
  rw [mask]
  simp only [Segment.text_region, Segment.text_code, List.singleton_append] at cut
  rw [cut]
  rfl

/-! ## Scripts -/

theorem headerLines_cases {header : Option String} (preamble : ∀ line ∈ header, IsPreamble line) :
    headerLines header = [] ∨ ∃ line, headerLines header = line ++ ['\n', '\n'] ∧
      ['-', '-'] <+: line ∧ '\n' ∉ line := by
  cases header with
  | none => exact .inl rfl
  | some header =>
      rcases preamble header rfl with rfl | ⟨opens, oneLine⟩
      · exact .inl rfl
      · right
        refine ⟨header.toList, ?_, opens, oneLine⟩
        rw [headerLines, if_neg]
        · rfl
        · intro empty
          rw [String.isEmpty_iff.mp empty] at opens
          cases List.prefix_nil.mp opens

theorem headers_headerLines {header : Option String} (preamble : ∀ line ∈ header, IsPreamble line)
    (text : List Char) : ∃ front previous, front.length = (headerLines header).length ∧
      mask (headerLines header ++ text) = front ++ mask text ∧ isWordAt previous = false ∧
      headers (mask (headerLines header ++ text)) =
        headersFrom previous (headerLines header).length 0 (mask text) := by
  rcases headerLines_cases preamble with nothing | ⟨line, commented, opens, oneLine⟩
  · rw [nothing]
    exact ⟨[], none, rfl, rfl, rfl, rfl⟩
  · have masked : mask (line ++ ['\n', '\n'] ++ text) =
        (line.map hide ++ ['\n', '\n']) ++ mask text := by
      rw [List.append_assoc]
      change mask (line ++ '\n' :: ('\n' :: text)) = _
      rw [mask_commentLine opens oneLine, SelfContained.mask_cons (by decide)]
      simp
    have dull : ∀ character ∈ line.map hide ++ ['\n', '\n'], fold character ≠ 'c' := by
      intro character member
      have blank : character = ' ' ∨ character = '\n' := by
        rcases List.mem_append.mp member with hidden | feed
        · rcases List.mem_map.mp hidden with ⟨original, _, rfl⟩
          unfold hide
          split
          · exact .inr rfl
          · exact .inl rfl
        · right
          simpa using feed
      rcases blank with rfl | rfl <;> decide
    have last : (line.map hide ++ ['\n', '\n']).getLast?.or none = some '\n' := by simp
    have length : (line.map hide ++ ['\n', '\n']).length = (line ++ ['\n', '\n']).length := by simp
    rw [commented]
    refine ⟨_, some '\n', length, masked, by decide, ?_⟩
    rw [masked, headers, headersFrom_append dull, last, Nat.zero_add, length]

/-- The statements of a generated script are what was generated. -/
theorem findings_script {header : Option String} (preamble : ∀ line ∈ header, IsPreamble line)
    {blocks : List Block} (sound : ∀ block ∈ blocks, block.Sound) :
    ∃ statements, List.Forall₂ Block.Describes blocks statements ∧
      findings (headerLines header ++ paragraphs blocks) = statements.map Finding.statement := by
  rcases headers_headerLines preamble (paragraphs blocks) with ⟨_, previous, _, _, outside, found⟩
  rw [findings_eq, found]
  exact findings_paragraphs sound outside (headerLines header)

/-! ## Columns as they are written -/

def nullWords (required : Bool) : List Char :=
  if required then " NOT NULL".toList else " NULL".toList

theorem nullWords_ends (required : Bool) : ∃ front, nullWords required = front ++ ['L'] := by
  cases required with
  | false => exact ⟨[' ', 'N', 'U', 'L'], rfl⟩
  | true => exact ⟨[' ', 'N', 'O', 'T', ' ', 'N', 'U', 'L'], rfl⟩

def columnText (name label : List Char) (required : Bool) : List Char :=
  quote name ++ ' ' :: (label ++ nullWords required)

theorem bare_quote (name rest : List Char) : Bare (quote name ++ ' ' :: rest) := by
  unfold quote
  split
  · rename_i plain
    cases name with
    | nil => cases plain
    | cons first name => exact bare_cons (visible_of_isPlainName plain (List.mem_cons_self ..)) _
  · exact bare_cons (by decide) _

theorem isBlank_of_afterBlanks? {text rest : List Char} (separated : afterBlanks? text = some rest) :
    ∀ character ∈ text.head?, isBlank character = true := by
  cases text with
  | nil => cases separated
  | cons character text =>
      rintro _ ⟨⟩
      by_contra other
      rw [afterBlanks?, if_neg other] at separated
      cases separated

theorem columnName?_of_plain {written after rest : List Char} (plain : isPlainName written = true)
    (separated : afterBlanks? after = some rest) :
    columnName? (written ++ after) = some (written, rest) := by
  cases written with
  | nil => cases plain
  | cons first name =>
      simp only [isPlainName, Bool.and_eq_true, List.all_eq_true] at plain
      have parts := takeWhile_of_stop name after plain.2 fun character next =>
        isNamePart_eq_false_of_isBlank (isBlank_of_afterBlanks? separated character next)
      have noQuote : first ≠ '"' := by
        rintro rfl
        exact absurd plain.1 (by decide)
      rw [List.cons_append, columnName?.eq_3 _ _ noQuote, if_pos plain.1, parts.1, parts.2,
        separated]
      rfl

theorem columnName?_of_quoted (name : List Char) {after rest : List Char}
    (separated : afterBlanks? after = some rest) :
    columnName? (quoted name ++ after) = some (quoted name, rest) := by
  have closes : quoteEnd? '"' false (doubleQuotes name ++ '"' :: after) =
      some (doubleQuotes name ++ ['"'], after) := by
    apply quoteEnd?_doubleQuotes
    rintro character next rfl
    cases isBlank_of_afterBlanks? separated '"' next
  have whole : quoted name ++ after = '"' :: (doubleQuotes name ++ '"' :: after) := by
    simp [quoted]
  rw [whole, columnName?, closes]
  simp only [Option.bind_eq_bind, Option.bind_some, separated]
  rfl

theorem columnName?_eq_some {text written rest : List Char} :
    columnName? text = some (written, rest) ↔
      (isPlainName written = true ∨ ∃ name, written = quoted name) ∧
        ∃ blanks, text = written ++ (blanks ++ rest) ∧ blanks ≠ [] ∧ AllBlank blanks ∧
          Bare rest := by
  constructor
  · intro found
    unfold columnName? at found
    split at found
    · cases found
    · simp only [Option.bind_eq_bind, Option.bind_eq_some_iff, Prod.exists, Option.some.injEq,
        Prod.mk.injEq] at found
      rcases found with ⟨inside, behind, closes, after, separated, rfl, rfl⟩
      rcases afterBlanks?_eq_some.mp separated with ⟨blanks, rfl, blank⟩
      rcases exists_name_of_quoteEnd? closes with ⟨name, rfl⟩
      refine ⟨.inr ⟨name, rfl⟩, blanks, ?_, blank⟩
      rw [← append_of_quoteEnd? closes]
      rfl
    · rename_i character text _
      split at found
      · rename_i starts
        simp only [Option.bind_eq_bind, Option.bind_eq_some_iff, Option.some.injEq,
          Prod.mk.injEq] at found
        rcases found with ⟨after, separated, rfl, rfl⟩
        rcases afterBlanks?_eq_some.mp separated with ⟨blanks, behind, blank⟩
        refine ⟨.inl ?_, blanks, ?_, blank⟩
        · rw [isPlainName, starts, List.all_takeWhile]
          rfl
        · rw [← behind, List.cons_append, List.takeWhile_append_dropWhile]
      · cases found
  · rintro ⟨written, blanks, rfl, nonempty, blank, bare⟩
    have separated : afterBlanks? (blanks ++ rest) = some rest :=
      afterBlanks?_eq_some.mpr ⟨blanks, rfl, nonempty, blank, bare⟩
    rcases written with plain | ⟨name, rfl⟩
    · exact columnName?_of_plain plain separated
    · exact columnName?_of_quoted name separated

theorem columnName?_quote (name rest : List Char) :
    columnName? (quote name ++ ' ' :: rest) = some (quote name, trimLeft rest) := by
  rcases exists_blanks rest with ⟨blanks, whole, blank⟩
  refine columnName?_eq_some.mpr ⟨?_, ' ' :: blanks, ?_, by simp, ?_, bare_trimLeft rest⟩
  · cases plain : isPlainName name with
    | true => exact .inl (by rw [quote_of_plain plain, plain])
    | false => exact .inr ⟨name, quote_of_not_plain plain⟩
  · rw [List.cons_append, ← whole]
  · exact List.forall_mem_cons.mpr ⟨by decide, blank⟩

theorem quote_append_inj {name name' rest rest' : List Char}
    (same : quote name ++ ' ' :: rest = quote name' ++ ' ' :: rest') : name = name' ∧ rest = rest' := by
  have read := columnName?_quote name rest
  rw [same, columnName?_quote] at read
  have quotes : quote name' = quote name := (Prod.mk.inj (Option.some.inj read)).1
  rw [quotes] at same
  refine ⟨?_, (List.cons.inj (List.append_cancel_left same)).2⟩
  rw [← unquote_quote name, ← quotes, unquote_quote]

theorem trimmed_columnText (name label : List Char) (required : Bool) :
    Trimmed (columnText name label required) := by
  refine ⟨bare_quote name _, fun character last => ?_⟩
  rcases nullWords_ends required with ⟨front, ends⟩
  rw [columnText, ends, ← List.append_assoc, ← List.cons_append, ← List.append_assoc,
    List.getLast?_concat] at last
  cases last
  decide

theorem columnText_ne_nil (name label : List Char) (required : Bool) :
    columnText name label required ≠ [] :=
  List.append_ne_nil_of_right_ne_nil _ (by simp)

end TableSchema.Sql

namespace TableSchema

open Sql Text

/-! ## Documents -/

theorem exists_of_forall₂ {α β : Type} {relation : α → β → Prop} {first : List α} {second : List β}
    (related : List.Forall₂ relation first second) {element : β} (member : element ∈ second) :
    ∃ other ∈ first, relation other element := by
  induction related with
  | nil => cases member
  | cons here _ induction =>
      rcases List.mem_cons.mp member with rfl | member
      · exact ⟨_, List.mem_cons_self .., here⟩
      · rcases induction member with ⟨other, listed, related⟩
        exact ⟨other, List.mem_cons_of_mem _ listed, related⟩

def Field.column (field : Field) : List Char :=
  columnText field.name.toList field.typeLabel.toList field.required

theorem Field.ddl_eq (field : Field) : field.ddl = indented field.column := by
  change [' ', ' '] ++ quote field.name.toList ++ (' ' :: field.typeLabel.toList) ++
    nullWords field.required = _
  rw [List.append_assoc, List.append_assoc]
  rfl

def Table.block (table : Table) : Block := ⟨table.name.toList, table.fields.map Field.column⟩

theorem Table.ddl_eq (table : Table) : table.ddl = table.block.text := by
  have lines : table.fields.map Field.ddl = table.block.lines := by
    rw [Block.lines, block, List.map_map]
    exact List.map_congr_left fun field _ => field.ddl_eq
  rw [ddl, lines]
  rfl

theorem Table.clauses_block (table : Table) (sound : table.block.Sound)
    (nonempty : table.fields ≠ []) :
    (clauses table.block.body).map (·.text) = table.fields.map Field.column := by
  apply sound.clauses_body
  · intro column member
    rcases List.mem_map.mp member with ⟨field, _, rfl⟩
    exact ⟨trimmed_columnText _ _ _, columnText_ne_nil _ _ _⟩
  · simpa [block] using nonempty

structure Table.RereadAs (table read : Table) : Prop where
  sound : table.block.Sound
  name : read.name = table.name
  nonempty : table.fields ≠ []
  fields : List.Forall₂ (fun field read => classify field.column = .ok read) table.fields read.fields

theorem Table.RereadAs.readStatement_eq {table read : Table} (reread : table.RereadAs read)
    {statement : Statement} (describes : table.block.Describes statement) :
    readStatement statement = (some read, []) := by
  rcases describes with ⟨name, body⟩
  have columns := table.clauses_block reread.sound reread.nonempty
  have fields : List.Forall₂ (fun column read => classify column = .ok read)
      (table.fields.map Field.column) read.fields :=
    List.forall₂_map_left_iff.mpr reread.fields
  rw [← columns, List.forall₂_map_left_iff] at fields
  have parts : (clauses table.block.body).map (readClause statement) = read.fields.map Sum.inl := by
    rw [← List.forall₂_eq_eq_eq, List.forall₂_map_left_iff, List.forall₂_map_right_iff]
    apply fields.imp
    intro clause field classified
    rw [readClause, classified]
  have nonempty : read.fields ≠ [] := by
    rintro none
    have lengths := reread.fields.length_eq
    rw [none] at lengths
    exact reread.nonempty (List.length_eq_zero_iff.mp lengths)
  have read' : (read.fields.map (Sum.inl (β := Diagnostic))).filterMap Sum.getLeft? =
      read.fields := by
    rw [List.filterMap_map]
    exact List.filterMap_some
  have refused : (read.fields.map (Sum.inl (β := Diagnostic))).filterMap Sum.getRight? = [] := by
    rw [List.filterMap_map]
    exact List.filterMap_eq_nil_iff.mpr fun _ _ => rfl
  have named : statement.name = read.name := by
    rw [name, reread.name]
    exact String.ofList_toList
  have notEmpty : read.fields.isEmpty = false := by simpa using nonempty
  rw [readStatement, body, String.toList_ofList, parts]
  simp only [read', refused, notEmpty, named, Bool.false_eq_true, if_false]

theorem readStatements_eq {tables reads : List Table}
    (reread : List.Forall₂ Table.RereadAs tables reads) {statements : List Statement}
    (describe : List.Forall₂ Block.Describes (tables.map Table.block) statements) :
    statements.map readStatement = reads.map fun read => (some read, []) := by
  induction reread generalizing statements with
  | nil =>
      cases describe
      rfl
  | cons here _ induction =>
      cases describe with
      | cons describes describe =>
          rw [List.map_cons, List.map_cons, here.readStatement_eq describes, induction describe]

theorem Document.toList_ddl (document : Document) (header : Option String) :
    (document.ddl header).toList =
      headerLines header ++ paragraphs (document.tables.map Table.block) := by
  rw [ddl, String.toList_ofList, script, List.flatMap_map, paragraphs, List.flatMap_map]
  simp only [Table.ddl_eq]
  rfl

/-- A generated script is read back as what its columns are read as, and nothing of it is left
out. -/
theorem parse_ddl {document read : Document}
    (reread : List.Forall₂ Table.RereadAs document.tables read.tables) {header : Option String}
    (preamble : ∀ line ∈ header, IsPreamble line) :
    parse (document.ddl header) = { document := read } := by
  have sound : ∀ block ∈ document.tables.map Table.block, block.Sound := by
    intro block member
    rcases List.mem_map.mp member with ⟨table, listed, rfl⟩
    rcases exists_of_forall₂ reread.flip listed with ⟨read, _, reread⟩
    exact reread.sound
  rcases findings_script preamble sound with ⟨statements, describe, found⟩
  rw [← document.toList_ddl] at found
  have complete : Sql.statements (document.ddl header).toList = statements := by
    rw [Sql.statements, found, List.filterMap_map]
    exact List.filterMap_some
  have incomplete : statementDiagnostics (document.ddl header).toList = [] := by
    rw [statementDiagnostics, found, List.filterMap_map]
    exact List.filterMap_eq_nil_iff.mpr fun _ _ => rfl
  rw [parse, parseChars, complete, incomplete, readStatements_eq reread describe,
    List.filterMap_map, List.flatMap_map]
  have tables : read.tables.filterMap ((·.1) ∘ fun read => (some read, ([] : List Diagnostic))) =
      read.tables :=
    List.filterMap_some
  have diagnostics : (read.tables.flatMap fun _ => ([] : List Diagnostic)) = [] := by
    simp
  rw [tables]
  simp only [diagnostics, List.append_nil]

end TableSchema
