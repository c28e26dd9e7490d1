import TableSchema.Proofs.CommentFree
import TableSchema.Proofs.CommentOwners
import TableSchema.Proofs.PhrasesInCode

/-! # Where descriptions come from

A column is what the code of its clause says, described by the comments that the clause owns. What
they say may hold anything: it is found again behind the clause as it is.
-/

namespace TableSchema

open Sql Text

/-! ## Columns by their spans -/

namespace Sql.ClauseSpan

def code (span : ClauseSpan) (body : List Char) : List Char :=
  trim (span.slice (stripComments body))

/-- What describes a column of the given name: the comments that its clause owns, and otherwise that
it is the primary key, if its name or its code says so. -/
def description? (span : ClauseSpan) (body : List Char) (name : String) : Option String :=
  if ownedTexts body span ≠ [] then some (String.ofList (joinWords (ownedTexts body span)))
  else if name = "id" ∨ SaysPrimaryKey (span.slice (mask body)) then some primaryKeyDescription
  else none

def field? (span : ClauseSpan) (body : List Char) : Option Field :=
  (classify (span.code body)).toOption.map fun field =>
    { field with description := span.description? body field.name }

end Sql.ClauseSpan

def Sql.fieldsOf (body : List Char) : List Field := (clauseSpans body).filterMap (·.field? body)

/-! ## What comments say -/

namespace Sql

theorem trimmed_joinWords {words : List (List Char)}
    (shown : ∀ word ∈ words, word ≠ [] ∧ Trimmed word) :
    Trimmed (joinWords words) ∧ (words ≠ [] → joinWords words ≠ []) := by
  fun_induction joinWords words with
  | case1 => exact ⟨⟨bare_nil, by simp⟩, by simp⟩
  | case2 word =>
      have here := shown word (List.mem_cons_self ..)
      exact ⟨here.2, fun _ => here.1⟩
  | case3 word rest more induction =>
      rcases List.forall_mem_cons.mp shown with ⟨⟨nonempty, trimmed⟩, later⟩
      rcases induction later with ⟨ends, joined⟩
      refine ⟨⟨fun character first => ?_, fun character last => ?_⟩, fun _ => by simp⟩
      · rw [List.head?_append_of_ne_nil _ nonempty] at first
        exact trimmed.1 character first
      · rw [List.getLast?_append, List.getLast?_cons] at last
        rcases Option.isSome_iff_exists.mp (List.getLast?_isSome.mpr (joined more)) with
          ⟨final, found⟩
        rw [found] at last
        cases last
        exact ends.2 _ found

theorem shown_of_mem_ownedTexts {body : List Char} {span : ClauseSpan} {text : List Char}
    (member : text ∈ ownedTexts body span) : text ≠ [] ∧ Trimmed text := by
  rcases List.mem_filter.mp member with ⟨said, nonempty⟩
  rcases List.mem_map.mp said with ⟨comment, _, rfl⟩
  exact ⟨by simpa using nonempty, trimmed_trim _⟩

theorem Legible.ofClause_described {core : List Segment} (legible : Legible core)
    (trimmed : Trimmed (textOf core)) (nonempty : core ≠ []) {comment : List Char}
    (oneLine : '\n' ∉ comment) (said : Trimmed comment) (shown : comment ≠ []) :
    ClauseView.ofClause (commented (textOf core) comment) =
      ⟨maskOf core, textOf core, some comment⟩ := by
  rcases legible.ofClause_commented trimmed nonempty oneLine with ⟨description, view⟩
  have found : (ClauseView.ofClause (commented (textOf core) comment)).comment = some comment := by
    have text : commentText ('-' :: '-' :: ' ' :: comment) = comment := by
      have trims := trim_blanks blank_allBlank allBlank_nil said
      rwa [List.append_nil] at trims
    have first : (segments (commented (textOf core) comment)).find? (·.isLineComment) =
        some (.region .lineComment ('-' :: '-' :: ' ' :: comment)) := by
      rw [legible.segments_commented oneLine, List.find?_append, List.find?_eq_none.mpr]
      · rfl
      · intro segment member
        rw [legible.isLineComment_eq_false member]
        exact Bool.false_ne_true
    simp only [ClauseView.ofClause, first, Option.bind_some, Segment.text_region, text]
    rw [if_neg (by simpa using shown)]
  rw [view] at found ⊢
  exact congrArg _ found

theorem ofList_eq_id_iff {name : List Char} : String.ofList name = "id" ↔ name = ['i', 'd'] :=
  String.ofList_inj

theorem ClauseView.classify_described (masked plain : List Char) (comment : Option (List Char)) :
    (ClauseView.mk masked plain comment).classify =
      (ClauseView.mk masked plain none).classify.map fun field =>
        { field with
          description := (comment.map String.ofList).or
            (if field.name = "id" ∨ SaysPrimaryKey masked then some primaryKeyDescription
              else none) } := by
  unfold classify
  simp only
  split
  · rfl
  · split
    · rfl
    · split
      · rfl
      · split
        · rfl
        · simp only [Except.map, ofList_eq_id_iff, ← saysPrimaryKey_iff, Bool.or_eq_true, decide_eq_true_eq]

/-! ## Clauses -/

/-- The code of a clause is a legible run, and says that the column is the primary key if the span
does. -/
theorem exists_core_of_mem_clauseSpans {body : List Char}
    (closed : Reads .start (segments body) ['\n']) {span : ClauseSpan}
    (member : span ∈ clauseSpans body) :
    ∃ core, Legible core ∧ Trimmed (textOf core) ∧ span.code body = textOf core ∧
      (SaysPrimaryKey (span.slice (mask body)) ↔ SaysPrimaryKey (maskOf core)) := by
  rcases exists_run_of_mem_clauseSpans closed member with ⟨run, reads, masked, stripped⟩
  have legible : Legible (bareOf run) :=
    ⟨reads.bare (.inl (Behind.Agrees.refl _)), fun _ _ => uncommented_bareOf⟩
  rcases legible.exists_trimmed with
    ⟨before, core, after, whole, blank, blank', code, legible, trimmed⟩
  refine ⟨core, legible, trimmed, ?_, ?_⟩
  · rw [ClauseSpan.code, stripped, ← textOf_bareOf, code]
  · rw [masked, ← maskOf_bareOf, whole, maskOf_append, maskOf_append, maskOf_map_code,
      maskOf_map_code]
    exact saysPrimaryKey_blanks_iff blank blank'

theorem oneLine_of_ownedTexts {body : List Char} {span : ClauseSpan}
    (member : span ∈ clauseSpans body) : '\n' ∉ joinWords (ownedTexts body span) := by
  rcases List.mem_iff_getElem?.mp member with ⟨index, listed⟩
  rw [← owned_eq listed]
  exact oneLine_of_owned body index

theorem Legible.ofClause_texts {core : List Segment} (legible : Legible core)
    (trimmed : Trimmed (textOf core)) (nonempty : core ≠ []) {texts : List (List Char)}
    (said : ∀ text ∈ texts, text ≠ [] ∧ Trimmed text) (oneLine : '\n' ∉ joinWords texts) :
    ClauseView.ofClause (if texts.isEmpty then textOf core
        else textOf core ++ " -- ".toList ++ joinWords texts) =
      ⟨maskOf core, textOf core, if texts.isEmpty then none else some (joinWords texts)⟩ := by
  rcases trimmed_joinWords said with ⟨joined, shown⟩
  cases texts with
  | nil => exact legible.ofClause_eq trimmed
  | cons text texts =>
      exact legible.ofClause_described trimmed nonempty oneLine joined (shown (by simp))

theorem Legible.classify_described {core : List Segment} (legible : Legible core)
    (trimmed : Trimmed (textOf core)) (nonempty : core ≠ []) {texts : List (List Char)}
    (said : ∀ text ∈ texts, text ≠ [] ∧ Trimmed text) (oneLine : '\n' ∉ joinWords texts) :
    classify (if texts.isEmpty then textOf core
        else textOf core ++ " -- ".toList ++ joinWords texts) =
      (classify (textOf core)).map fun field =>
        { field with
          description :=
            if texts ≠ [] then some (String.ofList (joinWords texts))
            else if field.name = "id" ∨ SaysPrimaryKey (maskOf core) then
              some primaryKeyDescription
            else none } := by
  rw [classify, classify, legible.ofClause_texts trimmed nonempty said oneLine,
    legible.ofClause_eq trimmed]
  cases texts <;> exact ClauseView.classify_described ..

/-- The column of a clause is what is read of it with its comments behind it. -/
theorem field?_eq {body : List Char} (closed : Reads .start (segments body) ['\n'])
    {span : ClauseSpan} (member : span ∈ clauseSpans body) :
    ((clauseOf? (span.start, span.slice (stripComments body)) (ownedTexts body span)).bind
      fun clause => (classify clause.text).toOption) = span.field? body := by
  rcases exists_core_of_mem_clauseSpans closed member with ⟨core, legible, trimmed, code, key⟩
  have trims : trim (span.slice (stripComments body)) = textOf core := code
  rw [ClauseSpan.field?, code, clauseOf?]
  simp only [trims]
  by_cases empty : core = []
  · subst empty
    rfl
  · have shown := legible.reads.textOf_ne_nil empty
    have described := legible.classify_described trimmed empty
      (fun text => shown_of_mem_ownedTexts) (oneLine_of_ownedTexts member)
    rw [if_neg (by simpa using shown), Option.bind_some, described]
    simp only [ClauseSpan.description?, key]
    cases classify (textOf core) <;> rfl

/-! ## Statements -/

theorem fields_readClause {statement : Statement}
    (closed : Reads .start (segments statement.body.toList) ['\n']) :
    ((clauses statement.body.toList).map (readClause statement)).filterMap Sum.getLeft? =
      fieldsOf statement.body.toList := by
  have read : Sum.getLeft? ∘ readClause statement =
      fun clause => (classify clause.text).toOption := by
    funext clause
    rw [Function.comp_apply, readClause]
    cases classify clause.text <;> rfl
  rw [List.filterMap_map, read, clauses_eq, List.filterMap_filterMap]
  exact List.filterMap_congr fun span member => field?_eq closed member

end Sql

def Sql.Statement.table? (statement : Statement) : Option Table :=
  let fields := fieldsOf statement.body.toList
  if fields.isEmpty then none else some ⟨statement.name, fields⟩

theorem tables_eq_statements (sql : String) :
    (parse sql).document.tables = (statements sql.toList).filterMap Statement.table? := by
  rw [parse, parseChars, List.filterMap_map]
  refine List.filterMap_congr fun statement member => ?_
  simp only [Function.comp_apply, readStatement, fields_readClause (reads_body member),
    Statement.table?]
  split <;> rfl

/-- The tables of a script hold the columns of its statements, each with the description that the
comments of its own clause give it: a comment behind something on its line belongs to that clause
and to no other, and a comment alone on its line belongs to none. -/
theorem descriptions_from_owned_comments (sql : String) :
    (parse sql).document.tables = (statements sql.toList).filterMap Statement.table? ∧
      ∀ statement ∈ statements sql.toList, ∀ comment ∈ lineComments statement.body.toList,
        ((∃ place, LastOnLine (mask statement.body.toList) comment.start place) →
          ∃! span, span ∈ clauseSpans statement.body.toList ∧
            Owns statement.body.toList span comment) ∧
        ((¬ ∃ place, LastOnLine (mask statement.body.toList) comment.start place) →
          ∀ span, ¬ Owns statement.body.toList span comment) := by
  refine ⟨tables_eq_statements sql, fun statement _ comment _ => ⟨existsUnique_owner_iff.mpr, ?_⟩⟩
  rintro alone span ⟨place, last, _⟩
  exact alone ⟨place, last⟩

/-- A comment with quotes, commas and dashes, one alone on its line, one behind a literal of two
lines, and one behind the comma on the next line. -/
theorem tricky_comments_describe :
    let sql := "create table t (id x, -- ', (--)\n--0\na \"y\ny\" --1\n,/**/--2\nb z primary key);"
    let body := "id x, -- ', (--)\n--0\na \"y\ny\" --1\n,/**/--2\nb z primary key".toList
    (parse sql).document.tables =
        [⟨"t", [⟨"id", "X", true, some "', (--)"⟩, ⟨"a", "\"Y Y\"", false, some "1 2"⟩,
          ⟨"b", "Z", true, some "Primary key"⟩]⟩] ∧
      ∃! span, span ∈ clauseSpans body ∧ Owns body span ⟨.lineComment, 6, 16⟩ := by
  intro sql body
  have owned := descriptions_from_owned_comments sql
  refine ⟨?_, ?_⟩
  · rw [owned.1]
    decide +kernel
  · have listed : ⟨"t", String.ofList body, 1⟩ ∈ statements sql.toList := by decide +kernel
    have member : ⟨.lineComment, 6, 16⟩ ∈ lineComments (String.ofList body).toList := by
      decide +kernel
    have last : LastOnLine (mask (String.ofList body).toList) 6 4 :=
      lastOnLine_iff.mpr (by decide +kernel)
    have only := (owned.2 _ listed _ member).1 ⟨4, last⟩
    rwa [String.toList_ofList] at only

end TableSchema
