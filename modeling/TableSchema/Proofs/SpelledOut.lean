import TableSchema.Proofs.KeptColumns
import TableSchema.Proofs.Wordings

/-! # Tables as they are spelled out

The tables of a script are spelled out in it one after the other, and no table holds more marks
than the words that spell it.
-/

namespace TableSchema

open Sql Text

/-! ## Tables by their places -/

def Sql.HeaderPlace.table? (sql : List Char) (place : HeaderPlace) : Option Table :=
  place.statement?.bind fun statement => (readStatement (statement.statement sql)).1

theorem tables_eq (sql : List Char) :
    (parseChars sql).document.tables = (headers (mask sql)).filterMap (·.table? sql) := by
  simp only [parseChars, statements_eq, statementPlaces, List.filterMap_map,
    List.filterMap_filterMap]
  apply List.filterMap_congr
  intro place _
  simp only [HeaderPlace.table?]
  cases place.statement? <;> rfl

structure Sql.Wording.Tells (wording : Wording) (table : Table) : Prop where
  sound : wording.Sound
  name : table.name.toList = unquote wording.identifier
  nonempty : table.fields ≠ []
  columns : ∃ runs, ReadsColumns wording.body table.block.columns runs

/-- The tables are told one after the other, whatever stands between them. -/
inductive SpelledOut : List Char → List Table → Prop
  | nil (text : List Char) : SpelledOut text []
  | cons {front rest : List Char} {wording : Wording} {table : Table} {tables : List Table}
      (tells : wording.Tells table) (later : SpelledOut rest tables) :
      SpelledOut (front ++ (wording.text ++ rest)) (table :: tables)

theorem SpelledOut.behind {text : List Char} {tables : List Table} (spelled : SpelledOut text tables)
    (front : List Char) : SpelledOut (front ++ text) tables := by
  cases spelled with
  | nil => exact .nil _
  | cons tells later =>
      rw [← List.append_assoc]
      exact .cons tells later

theorem SpelledOut.of_drop {text : List Char} {tables : List Table} (count : Nat)
    (spelled : SpelledOut (text.drop count) tables) : SpelledOut text tables := by
  rw [← List.take_append_drop count text]
  exact spelled.behind _

theorem exists_tells {sql : List Char} {previous : Option Char} {position : Nat} {header : Header}
    (found : headerAt? previous ((mask sql).drop position) = some header) {table : Table}
    (read : (HeaderPlace.ofHeader position header ((mask sql).drop position)).table? sql =
      some table) :
    ∃ wording : Wording, wording.Tells table ∧ sql.drop position = wording.text ++
      sql.drop (HeaderPlace.ofHeader position header ((mask sql).drop position)).next := by
  rcases Option.bind_eq_some_iff.mp read with ⟨statement, complete, read⟩
  rcases exists_wording found complete with ⟨wording, sound, spelled, told⟩
  have closed : Reads .start (segments (statement.statement sql).body.toList) ['\n'] := by
    rw [told, String.toList_ofList]
    exact sound.closed
  rcases exists_runs_of_readStatement closed read with ⟨name, nonempty, runs, columns⟩
  rw [told] at name columns
  rw [String.toList_ofList] at columns
  refine ⟨wording, ⟨sound, ?_, nonempty, runs, columns⟩, spelled⟩
  rw [name, String.toList_ofList]

theorem spelledOut_headersFrom {sql : List Char} {previous : Option Char} {position skip : Nat}
    {masked : List Char} (shown : masked = (mask sql).drop position) :
    SpelledOut (sql.drop (position + skip))
      ((headersFrom previous position skip masked).filterMap (·.table? sql)) := by
  have tail {position : Nat} {character : Char} {rest : List Char}
      (shown : character :: rest = (mask sql).drop position) :
      rest = (mask sql).drop (position + 1) := by
    rw [← List.drop_drop, ← shown]
    rfl
  fun_induction headersFrom previous position skip masked with
  | case1 => exact .nil _
  | case2 previous position skip character rest induction =>
      have same : position + skip.succ = position + 1 + skip := by omega
      rw [same]
      exact induction (tail shown)
  | case3 previous position character rest _ induction =>
      have later := induction (tail shown)
      rw [Nat.add_zero, ← List.drop_drop] at later
      rw [Nat.add_zero]
      exact later.of_drop 1
  | case4 previous position character rest header found place induction =>
      have later := induction (tail shown)
      have further : position < place.next := HeaderPlace.position_lt_next ..
      have next : position + 1 + (place.next - position - 1) = place.next := by omega
      rw [next] at later
      rw [List.filterMap_cons, Nat.add_zero]
      cases read : place.table? sql with
      | none =>
          have dropped : sql.drop place.next = (sql.drop position).drop (place.next - position) := by
            rw [List.drop_drop, Nat.add_sub_cancel' (Nat.le_of_lt further)]
          rw [dropped] at later
          exact later.of_drop _
      | some table =>
          change (HeaderPlace.ofHeader position header (character :: rest)).table? sql = _ at read
          change SpelledOut (sql.drop
            (HeaderPlace.ofHeader position header (character :: rest)).next) _ at later
          rw [shown] at found read later
          rcases exists_tells found read with ⟨wording, tells, spelled⟩
          rw [spelled]
          exact @SpelledOut.cons [] _ _ _ _ tells later

/-- The tables of a script are spelled out in it. -/
theorem spelledOut (sql : List Char) : SpelledOut sql (parseChars sql).document.tables := by
  rw [tables_eq]
  exact @spelledOut_headersFrom sql none 0 0 (mask sql) rfl

/-! ## Marks -/

namespace Sql

theorem Block.markCount_text (block : Block) :
    markCount block.text = markCount block.name + markCount block.body + 3 := by
  have words : markCount createWords = 0 := by decide
  have last : markCount [';'] = 1 := by decide
  rw [Block.text_eq, markCount_append, words, markCount_other (by decide), markCount_append,
    markCount_quote, markCount_other (by decide), markCount_mark (by decide), markCount_append,
    markCount_mark (by decide), last]
  omega

namespace Wording

variable {wording : Wording} {table : Table}

theorem markCount_opening (wording : Wording) : markCount wording.opening =
    markCount wording.lead + markCount wording.identifier + markCount wording.gap + 1 := by
  have last : markCount ['('] = 1 := by decide
  rw [opening, markCount_append, markCount_append, markCount_append, last]
  omega

theorem markCount_text (wording : Wording) : markCount wording.text =
    markCount wording.opening + markCount wording.body + markCount wording.blanks + 2 := by
  have last : markCount [';'] = 1 := by decide
  rw [text, markCount_append, markCount_append, markCount_mark (by decide), markCount_append, last]
  omega

theorem Tells.markCount_name_le (tells : wording.Tells table) :
    markCount table.block.name ≤ markCount wording.identifier := by
  rw [Table.block, tells.name]
  exact markCount_unquote_le _

theorem Tells.columns_ne_nil (tells : wording.Tells table) : table.block.columns ≠ [] := by
  simpa [Table.block] using tells.nonempty

theorem Tells.markCount_body_le (tells : wording.Tells table) :
    markCount table.block.body ≤ markCount wording.body := by
  rcases tells.columns with ⟨runs, columns⟩
  have bound := columns.weight_le
  have sum : markCount table.block.body + 1 = weight table.block.columns :=
    markCount_body tells.columns_ne_nil
  omega

theorem Tells.markCount_le (tells : wording.Tells table) :
    markCount table.block.text ≤ markCount wording.text := by
  have name := tells.markCount_name_le
  have body := tells.markCount_body_le
  rw [Block.markCount_text, markCount_text, markCount_opening]
  omega

end Wording

end Sql

theorem markCount_paragraphs_cons (block : Block) (blocks : List Block) :
    markCount (paragraphs (block :: blocks)) =
      markCount block.text + markCount (paragraphs blocks) := by
  rw [paragraphs_cons, markCount_append, markCount_other (by decide), markCount_other (by decide)]

theorem SpelledOut.markCount_le {text : List Char} {tables : List Table}
    (spelled : SpelledOut text tables) :
    markCount (paragraphs (tables.map Table.block)) ≤ markCount text := by
  induction spelled with
  | nil => exact Nat.zero_le _
  | cons tells later induction =>
      have here := tells.markCount_le
      rw [List.map_cons, markCount_paragraphs_cons, markCount_append, markCount_append]
      omega

end TableSchema
