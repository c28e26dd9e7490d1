import TableSchema.Proofs.JsonReading
import TableSchema.Proofs.LetterCase
import TableSchema.Proofs.Utf8Decoding
import TableSchema.Session

/-! # What a session remembers

Whatever has been done in a session, its memory of parsed scripts holds the documents of these
scripts. So all ways to ask for the tables of one script agree, and a script that is replaced is
forgotten as far as answers can tell.
-/

namespace TableSchema

open Data Web

/-! ## The memory of parsed scripts -/

namespace ParseCache

/-- Whether a memory holds the documents of its scripts, each script once, and not too many. -/
structure Sound (cache : ParseCache) : Prop where
  parsed : ∀ entry ∈ cache.entries, entry.2 = TableSchema.parseDocument entry.1
  distinct : (cache.entries.map Prod.fst).Nodup
  bounded : cache.entries.length ≤ capacity

theorem sound_empty : Sound {} where
  parsed := by simp
  distinct := List.nodup_nil
  bounded := Nat.zero_le capacity

/-- What can become of a memory in one step: nothing, or a script is parsed with it. -/
inductive Next (cache : ParseCache) : ParseCache → Prop where
  | same : Next cache cache
  | used (sql : String) : Next cache (cache.parseDocument sql).2

variable {cache next : ParseCache}

/-- A script's document is the same, remembered or not. -/
theorem Sound.parseDocument_fst (sound : cache.Sound) (sql : String) :
    (cache.parseDocument sql).1 = TableSchema.parseDocument sql := by
  rw [parseDocument]
  cases found : cache.entries.lookup sql with
  | none => rfl
  | some document =>
      obtain ⟨before, after, listed, -⟩ := List.lookup_eq_some_iff.mp found
      exact sound.parsed (sql, document) (listed ▸ by simp)

theorem Sound.remember (sound : cache.Sound) (sql : String) :
    (cache.remember sql (TableSchema.parseDocument sql)).Sound where
  parsed entry member := by
    rcases List.mem_cons.mp (List.mem_of_mem_take member) with rfl | kept
    · rfl
    · exact sound.parsed entry (List.mem_filter.mp kept).1
  distinct := by
    rw [ParseCache.remember, List.map_take]
    refine (List.take_sublist _ _).nodup ?_
    rw [Association.set, List.map_cons, List.nodup_cons]
    refine ⟨fun member => ?_, (List.filter_sublist.map Prod.fst).nodup sound.distinct⟩
    obtain ⟨entry, kept, same⟩ := List.mem_map.mp member
    simp [Association.erase, same] at kept
  bounded := cache.length_remember_le sql _

theorem Next.sound (become : cache.Next next) (sound : cache.Sound) : next.Sound := by
  cases become with
  | same => exact sound
  | used sql =>
      have document := sound.parseDocument_fst sql
      rw [parseDocument] at document ⊢
      simp only at document ⊢
      rw [document]
      exact sound.remember sql

end ParseCache

/-! ## Steps -/

theorem Web.next_withScript {backend : Backend} {target : Target} {cache : ParseCache}
    {answer : Config.Settings → SourceText → Response × ParseCache}
    (next : ∀ settings source, cache.Next (answer settings source).2) :
    cache.Next (withScript backend target cache answer).2 := by
  unfold withScript
  split
  · exact .same
  · split
    · exact .same
    · exact .same
    · exact next _ _

/-- Of all requests only those for exports use the memory. -/
theorem Web.next_respond (backend : Backend) (cache : ParseCache) (request : Request) :
    cache.Next (respond backend cache request).2 := by
  unfold respond
  simp only
  split
  · exact .same
  · split
    · exact .same
    · split
      · exact .same
      · exact next_withScript fun _ _ => .same
      · exact next_withScript fun _ _ => .same
      · exact .same
      · exact next_withScript fun _ source => .used source.content

/-- Whether a response tells of a success, with the entries of an object as its data. -/
structure Web.Response.Tells (response : Response) (data : List (String × Value)) : Prop where
  status : response.status = 200
  content : response.content =
    .json (.object [("success", .bool true), ("data", .object data)])

namespace Session

theorem next_step (session : Session) (next : SessionStep) :
    session.cache.Next (session.step next).2.cache := by
  have files (answer : Except Files.FileFault Files.Tree) :
      (session.withFiles answer).2.cache = session.cache := by
    cases answer <;> rfl
  have asked {Answer : Type} (present : Answer → SessionAnswer)
      (answer : Except SessionFault Answer) :
      (session.answering present answer).2.cache = session.cache := by
    cases answer <;> rfl
  cases next with
  | write | makeDirectory | remove => rw [step, files]; exact .same
  | settings | candidates | load | read | config => rw [step, asked]; exact .same
  | setVariables => exact .same
  | app config =>
      rw [step]
      cases appSettingsOf session.host config <;> exact .same
  | parseCached sql => exact .used sql
  | command arguments input =>
      rw [step]
      split <;> exact .same
  | request request => exact next_respond _ _ request

theorem sound_run (session : Session) (sound : session.cache.Sound) (steps : List SessionStep) :
    (session.run steps).2.cache.Sound := by
  induction steps generalizing session with
  | nil => exact sound
  | cons next rest induction =>
      exact induction (session.step next).2 ((session.next_step next).sound sound)

def Answers (session : Session) (request : Request) (response : Response) : Prop :=
  (session.step (.request request)).1 = .response response

def Tells (session : Session) (request : Request) (data : List (String × Value)) : Prop :=
  ∃ response, session.Answers request response ∧ response.Tells data

def backend (session : Session) : Backend := ⟨session.host, session.appSettings⟩

theorem answers_iff {session : Session} {request : Request} {response : Response} :
    session.Answers request response ↔
      (respond session.backend session.cache request).1 = response := by
  rw [Answers, step]
  exact ⟨fun same => SessionAnswer.response.inj same, fun same => congrArg _ same⟩

theorem tells_iff {session : Session} {request : Request} {data : List (String × Value)} :
    session.Tells request data ↔
      (respond session.backend session.cache request).1.Tells data := by
  simp only [Tells, answers_iff, exists_eq_left']

end Session

/-! ## Requests -/

theorem lowerCase_lowerCase (text : String) : lowerCase (lowerCase text) = lowerCase text := by
  rw [lowerCase, lowerCase, String.toList_ofList, Text.lower_lower]

theorem Document.exportAs_lowerCase (document : Document) (format : String)
    (dialect : Option String) (translator : Translator) :
    document.exportAs (lowerCase format) dialect translator =
      document.exportAs format dialect translator := by
  rw [exportAs, exportAs, lowerCase_lowerCase]

namespace Web

def Request.Gets (request : Request) (path : String) : Prop :=
  request.method = "GET" ∧ request.target.path = path

structure Request.Sends (request : Request) (sql : String) : Prop where
  method : request.method = "POST"
  path : request.target.path = "/api/schema/parse"
  isJson : isJsonType request.contentType = true
  body : ∃ text entries, bodyText? request.body = some text ∧ ofJson text = .ok (.object entries) ∧
    Value.entry? entries "sql" = some (.text sql)

/-! ### Bodies -/

theorem encodingOf_of_ne_zero {first second : UInt8} (rest : List UInt8) (one : first ≠ 0)
    (two : second ≠ 0) : encodingOf (first :: second :: rest) = .utf8 := by
  match rest with
  | [] => simp [encodingOf, one, two]
  | [third] => rfl
  | third :: fourth :: rest => simp [encodingOf, one, two]

theorem bodyText?_of_brace {second : Char} (plain : second = '"' ∨ second = '\n')
    (rest : List Char) :
    bodyText? (String.ofList ('\x7b' :: second :: rest)) = some ('\x7b' :: second :: rest) := by
  have utf8 : encodingOf (('\x7b' :: second :: rest).flatMap String.utf8EncodeChar) = .utf8 := by
    rcases plain with rfl | rfl <;> exact encodingOf_of_ne_zero _ (by decide) (by decide)
  rw [bodyText?, Text.Utf8.toList_toUTF8, utf8, String.toList_ofList]
  rfl

theorem sends_toJson {target : Target} (path : target.path = "/api/schema/parse")
    {contentType : String} (isJson : isJsonType contentType = true) (layout : Layout)
    (sql : String) :
    ({ method := "POST", target, contentType,
       body := toJson layout (.object [("sql", .text sql)]) } : Request).Sends sql where
  method := rfl
  path := path
  isJson := isJson
  body := by
    have plain : (Value.object [("sql", .text sql)]).isPlain nestingLimit = true := by
      simp [Value.isPlain, Value.entriesArePlain, nestingLimit]
    have read := ofJson_toJson layout plain
    -- The encoding of a body is told by its first octets, so the second character matters too.
    obtain ⟨second, rest, start, written⟩ : ∃ second rest, (second = '"' ∨ second = '\n') ∧
        jsonValue layout 0 (.object [("sql", .text sql)]) = '\x7b' :: second :: rest := by
      cases layout with
      | oneLine => exact ⟨'"', _, .inl rfl, rfl⟩
      | indented spaces => exact ⟨'\n', _, .inr rfl, rfl⟩
    rw [toJson, written] at read ⊢
    rw [String.toList_ofList] at read
    exact ⟨_, _, bodyText?_of_brace start rest, read, rfl⟩

/-! ### Answers from the script -/

def Backend.script? (backend : Backend) : Option (Config.Settings × SourceText) :=
  match backend.currentSettings with
  | .ok settings => (readScript backend.host settings "").toOption.map (settings, ·)
  | .error _ => none

section Responses

variable {backend : Backend} {cache : ParseCache} {request : Request} {target : Target}
  {settings : Config.Settings} {source : SourceText}
  {answer : Config.Settings → SourceText → Response × ParseCache}

theorem withScript_of_script (found : backend.script? = some (settings, source)) :
    withScript backend target cache answer = answer settings source := by
  unfold Backend.script? at found
  unfold withScript
  cases current : backend.currentSettings with
  | error fault => simp [current] at found
  | ok own =>
      simp only [current] at found ⊢
      cases read : readScript backend.host own "" with
      | error fault => simp [read, Except.toOption] at found
      | ok script =>
          simp only [read, Except.toOption, Option.map_some, Option.some.injEq, Prod.mk.injEq]
            at found
          rw [← found.1, ← found.2]

/-- A request is answered with success only if there is a script. -/
theorem exists_script_of_success
    (success : (withScript backend target cache answer).1.status = 200) :
    ∃ settings source, backend.script? = some (settings, source) := by
  unfold withScript at success
  unfold Backend.script?
  cases current : backend.currentSettings with
  | error fault => simp [current, Response.internalError] at success
  | ok settings =>
      simp only [current] at success ⊢
      cases read : readScript backend.host settings "" with
      | ok source => exact ⟨settings, source, rfl⟩
      | error fault =>
          cases fault <;> simp [read, Response.internalError, Response.failure] at success

theorem respond_script (gets : request.Gets "/api/schema") :
    respond backend cache request = withScript backend request.target cache fun _ source =>
      (scriptResponse source, cache) := by
  simp only [respond, gets.2, gets.1, Route.ofPath?, Route.method, ne_eq, not_true, if_false]

theorem respond_tables (gets : request.Gets "/api/schema/tables") :
    respond backend cache request = withScript backend request.target cache fun _ source =>
      (tablesResponse source, cache) := by
  simp only [respond, gets.2, gets.1, Route.ofPath?, Route.method, ne_eq, not_true, if_false]

theorem respond_export (gets : request.Gets "/api/schema/export") :
    respond backend cache request = withScript backend request.target cache fun settings source =>
      (exportResponse backend.host.translator request.target settings
        (cache.parseDocument source.content).1, (cache.parseDocument source.content).2) := by
  simp only [respond, gets.2, gets.1, Route.ofPath?, Route.method, ne_eq, not_true, if_false]

theorem exists_script_of_shown {content : String} (gets : request.Gets "/api/schema")
    (shown : (respond backend cache request).1.Tells [("sql", .text content)]) :
    ∃ settings source, backend.script? = some (settings, source) ∧ source.content = content := by
  rw [respond_script gets] at shown
  obtain ⟨settings, source, found⟩ := exists_script_of_success shown.status
  refine ⟨settings, source, found, ?_⟩
  have told := shown.content
  rw [withScript_of_script found] at told
  simpa [scriptResponse, Response.success] using told

theorem tells_success (data : List (String × Value)) :
    (Response.success (.object data)).Tells data :=
  ⟨rfl, rfl⟩

theorem respond_sends {sql : String} (sends : request.Sends sql) :
    (respond backend cache request).1 = .success (.object (parse sql).entries) := by
  obtain ⟨text, entries, decoded, read, entry⟩ := sends.body
  have nonempty : request.body.isEmpty = false := by
    rw [Bool.eq_false_iff, ne_eq, String.isEmpty_iff]
    intro empty
    rw [empty] at decoded
    cases decoded
    cases read
  simp only [respond, sends.path, sends.method, Route.ofPath?, Route.method, ne_eq, not_true,
    if_false]
  simp only [parseResponse, nonempty, sends.isJson, decoded, Option.map_some, read, parseBody,
    entry]
  rfl

theorem exists_export_of_success {translator : Translator} {document : Document}
    (noDialect : target.parameter? "dialect" = none)
    (success : (exportResponse translator target settings document).status = 200) :
    ∃ mediaType text,
      (exportResponse translator target settings document).content = .download mediaType text ∧
        document.exportAs ((target.parameter? "format").getD "sql") none translator =
          .ok text := by
  unfold exportResponse at success ⊢
  simp only [noDialect, document.exportAs_lowerCase] at success ⊢
  cases exported : document.exportAs ((target.parameter? "format").getD "sql") none translator with
  | error fault => simp [exported, Response.failure] at success
  | ok text =>
      simp only [exported] at success ⊢
      split at success
      · simp [Response.internalError] at success
      · exact ⟨_, text, rfl, rfl⟩

end Responses

end Web

/-! ## Agreement -/

theorem Field.toValue_eq (field : Field) :
    field.toValue = .object (
      [("name", .text field.name), ("type", .text field.typeLabel),
        ("required", .bool field.required)] ++
      (field.description.map fun said => ("description", Value.text said)).toList) := by
  rw [Field.toValue]
  cases field.description <;> rfl

theorem Table.toValue_eq (table : Table) :
    table.toValue = .object [
      ("name", .text table.name),
      ("fields", .list (table.fields.map fun field => .object (
        [("name", .text field.name), ("type", .text field.typeLabel),
          ("required", .bool field.required)] ++
        (field.description.map fun said => ("description", Value.text said)).toList)))] := by
  rw [Table.toValue, List.map_congr_left fun field _ => field.toValue_eq]

theorem Diagnostic.toValue_eq (diagnostic : Diagnostic) :
    diagnostic.toValue = .object [
      ("kind", .text diagnostic.kind.name), ("message", .text diagnostic.message),
      ("table", .text diagnostic.table),
      ("text", (diagnostic.clause?.map Value.text).getD .null),
      ("line", .int diagnostic.line)] := by
  rw [Diagnostic.toValue]
  cases diagnostic.clause? <;> rfl

/-- After any steps, the memory of parsed scripts is sound: a script's document is the same,
remembered or not. A request changes neither the host nor the settings of the service. Where the
service shows a script, it also shows the tables and the diagnostics of this very script, it
answers the same to a request that sends the script, and an export that succeeds is one of the
script's document. -/
theorem entry_points_agree {host : Host} {appSettings : Option Config.Settings}
    {steps : List SessionStep} {session : Session}
    (reached : (Session.run { host, appSettings } steps).2 = session) :
    session.cache.Sound ∧
    (∀ sql, ∃ remembered,
      (session.step (.parseCached sql)).1 = .document (parseDocument sql) remembered) ∧
    (∀ request, (session.step (.request request)).2.host = session.host ∧
      (session.step (.request request)).2.appSettings = session.appSettings) ∧
    ∀ (asked : Request) (content : String), asked.Gets "/api/schema" →
      session.Tells asked [("sql", .text content)] →
      ∃ tables diagnostics : List Value,
        tables = (parse content).document.tables.map (fun table => .object [
          ("name", .text table.name),
          ("fields", .list (table.fields.map fun field => .object (
            [("name", .text field.name), ("type", .text field.typeLabel),
              ("required", .bool field.required)] ++
            (field.description.map fun said => ("description", Value.text said)).toList)))]) ∧
        diagnostics = (parse content).diagnostics.map (fun diagnostic => .object [
          ("kind", .text diagnostic.kind.name), ("message", .text diagnostic.message),
          ("table", .text diagnostic.table),
          ("text", (diagnostic.clause?.map Value.text).getD .null),
          ("line", .int diagnostic.line)]) ∧
        (∀ request : Request, request.Gets "/api/schema/tables" → ∃ path, session.Tells request
          [("source", .text path), ("tables", .list tables),
            ("diagnostics", .list diagnostics)]) ∧
        (∀ request : Request, request.Sends content → session.Tells request
          [("tables", .list tables), ("diagnostics", .list diagnostics)]) ∧
        (∀ (request : Request) (response : Response), request.Gets "/api/schema/export" →
          request.target.parameter? "dialect" = none → session.Answers request response →
            response.status = 200 →
              ∃ mediaType text, response.content = .download mediaType text ∧
                (parseDocument content).exportAs
                  ((request.target.parameter? "format").getD "sql") none
                  session.host.translator = .ok text) := by
  have sound : session.cache.Sound := reached ▸ Session.sound_run _ ParseCache.sound_empty steps
  refine ⟨sound,
    fun sql => ⟨_, congrArg (SessionAnswer.document · _) (sound.parseDocument_fst sql)⟩,
    fun request => ⟨rfl, rfl⟩, fun asked content gets shown => ?_⟩
  obtain ⟨settings, source, found, rfl⟩ := exists_script_of_shown gets (Session.tells_iff.mp shown)
  refine ⟨(parse source.content).document.tables.map Table.toValue,
    (parse source.content).diagnostics.map Diagnostic.toValue,
    List.map_congr_left fun table _ => table.toValue_eq,
    List.map_congr_left fun diagnostic _ => diagnostic.toValue_eq,
    fun request gets => ⟨source.path.text, ?_⟩, fun request sends => ?_,
    fun request response gets noDialect answered success => ?_⟩
  · rw [Session.tells_iff, respond_tables gets, withScript_of_script found]
    exact tells_success _
  · rw [Session.tells_iff, respond_sends sends]
    exact tells_success _
  · rw [Session.answers_iff, respond_export gets, withScript_of_script found] at answered
    simp only [sound.parseDocument_fst source.content] at answered
    subst answered
    exact exists_export_of_success noDialect success

def replacingSteps : List SessionStep := [
  .write "database/schema.sql" "CREATE TABLE a (x int);".toUTF8.data.toList,
  .request { target := .ofString "/api/schema/export" },
  .write "database/schema.sql" "CREATE TABLE b (y text);".toUTF8.data.toList]

/-- The tables are those of the new script, and the script can also be sent to get them. -/
theorem replaced_script_is_answered_from :
    let session := (Session.run { host := {} } replacingSteps).2
    let tables : Value := .list [.object [("name", .text "b"),
      ("fields", .list [.object [("name", .text "y"), ("type", .text "TEXT"),
        ("required", .bool false)]])]]
    session.Tells { target := .ofString "/api/schema" }
        [("sql", .text "CREATE TABLE b (y text);")] ∧
      (∃ path, session.Tells { target := .ofString "/api/schema/tables" }
        [("source", .text path), ("tables", tables), ("diagnostics", .list [])]) ∧
      session.Tells
        { method := "POST", target := .ofString "/api/schema/parse",
          body := toJson .oneLine (.object [("sql", .text "CREATE TABLE b (y text);")]) }
        [("tables", tables), ("diagnostics", .list [])] := by
  intro session tables
  have gets : ({ target := .ofString "/api/schema" } : Request).Gets "/api/schema" :=
    ⟨rfl, by decide +kernel⟩
  have answered : (Session.run { host := {} } replacingSteps).2.Answers
      { target := .ofString "/api/schema" }
      (.success (.object [("sql", .text "CREATE TABLE b (y text);")])) := by
    rfl
  have shown : session.Tells { target := .ofString "/api/schema" }
      [("sql", .text "CREATE TABLE b (y text);")] := ⟨_, answered, tells_success _⟩
  have read : parse "CREATE TABLE b (y text);" =
      { document := ⟨[⟨"b", [⟨"y", "TEXT", false, none⟩]⟩]⟩ } := by
    decide +kernel
  have reached : (Session.run { host := {} } replacingSteps).2 = session := rfl
  obtain ⟨told, reported, toldTables, toldReports, shows, answers, -⟩ :=
    (entry_points_agree reached).2.2.2 _ _ gets shown
  rw [read] at toldTables toldReports
  subst toldTables toldReports
  exact ⟨shown, shows _ ⟨rfl, by decide +kernel⟩,
    answers _ (sends_toJson (by decide +kernel) (by decide +kernel) .oneLine _)⟩

end TableSchema
