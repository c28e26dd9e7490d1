import TableSchema.Cache
import TableSchema.Data.JsonReader
import TableSchema.Data.JsonWriter
import TableSchema.DocumentValue
import TableSchema.Export.Format
import TableSchema.Source
import TableSchema.Web.Body
import TableSchema.Web.Query

/-! The web service. It answers requests for the script, for its tables and for exports, and it
parses scripts that it is sent. The script is read anew for every request. -/

namespace TableSchema.Web

open Config Data

def version : String := "0.1.0"

/-! ## Requests and responses -/

structure Request where
  method : String := "GET"
  target : Target
  contentType : String := "application/json"
  body : String := ""

inductive Content where
  | none
  | json (value : Value)
  /-- A text of the given media type that is offered as a file. -/
  | download (mediaType text : String)

structure Response where
  status : Nat
  content : Content
  /-- The value of the header that offers a download. -/
  disposition : Option String := none

namespace Response

def contentType? (response : Response) : Option String :=
  match response.content with
  | .none => none
  | .json _ => some "application/json"
  | .download mediaType _ =>
      some (if mediaType.startsWith "text/" then s!"{mediaType}; charset=utf-8" else mediaType)

def detail (status : Nat) (detail : Value) : Response :=
  { status, content := .json (.object [("detail", detail)]) }

def redirect : Response := { status := 307, content := .none }

def success (data : Value) : Response :=
  { status := 200, content := .json (.object [("success", .bool true), ("data", data)]) }

def failure (status : Nat) (message : String) : Response :=
  { status
    content := .json (.object [("success", .bool false), ("error", .text message)]) }

def internalError (target : Target) (message : String) : Response :=
  { status := 500
    content := .json (.object [
      ("success", .bool false), ("error", .text "Internal server error"),
      ("detail", .text message), ("path", .text target.address)]) }

end Response

/-! ## Headers -/

/-- A header is written in Latin-1. These are the places of the first characters in a row that
cannot be written, if there are any: the first one, and how many there are. -/
def firstUnwritable? (text : List Char) : Option (Nat × List Char) :=
  match text.findIdx? (fun character => 0xFF < character.toNat) with
  | none => none
  | some place => some (place, (text.drop place).takeWhile fun character => 0xFF < character.toNat)

def unwritableMessage (place : Nat) (characters : List Char) : String :=
  let which := match characters with
    | [character] =>
        s!"character '{String.ofList (Text.hexEscape character)}' in position {place}"
    | characters => s!"characters in position {place}-{place + characters.length - 1}"
  "'latin-1' codec can't encode " ++ which ++ ": ordinal not in range(256)"

def dispositionOf (fileName : String) : String :=
  "attachment; filename=\"" ++ fileName ++ "\""

/-! ## Answers to single requests -/

structure Backend where
  host : Host
  settings : Option Settings

def Backend.currentSettings (backend : Backend) : Except SettingsFault Settings :=
  match backend.settings with
  | some settings => .ok settings
  | none => backend.host.settings

def withScript (backend : Backend) (target : Target) (cache : ParseCache)
    (answer : Settings → SourceText → Response × ParseCache) : Response × ParseCache :=
  match backend.currentSettings with
  | .error fault => (.internalError target fault.message, cache)
  | .ok settings =>
      match readScript backend.host settings "" with
      | .error (.badPath fault) => (.internalError target fault.message, cache)
      | .error fault => (.failure 500 fault.message, cache)
      | .ok source => answer settings source

def scriptResponse (source : SourceText) : Response :=
  .success (.object [("sql", .text source.content)])

def tablesResponse (source : SourceText) : Response :=
  .success (.object (("source", .text source.path.text) :: (parse source.content).entries))

def exportResponse (translator : Translator) (target : Target) (settings : Settings)
    (document : Document) : Response :=
  let format := lowerCase ((target.parameter? "format").getD "sql")
  match document.exportAs format (target.parameter? "dialect") translator with
  | .error fault => .failure 400 fault.message
  | .ok text =>
      let mediaType := ((ExportFormat.ofName? format).map ExportFormat.mediaType).getD ""
      let disposition := dispositionOf (exportFileName settings.schemaName format)
      match firstUnwritable? disposition.toList with
      | some (place, characters) =>
          .internalError target (unwritableMessage place characters)
      | none =>
          { status := 200, content := .download mediaType text, disposition := some disposition }

/-! ## Parsing what was sent -/

def brokenTextMessage (place : Nat) (codePoints : List Nat) : String :=
  let which := match codePoints with
    | [codePoint] =>
        s!"character '{String.ofList (unitEscape codePoint)}' in position {place}"
    | codePoints => s!"characters in position {place}-{place + codePoints.length - 1}"
  "'utf-8' codec can't encode " ++ which ++ ": surrogates not allowed"

/-- What is wrong with the body of a request. The input that is wrong is sent back, which cannot
be done with a number that is not finite, or with a text that cannot be written. -/
def invalidBody (target : Target) (kind : String) (place : List Value) (message : String)
    (input : Value) (more : List (String × Value) := []) : Response :=
  let detail : Value := .list [.object ([("type", .text kind),
    ("loc", .list (.text "body" :: place)), ("msg", .text message), ("input", input)] ++ more)]
  if !input.isFinite then
    .internalError target "Out of range float values are not JSON compliant"
  else match firstBroken? (compactJson (.object [("detail", detail)])) with
    | some (place, codePoints) => .internalError target (brokenTextMessage place codePoints)
    | none => .detail 422 detail

/-- Whether a body of the given type is read as JSON: `application/json` or a type that is
built on it. A type with more than one slash is none. -/
def isJsonType (contentType : String) : Bool :=
  let mediaType := Text.lower (Text.trim (contentType.toList.takeWhile (· ≠ ';')))
  let subtype := (mediaType.dropWhile (· ≠ '/')).drop 1
  mediaType.takeWhile (· ≠ '/') = "application".toList && !subtype.contains '/' &&
    (subtype = "json".toList || "+json".toList.isSuffixOf subtype)

def parseBody (target : Target) (body : Value) : Response :=
  match body with
  | .object entries =>
      match Value.entry? entries "sql" with
      | some (.text sql) => .success (parse sql).toValue
      | some (.brokenText codePoints) =>
          invalidBody target "string_unicode" [.text "sql"]
            "Input should be a valid string, unable to parse raw data as a unicode string"
            (.brokenText codePoints)
      | some other =>
          invalidBody target "string_type" [.text "sql"] "Input should be a valid string" other
      | none => invalidBody target "missing" [.text "sql"] "Field required" body
  | other =>
      invalidBody target "model_attributes_type" []
        "Input should be a valid dictionary or object to extract fields from" other

/-- The response to a body that cannot be read, although it may be JSON. -/
def unreadableBody : Response := .detail 400 (.text "There was an error parsing the body")

def parseResponse (request : Request) : Response :=
  let target := request.target
  if request.body.isEmpty then invalidBody target "missing" [] "Field required" .null
  else if isJsonType request.contentType then
    match (bodyText? request.body).map ofJson with
    | some (.ok body) => parseBody target body
    | some (.error (fault, place)) =>
        if fault.isLimit then unreadableBody
        else invalidBody target "json_invalid" [.int place] "JSON decode error" (.object [])
          [("ctx", .object [("error", .text fault.message)])]
    | none => unreadableBody
  else parseBody target (.text request.body)

/-! ## Routes -/

inductive Route where
  | health
  | script
  | tables
  | parse
  | exportFile
  deriving DecidableEq, Repr

namespace Route

def ofPath? : String → Option Route
  | "/health" => some .health
  | "/api/schema" => some .script
  | "/api/schema/tables" => some .tables
  | "/api/schema/parse" => some .parse
  | "/api/schema/export" => some .exportFile
  | _ => none

def method : Route → String
  | .parse => "POST"
  | _ => "GET"

end Route

def redirects (path : String) : Bool :=
  let shorter := path.toList.reverse.dropWhile (· = '/') |>.reverse
  path.toList.getLast? = some '/' && (Route.ofPath? (String.ofList shorter)).isSome

/-- Answer a request. Only exports use the memory of parsed scripts. -/
def respond (backend : Backend) (cache : ParseCache) (request : Request) :
    Response × ParseCache :=
  let target := request.target
  match Route.ofPath? target.path with
  | none =>
      (if redirects target.path then .redirect else .detail 404 (.text "Not Found"), cache)
  | some route =>
      if request.method ≠ route.method then (.detail 405 (.text "Method Not Allowed"), cache)
      else match route with
        | .health =>
            ({ status := 200
               content := .json (.object [("status", .text "ok"), ("version", .text version)]) },
              cache)
        | .script => withScript backend target cache fun _ source =>
            (scriptResponse source, cache)
        | .tables => withScript backend target cache fun _ source =>
            (tablesResponse source, cache)
        | .parse => (parseResponse request, cache)
        | .exportFile => withScript backend target cache fun settings source =>
            let (document, cache) := cache.parseDocument source.content
            (exportResponse backend.host.translator target settings document, cache)

end TableSchema.Web
