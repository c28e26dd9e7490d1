import TableSchema.Config.ServiceConfig
import TableSchema.Data.JsonReader

/-! Validation of configurations. A data value is read as a configuration: keys that are not
known are ignored and those that are missing have defaults. Everything that is wrong is
reported, in the order of the keys of a configuration. -/

namespace TableSchema.Config

open Files Text

/-! ## Problems -/

inductive Problem where
  /-- A part that has parts of its own is no object; it should describe what `model` names. -/
  | notObject (model : String)
  | notText
  /-- A text has code points that stand for no character. -/
  | brokenText
  | notList
  | notInteger
  | unreadableInteger
  | fractionalNumber
  | infiniteNumber
  | hugeNumber
  | belowMinimum (minimum : Nat)
  | aboveMaximum (maximum : Nat)
  | emptyName
  | separatorInName
  | unknownLevel
  deriving DecidableEq, Repr

namespace Problem

def kind : Problem → String
  | .notObject _ => "model_type"
  | .notText => "string_type"
  | .brokenText => "string_unicode"
  | .notList => "list_type"
  | .notInteger => "int_type"
  | .unreadableInteger => "int_parsing"
  | .fractionalNumber => "int_from_float"
  | .infiniteNumber => "finite_number"
  | .hugeNumber => "int_parsing_size"
  | .belowMinimum _ => "greater_than_equal"
  | .aboveMaximum _ => "less_than_equal"
  | .emptyName | .separatorInName => "value_error"
  | .unknownLevel => "literal_error"

def message : Problem → String
  | .notObject model => s!"Input should be a valid dictionary or instance of {model}"
  | .notText => "Input should be a valid string"
  | .brokenText =>
      "Input should be a valid string, unable to parse raw data as a unicode string"
  | .notList => "Input should be a valid list"
  | .notInteger => "Input should be a valid integer"
  | .unreadableInteger =>
      "Input should be a valid integer, unable to parse string as an integer"
  | .fractionalNumber => "Input should be a valid integer, got a number with a fractional part"
  | .infiniteNumber => "Input should be a finite number"
  | .hugeNumber => "Unable to parse input string as an integer, exceeded maximum size"
  | .belowMinimum minimum => s!"Input should be greater than or equal to {minimum}"
  | .aboveMaximum maximum => s!"Input should be less than or equal to {maximum}"
  | .emptyName => "Value error, name must not be empty"
  | .separatorInName => "Value error, name must not contain path separators"
  | .unknownLevel => "Input should be 'DEBUG', 'INFO', 'WARNING' or 'ERROR'"

end Problem

inductive Step where
  | key (name : String)
  | index (place : Nat)
  deriving DecidableEq, Repr

structure Report where
  path : List Step
  problem : Problem
  deriving DecidableEq, Repr

abbrev Validated := Except (List Report)

namespace Validated

def located (path : List Step) : Except Problem α → Validated α
  | .ok part => .ok part
  | .error problem => .error [⟨path, problem⟩]

/-- Apply a function to a part. Problems with the function's own parts come first. -/
def apply (function : Validated (α → β)) (part : Validated α) : Validated β :=
  match function, part with
  | .ok function, .ok part => .ok (function part)
  | .ok _, .error reports => .error reports
  | .error reports, .ok _ => .error reports
  | .error reports, .error more => .error (reports ++ more)

def under (step : Step) : Validated α → Validated α :=
  Except.mapError (List.map fun report => { report with path := step :: report.path })

end Validated

/-! ## Values -/

def validText : Value → Except Problem String
  | .text value => .ok value
  | .brokenText _ => .error .brokenText
  | _ => .error .notText

/-! ## Ports -/

/-- The most characters that an integer may be written with, its sign included. -/
def integerLimit : Nat := 4300

/-- The integer that a text writes in the strict form: perhaps a minus sign, then digits, of which
the first is no zero unless it is the only one. The length of the digits counts even if more
follows. -/
def strictInteger (text : List Char) : Except Problem Int :=
  let negative := text.head? = some '-'
  let unsigned := if negative then text.drop 1 else text
  let digits := unsigned.takeWhile Data.isAsciiDigit
  let complete := digits.length = unsigned.length
  match digits with
  | [] => .error .unreadableInteger
  | '0' :: _ => if unsigned.length = 1 then .ok 0 else .error .unreadableInteger
  | _ =>
      if integerLimit < text.length - (unsigned.length - digits.length) then .error .hugeNumber
      else if !complete then .error .unreadableInteger
      else
        let value := Data.asciiNumber digits
        .ok (if negative then -Int.ofNat value else Int.ofNat value)

/-- What follows leading zeros, of which `last` has been read last. Underscores may stand among
them. Of nothing but zeros, and before a point, the last one is kept. -/
def afterZeros (last : Char) : List Char → Option (List Char)
  | [] => some [last]
  | character :: rest =>
      if character = '0' ∨ character = '_' then afterZeros character rest
      else if character = '.' then some (last :: character :: rest)
      else if character = '-' ∨ Data.isAsciiDigit character then some (character :: rest)
      else none

def withoutZeros : List Char → Option (List Char)
  | '0' :: rest => afterZeros '0' rest
  | character :: rest =>
      if character = '-' ∨ Data.isAsciiDigit character then some (character :: rest) else none
  | [] => none

def withoutFraction (number : List Char) : Option (List Char) :=
  match number.dropWhile (· ≠ '.') with
  | [] => some number
  | _ :: fraction =>
      if fraction.isEmpty || fraction.any (· ≠ '0') then none
      else some (number.takeWhile (· ≠ '.'))

/-- A number without underscores, if they stand only between two other characters. -/
def withoutUnderscores (number : List Char) : List Char :=
  if underscoresSeparate number then number.filter (· ≠ '_') else number

/-- A number in the strict form, if it can be brought to it: white space around it, a plus sign,
leading zeros, a fraction of zero and underscores are removed. -/
def strictForm (text : List Char) : Option (List Char) :=
  let trimmed := ((text.dropWhile isSpace).reverse.dropWhile isSpace).reverse
  let unsigned := match trimmed with
    | '+' :: '-' :: _ => none
    | '+' :: rest => some rest
    | rest => some rest
  ((unsigned.bind withoutZeros).bind withoutFraction).map withoutUnderscores

def integerText (text : List Char) : Except Problem Int :=
  match strictInteger text with
  | .error .unreadableInteger =>
      match strictForm text with
      | some number => (strictInteger number).mapError fun _ => .unreadableInteger
      | none => .error .unreadableInteger
  | answer => answer

/-- A number in double precision that is an integer of at most 63 binary digits. -/
def integerFloat (value : Data.Double) : Except Problem Int :=
  if !value.isFinite then .error .infiniteNumber
  else match value.integer? with
    | none => .error .fractionalNumber
    | some value => if value.natAbs < 0x8000000000000000 then .ok value else .error .hugeNumber

def validInteger : Value → Except Problem Int
  | .int value => .ok value
  | .bool value => .ok (if value then 1 else 0)
  | .float value => integerFloat value
  | .text value => integerText value.toList
  | .brokenText _ => .error .brokenText
  | _ => .error .notInteger

def validPort (value : Value) : Except Problem Nat := do
  let port ← validInteger value
  if port < 1 then .error (.belowMinimum 1)
  else if 65535 < port then .error (.aboveMaximum 65535)
  else .ok port.toNat

/-! ## Texts -/

def validFile : Value → Except Problem (Option String)
  | .null => .ok none
  | value => some <$> validText value

def validTexts (place : Nat) : List Value → Validated (List String)
  | [] => .ok []
  | value :: rest =>
      Validated.apply
        ((Validated.located [.index place] (validText value)).map List.cons)
        (validTexts (place + 1) rest)

def validTextList : Value → Validated (List String)
  | .list items => validTexts 0 items
  | _ => .error [⟨[], .notList⟩]

def validName (value : Value) : Except Problem String := do
  let name := trim (← validText value).toList
  if name.isEmpty then .error .emptyName
  else if '/' ∈ name ∨ '\\' ∈ name then .error .separatorInName
  else .ok (String.ofList name)

def validLevel : Value → Except Problem LogLevel
  | .text value =>
      match LogLevel.ofName? (String.ofList (upper value.toList)) with
      | some level => .ok level
      | none => .error .unknownLevel
  | _ => .error .unknownLevel

/-! ## Sections -/

def validSection (model : String) (value : Value)
    (read : List (String × Value) → Validated α) : Validated α :=
  match value with
  | .object entries => read entries
  | _ => .error [⟨[], .notObject model⟩]

def part (entries : List (String × Value)) (key : String) (default : α)
    (read : Value → Validated α) : Validated α :=
  match Value.entry? entries key with
  | none => .ok default
  | some value => (read value).under (.key key)

def validServer (value : Value) : Validated ServerConfig :=
  validSection "ServerConfig" value fun entries =>
    .apply ((part entries "host" ({} : ServerConfig).host (.located [] ∘ validText)).map .mk)
      (part entries "port" ({} : ServerConfig).port (.located [] ∘ validPort))

def validSource (value : Value) : Validated SourceConfig :=
  validSection "SchemaSourceConfig" value fun entries =>
    .apply (.apply
      ((part entries "file" ({} : SourceConfig).file (.located [] ∘ validFile)).map .mk)
      (part entries "search_paths" ({} : SourceConfig).searchPaths validTextList))
      (part entries "name" ({} : SourceConfig).name (.located [] ∘ validName))

def validLogging (value : Value) : Validated LoggingConfig :=
  validSection "LoggingConfig" value fun entries =>
    .apply ((part entries "level" ({} : LoggingConfig).level (.located [] ∘ validLevel)).map .mk)
      (part entries "format" ({} : LoggingConfig).format (.located [] ∘ validText))

def validate (value : Value) : Validated ServiceConfig :=
  validSection "ServiceConfig" value fun entries =>
    .apply (.apply
      ((part entries "server" ({} : ServiceConfig).server validServer).map .mk)
      (part entries "schema_source" ({} : ServiceConfig).source validSource))
      (part entries "logging" ({} : ServiceConfig).logging validLogging)

def problemCount (reports : List Report) : String :=
  let plural := if reports.length = 1 then "" else "s"
  s!"{reports.length} validation error{plural} for ServiceConfig"

example : (validate (.object [("server", .object [("port", .text " 80.0 ")])])).toOption =
    some { server := { port := 80 } } := by decide +kernel

end TableSchema.Config
