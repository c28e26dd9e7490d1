import TableSchema.Config.ServiceConfig

/-! Command lines. An argument is an option, with or without a value of its own, or it stands for
itself. Options may be written with an equals sign and their value, and cut short as long as
only one option starts so; behind two dashes nothing is an option any more. All arguments are
told apart before the first one is looked at; after that, they count in their order. -/

namespace TableSchema.CommandLine

open Config Text

/-! ## What a command line asks for -/

def outputFormats : List String := ["tables", "json", "csv", "sql"]

structure ParseArguments where
  file : String
  /-- The format, unless it has been asked for without saying which one. -/
  format : Option String := some "tables"
  dialect : Option String := none
  deriving DecidableEq, Repr

structure ServeArguments where
  config : Option String := none
  host : Option String := none
  port : Option Int := none
  deriving DecidableEq, Repr

inductive Command where
  | parse (arguments : ParseArguments)
  | check (file : String)
  | serve (arguments : ServeArguments)
  deriving DecidableEq, Repr

structure Invocation where
  logLevel : Option LogLevel := none
  command : Command
  deriving DecidableEq, Repr

inductive UsageFault where
  | help
  | ambiguousOption (argument : String)
  | unknownOption (argument : String)
  | missingValue (option : String)
  | unexpectedArgument (argument : String)
  | missingFile
  | missingCommand
  | unknownCommand (argument : String)
  | badValue (option value : String)
  deriving DecidableEq, Repr

/-! ## Tokens -/

inductive Token where
  | plain (text : String)
  /-- An option, with the value that is written in the same argument. -/
  | option (name : String) (value : Option String)
  | unknown (text : String)
  /-- The two dashes behind which nothing is an option. -/
  | dashes
  deriving DecidableEq, Repr

def isNegativeNumber (text : List Char) : Bool :=
  let text := if text.getLast? = some '\n' then text.dropLast else text
  match text with
  | '-' :: digits =>
      match digits.dropWhile isDigit with
      | [] => !digits.isEmpty
      | '.' :: fraction => !fraction.isEmpty && fraction.all isDigit
      | _ => false
  | _ => false

def cutAtEquals (argument : List Char) : List Char × Option (List Char) :=
  match argument.dropWhile (· ≠ '=') with
  | [] => (argument, none)
  | _ :: value => (argument.takeWhile (· ≠ '='), some value)

/-- An argument that is no exact option: an option cut short, a number, or something unknown. -/
def inexactToken (options : List String) (argument : List Char) : Except UsageFault Token :=
  let text := String.ofList argument
  let (written, value) := cutAtEquals argument
  let isLong := (argument.drop 1).head? = some '-'
  let written := if isLong then written else argument
  let longer := options.filter fun option => written.isPrefixOf option.toList
  let short := if isLong then [] else
    options.filter fun option => option.toList = argument.take 2
  match longer ++ short with
  | [option] =>
      if isLong then .ok (.option option (value.map String.ofList))
      else .ok (.option option (some (String.ofList (argument.drop 2))))
  | [] =>
      if isNegativeNumber argument || ' ' ∈ argument then .ok (.plain text)
      else .ok (.unknown text)
  | _ => .error (.ambiguousOption text)

def token (options : List String) (argument : String) : Except UsageFault Token :=
  let characters := argument.toList
  if characters.head? ≠ some '-' then .ok (.plain argument)
  else if argument ∈ options then .ok (.option argument none)
  else if characters.length = 1 then .ok (.plain argument)
  else
    let (written, value) := cutAtEquals characters
    match value with
    | some value =>
        if String.ofList written ∈ options then
          .ok (.option (String.ofList written) (some (String.ofList value)))
        else inexactToken options characters
    | none => inexactToken options characters

def tokens (options : List String) : List String → Except UsageFault (List Token)
  | [] => .ok []
  | argument :: rest =>
      if argument = "--" then .ok (.dashes :: rest.map .plain)
      else do
        let first ← token options argument
        .ok (first :: (← tokens options rest))

/-! ## Options -/

def helpOptions : List String := ["-h", "--help"]

/-- What asking for help comes to. It must not have a value, but its letter may be repeated. -/
def helpFault (name : String) : (written : Option String) → UsageFault
  | none => .help
  | some value =>
      if name = "-h" && !value.isEmpty && value.toList.all (· = 'h') then .help
      else .unexpectedArgument value

/-- The value that is written with an option. Two dashes are no value. -/
def writtenValue (text : String) : Option String := if text = "--" then none else some text

/-! ## Arguments of commands -/

structure CommandForm where
  /-- Its options but for those for help; all of them take values. -/
  options : List String := []
  takesFile : Bool
  /-- Whether an option may have a value. -/
  accepts : (option value : String) → Bool := fun _ _ => true

structure Reading where
  /-- The values of options, the last one first. -/
  values : List (String × Option String) := []
  file : Option String := none
  /-- Arguments that the command cannot use. -/
  surplus : List String := []
  deriving DecidableEq, Repr

namespace Reading

def value? (reading : Reading) (name : String) : Option String :=
  (reading.values.lookup name).join

def withSurplus (reading : Reading) (argument : String) : Reading :=
  { reading with surplus := reading.surplus ++ [argument] }

def withValue (reading : Reading) (form : CommandForm) (name : String) (value : Option String) :
    Except UsageFault Reading :=
  match value.filter fun value => !form.accepts name value with
  | some wrong => .error (.badValue name wrong)
  | none => .ok { reading with values := (name, value) :: reading.values }

def needsFile (reading : Reading) (form : CommandForm) : Bool :=
  form.takesFile && reading.file.isNone

end Reading

/-- Read the tokens of a command. The value of an option is written with it, or it is the next
argument if that is plain. Two dashes stand right in front of the file or right behind it;
anywhere else they cannot be used. -/
def readTokens (form : CommandForm) (reading : Reading) : List Token → Except UsageFault Reading
  | [] => .ok reading
  | .plain text :: rest =>
      if reading.needsFile form then
        let reading := { reading with file := some text }
        match rest with
        | .dashes :: rest => readTokens form reading rest
        | rest => readTokens form reading rest
      else readTokens form (reading.withSurplus text) rest
  | .dashes :: rest =>
      match rest with
      | .plain text :: rest =>
          if reading.needsFile form then readTokens form { reading with file := some text } rest
          else readTokens form ((reading.withSurplus "--").withSurplus text) rest
      | rest => readTokens form (reading.withSurplus "--") rest
  | .unknown text :: rest => readTokens form (reading.withSurplus text) rest
  | .option name written :: rest =>
      if helpOptions.contains name then .error (helpFault name written)
      else match written, rest with
        | some text, rest => do
            readTokens form (← reading.withValue form name (writtenValue text)) rest
        | none, .plain text :: rest => do
            readTokens form (← reading.withValue form name (some text)) rest
        | none, _ => .error (.missingValue name)

def readArguments (form : CommandForm) (arguments : List String) : Except UsageFault Reading := do
  readTokens form {} (← tokens (helpOptions ++ form.options) arguments)

def Reading.neededFile (reading : Reading) : Except UsageFault String :=
  match reading.file with
  | some file => .ok file
  | none => .error .missingFile

/-! ## Commands -/

def parseForm : CommandForm where
  options := ["--format", "--dialect"]
  takesFile := true
  accepts := fun option value => option != "--format" || outputFormats.contains value

def checkForm : CommandForm where
  takesFile := true

def serveForm : CommandForm where
  options := ["--config", "--host", "--port"]
  takesFile := false
  accepts := fun option value => option != "--port" || (readInteger value).isOk

def parseCommand (arguments : List String) : Except UsageFault (Command × List String) := do
  let reading ← readArguments parseForm arguments
  let format := match reading.values.lookup "--format" with
    | some format => format
    | none => some "tables"
  .ok (.parse { file := ← reading.neededFile, format, dialect := reading.value? "--dialect" },
    reading.surplus)

def checkCommand (arguments : List String) : Except UsageFault (Command × List String) := do
  let reading ← readArguments checkForm arguments
  .ok (.check (← reading.neededFile), reading.surplus)

def serveCommand (arguments : List String) : Except UsageFault (Command × List String) := do
  let reading ← readArguments serveForm arguments
  .ok (.serve {
    config := reading.value? "--config"
    host := reading.value? "--host"
    port := (reading.value? "--port").bind fun port => (readInteger port).toOption },
    reading.surplus)

def namedCommand (name : String) (arguments : List String) :
    Except UsageFault (Command × List String) :=
  match name with
  | "parse" => parseCommand arguments
  | "check" => checkCommand arguments
  | "serve" => serveCommand arguments
  | name => .error (.unknownCommand name)

def commonOptions : List String := helpOptions ++ ["--log-level"]

def readLevel : Option String → Except UsageFault (Option LogLevel)
  | none => .ok none
  | some name =>
      match LogLevel.ofName? name with
      | some level => .ok (some level)
      | none => .error (.badValue "--log-level" name)

/-- What a command line asks for, behind common options that have given a log level. Arguments
stand in front of a command only if they belong to options, but those that are unknown are
refused at the end. -/
def readInvocation (logLevel : Option LogLevel) (surplus : List String) :
    List (String × Token) → Except UsageFault Invocation
  | [] => .error .missingCommand
  | (name, .plain _) :: rest => do
      let (command, more) ← namedCommand name (rest.map (·.1))
      match surplus ++ more with
      | [] => .ok ⟨logLevel, command⟩
      | argument :: _ => .error (.unexpectedArgument argument)
  | (argument, .dashes) :: _ => .error (.unknownCommand argument)
  | (argument, .unknown _) :: rest => readInvocation logLevel (surplus ++ [argument]) rest
  | (_, .option "--log-level" written) :: rest =>
      match written, rest with
      | some text, rest => do readInvocation (← readLevel (writtenValue text)) surplus rest
      | none, (_, .plain text) :: rest => do readInvocation (← readLevel (some text)) surplus rest
      | none, _ => .error (.missingValue "--log-level")
  | (_, .option name written) :: _ => .error (helpFault name written)

def invocation (arguments : List String) : Except UsageFault Invocation := do
  readInvocation none [] (arguments.zip (← tokens commonOptions arguments))

example : (invocation ["parse", "--form=csv", "a.sql"]).toOption =
    some ⟨none, .parse { file := "a.sql", format := some "csv" }⟩ := by decide +kernel

end TableSchema.CommandLine
