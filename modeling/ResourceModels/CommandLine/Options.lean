import ResourceModels.Settings

/-!
# Command line options

Arguments are read from left to right, and the first fault ends the reading. An option takes its
value from behind an equals sign, from the rest of a short group, or from the next argument, which
is then not looked at before the one after it. So a value is judged only when the next option or
the end has been reached.
-/

namespace ResourceModels.CommandLine

inductive LogLevel where
  | error
  | warn
  | info
  | debug
  | trace
  deriving DecidableEq, Repr

structure Options where
  logLevel : LogLevel := .info
  outputPath : Option String := none
  specsPath : Option String := none
  config : Path := ⟨Settings.fileName⟩
  source : Option SourceKind := none
  server : Option String := none
  version : Option String := none
  deriving DecidableEq, Repr

/-- Why the reading ends early. -/
inductive Stop where
  | help
  | version
  /-- A value that is missing, empty or not one of those allowed. -/
  | invalidValue
  /-- An option that does not exist, or an argument that belongs to none. -/
  | unknownArgument
  /-- An option that was given before. -/
  | argumentConflict
  /-- A value for something that takes none. -/
  | tooManyValues
  deriving DecidableEq, Repr

/-- What was asked for is no failure; a fault is. -/
def Stop.exitCode : Stop → Nat
  | .help | .version => 0
  | .invalidValue | .unknownArgument | .argumentConflict | .tooManyValues => 2

/-- Something that can be named on the command line. -/
inductive Name where
  | logLevel
  | outputPath
  | specsPath
  | config
  | source
  | server
  | version
  | showHelp
  | showVersion
  deriving DecidableEq, Repr

namespace Name

def ofLong? : String → Option Name
  | "log-level" => some .logLevel
  | "output-path" => some .outputPath
  | "specs-path" => some .specsPath
  | "config" => some .config
  | "source" => some .source
  | "server" => some .server
  | "k8s-version" => some .version
  | "help" => some .showHelp
  | "version" => some .showVersion
  | _ => none

def ofShort? : Char → Option Name
  | 'l' => some .logLevel
  | 'o' => some .outputPath
  | 's' => some .specsPath
  | 'h' => some .showHelp
  | 'V' => some .showVersion
  | _ => none

/-- What ends the reading as soon as it is named. -/
def stop? : Name → Option Stop
  | .showHelp => some .help
  | .showVersion => some .version
  | _ => none

end Name

def logLevel? : String → Option LogLevel
  | "error" => some .error
  | "warn" => some .warn
  | "info" => some .info
  | "debug" => some .debug
  | "trace" => some .trace
  | _ => none

def sourceKind? : String → Option SourceKind
  | "cluster" => some .cluster
  | "github" => some .github
  | _ => none

def path? (text : String) : Option String := if text = "" then none else some text

namespace Options

/-- Put a value in place. -/
def set? (options : Options) (name : Name) (value : String) : Option Options :=
  match name with
  | .logLevel => (logLevel? value).map ({ options with logLevel := · })
  | .outputPath => (path? value).map ({ options with outputPath := some · })
  | .specsPath => (path? value).map ({ options with specsPath := some · })
  | .config => (path? value).map ({ options with config := ⟨·⟩ })
  | .source => (sourceKind? value).map ({ options with source := some · })
  | .server => some { options with server := some value }
  | .version => some { options with version := some value }
  | .showHelp | .showVersion => none

end Options

/-- How far the reading has come. -/
structure Reading where
  options : Options := {}
  /-- The options given so far. -/
  given : List Name := []
  /-- The last option, when its value may still come or has not been judged. -/
  pending : Option (Name × Option String) := none

namespace Reading

/-- Accept the value of an option. -/
def accept (reading : Reading) (name : Name) (value : String) : Except Stop Reading :=
  if name ∈ reading.given then .error .argumentConflict
  else
    match reading.options.set? name value with
    | none => .error .invalidValue
    | some options => .ok ⟨options, name :: reading.given, none⟩

/-- Judge the option that is pending. -/
def settle (reading : Reading) : Except Stop Reading :=
  match reading.pending with
  | none => .ok reading
  | some (_, none) => .error .invalidValue
  | some (name, some value) => { reading with pending := none }.accept name value

/-- An option has been named, with a value or without. -/
def named (reading : Reading) (name : Name) (value : Option String) : Except Stop Reading := do
  let reading ← reading.settle
  match name.stop?, value with
  | some stop, _ => .error stop
  | none, some value => reading.accept name value
  | none, none => .ok { reading with pending := some (name, none) }

/-- An argument after two dashes. -/
def long (reading : Reading) (text : List Char) : Except Stop Reading :=
  let name := text.takeWhile (· ≠ '=')
  let value := match text.dropWhile (· ≠ '=') with
    | _ :: value => some (String.ofList value)
    | [] => none
  match Name.ofLong? (String.ofList name) with
  | none => .error .unknownArgument
  | some name =>
    if name.stop?.isSome && value.isSome then .error .tooManyValues else reading.named name value

/-- An argument after one dash. All that stands behind its first option is the value. -/
def short (reading : Reading) : List Char → Except Stop Reading
  | [] => .ok reading
  | c :: rest =>
    match Name.ofShort? c with
    | none => .error .unknownArgument
    | some name =>
      match rest with
      | [] => reading.named name none
      | '=' :: value => reading.named name (some (String.ofList value))
      | value => reading.named name (some (String.ofList value))

/-- An argument that names no option. -/
def plain (reading : Reading) (text : String) : Except Stop Reading :=
  match reading.pending with
  | some (name, none) => .ok { reading with pending := some (name, some text) }
  | _ => .error .unknownArgument

/-- Read all arguments. After two lone dashes nothing may follow. -/
def all (reading : Reading) : List String → Except Stop Reading
  | [] => reading.settle
  | argument :: rest =>
    match argument.toList with
    | ['-', '-'] => if rest.isEmpty then reading.settle else .error .unknownArgument
    | '-' :: '-' :: text => do (← reading.long text).all rest
    | ['-'] => do (← reading.plain argument).all rest
    | '-' :: text => do (← reading.short text).all rest
    | _ => do (← reading.plain argument).all rest

end Reading

/-- The options that arguments stand for. -/
def Options.parse (arguments : List String) : Except Stop Options := do
  let reading ← ({} : Reading).all arguments
  .ok reading.options

/-- Settings with options on top. -/
def Options.applyTo (options : Options) (settings : Settings) : Settings :=
  let source := settings.source
  { settings with
    outputPath := options.outputPath.getD settings.outputPath
    specsPath := options.specsPath.getD settings.specsPath
    source := {
      kind := options.source.getD source.kind
      cluster := { source.cluster with server := options.server.getD source.cluster.server }
      github := { source.github with version := options.version.getD source.github.version } } }

/-- The settings in force: those of the configuration file, or the defaults where there is none,
with the options on top. -/
def Options.resolve (options : Options) (fs : FileSystem) : Except SettingsError Settings := do
  let found ← Settings.load fs options.config
  .ok (options.applyTo (found.getD {}))

end ResourceModels.CommandLine
