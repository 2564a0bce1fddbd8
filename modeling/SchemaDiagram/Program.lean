import SchemaDiagram.CommandLine
import SchemaDiagram.SettingsFile
import SchemaDiagram.JsonEncoding
import SchemaDiagram.SqlExport

namespace SchemaDiagram

/-- What the program can ask of its surroundings. -/
structure Host (m : Type → Type) where
  readFile : String → m (Option ByteArray)
  readInput : m ByteArray
  /-- Writes a text to a file, and tells whether that went well. -/
  writeFile : String → String → m Bool

/-- How the program ends: its exit code, what it prints, and what it complains of. -/
structure Outcome where
  exitCode : Nat
  output : String := ""
  complaint : Option String := none
  deriving DecidableEq, Repr, Inhabited

namespace Outcome

def success (output : String) : Outcome := { exitCode := 0, output }

def failure (reason : String) : Outcome := { exitCode := 1, complaint := some ("Error: " ++ reason) }

def misuse : Outcome :=
  { exitCode := 2, complaint := some "error: see 'dbsketch --help' for how to use this program" }

/-- The first line of what the program complains of. -/
def complaintLine? (outcome : Outcome) : Option String :=
  outcome.complaint.map fun text => String.ofList (firstLine text.toList)

end Outcome

def versionText : String := "dbsketch 0.1.0\n"

def commonOptionsHelp : String :=
  "  -v, --verbose...       Enable verbose logging (-v, -vv, -vvv)\n"
    ++ "  -q, --quiet            Suppress all output except errors\n"
    ++ "      --config <CONFIG>  TOML file overriding editor defaults\n"
    ++ "  -h, --help             Print help\n"

def helpText : Option CommandName → String
  | none =>
    "Table schema DSL engine - parse, validate and lay out database diagrams\n\n"
      ++ "Usage: dbsketch [OPTIONS] <COMMAND>\n\nCommands:\n"
      ++ "  parse   Print the validated model as JSON\n"
      ++ "  check   Report field errors. Exits non-zero when any field is in error\n"
      ++ "  sql     Export the schema as SQL DDL\n"
      ++ "  layout  Print default table positions as JSON\n"
      ++ "  help    Print this message or the help of the given subcommand(s)\n\nOptions:\n"
      ++ commonOptionsHelp ++ "  -V, --version          Print version\n"
  | some .parse =>
    "Print the validated model as JSON\n\nUsage: dbsketch parse [OPTIONS] [INPUT]\n\nArguments:\n"
      ++ "  [INPUT]  Input file path or \"-\" for stdin [default: -]\n\nOptions:\n"
      ++ "      --pretty           Pretty-print JSON output\n" ++ commonOptionsHelp
  | some .check =>
    "Report field errors. Exits non-zero when any field is in error\n\n"
      ++ "Usage: dbsketch check [OPTIONS] [INPUT]\n\nArguments:\n  [INPUT]  [default: -]\n\n"
      ++ "Options:\n" ++ commonOptionsHelp
  | some .sql =>
    "Export the schema as SQL DDL\n\nUsage: dbsketch sql [OPTIONS] [INPUT]\n\nArguments:\n"
      ++ "  [INPUT]  [default: -]\n\nOptions:\n"
      ++ "  -o, --output <OUTPUT>  Output file path. If omitted, writes to stdout\n"
      ++ commonOptionsHelp
  | some .layout =>
    "Print default table positions as JSON\n\nUsage: dbsketch layout [OPTIONS] [INPUT]\n\n"
      ++ "Arguments:\n  [INPUT]  [default: -]\n\nOptions:\n" ++ commonOptionsHelp

def Refusal.outcome : Refusal → Outcome
  | .helpAsked level => .success (helpText level)
  | .versionAsked => .success versionText
  | .usage => .misuse

def Schema.faultLines (schema : Schema) : List String :=
  schema.errors.map fun (table, f) => table ++ "." ++ f.name ++ ": " ++ f.errorMessage ++ "\n"

/-- The places of the tables of a schema on an empty grid. -/
def Schema.firstPositions (schema : Schema) (grid : Grid Float) : Positions Float :=
  Positions.placeNew OrderedMap.empty schema grid

namespace Invocation

variable {m : Type → Type} [Monad m]

def readSettings (host : Host m) (i : Invocation) : m (Except Outcome EditorSettings) :=
  match i.configPath with
  | none => return .ok .standard
  | some path => do
    match EditorSettings.ofFile (← host.readFile path) with
    | .ok settings => return .ok settings
    | .error _ => return .error (.failure s!"Failed to load config {path}")

def readSource (host : Host m) (i : Invocation) : m (Except Outcome String) := do
  if i.input = standardInput then
    match String.fromUTF8? (← host.readInput) with
    | some text => return .ok text
    | none => return .error (.failure "Failed to read from stdin")
  else
    match (← host.readFile i.input).bind String.fromUTF8? with
    | some text => return .ok text
    | none => return .error (.failure s!"Failed to read {i.input}")

/-- Writes a text to the output file, or prints it. -/
def deliver (host : Host m) (i : Invocation) (text : String) : m Outcome :=
  match i.outputPath with
  | none => return .success text
  | some path => do
    if ← host.writeFile path text then return .success ""
    else return .failure s!"Failed to write {path}"

def answer (host : Host m) (i : Invocation) (settings : EditorSettings) (schema : Schema) :
    m Outcome :=
  match i.command with
  | .parse =>
    let json := schema.toJson
    return .success ((if i.isPretty then json.pretty else json.compact) ++ "\n")
  | .check =>
    let lines := schema.faultLines
    return { exitCode := if lines.isEmpty then 0 else 1, output := String.join lines }
  | .sql => i.deliver host schema.toSql
  | .layout =>
    return .success ((schema.firstPositions settings.grid).toJson.pretty ++ "\n")

/-- Carries the command out. The settings are read first, whether the command needs them or not. -/
def run (host : Host m) (i : Invocation) : m Outcome := do
  match ← i.readSettings host with
  | .error outcome => return outcome
  | .ok settings =>
    match ← i.readSource host with
    | .error outcome => return outcome
    | .ok source => i.answer host settings (Schema.ofSource source)

end Invocation

/-- Carries out what the words of a command line ask for. -/
def runProgram {m : Type → Type} [Monad m] (host : Host m) (words : List String) : m Outcome :=
  match Invocation.ofWords words with
  | .error refusal => return refusal.outcome
  | .ok invocation => invocation.run host

end SchemaDiagram
