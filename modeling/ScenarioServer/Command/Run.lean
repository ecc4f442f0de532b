import ScenarioServer.Command.Arguments
import ScenarioServer.Diagnostic
import ScenarioServer.Files
import ScenarioServer.Json.Value
import ScenarioServer.Session
import ScenarioServer.Wire.Message

/-!
# Running the program

The check of files, and a run from its arguments to its output.
-/

namespace ScenarioServer

/-!
## Checking files

The check validates every given file and reports on all of them, as lines of text or as JSON. If one
file cannot be read, nothing is reported but that.
-/

namespace Command

structure FileReport where
  file : String
  diagnostics : List Diagnostic
deriving Repr, DecidableEq

inductive CheckError where
  | unreadable (file : String) (cause : FileError)
  | unresolvable (file : String) (cause : FileError)
deriving Repr, DecidableEq

def CheckError.message : CheckError → String
  | .unreadable file cause => s!"Failed to read input file: {file}: {cause.message}"
  | .unresolvable file cause => s!"Failed to resolve path: {file}: {cause.message}"

def checkFile (files : FileSystem) (cap : Nat) (file : String) : Except CheckError FileReport :=
  match files.read file with
  | .error cause => .error (.unreadable file cause)
  | .ok text =>
    match files.resolve file with
    | .error cause => .error (.unresolvable file cause)
    | .ok path => .ok ⟨file, validate (Uri.ofFilePath path) text cap false⟩

/-- Validates all files, or reports the first that cannot be read. -/
def checkFiles (files : FileSystem) (cap : Nat) (paths : List String) :
    Except CheckError (List FileReport) :=
  paths.mapM (checkFile files cap)

def foundAny (reports : List FileReport) : Bool := reports.any fun report => !report.diagnostics.isEmpty

def FileReport.lines (report : FileReport) : List String :=
  report.diagnostics.map fun d => Diagnostic.line report.file d.range.start d.message d.source

/-- The last line of a report in text: how much was found, or in how many files nothing was. -/
def summary (reports : List FileReport) : String :=
  let total := reports.foldl (fun total report => total + report.diagnostics.length) 0
  if total = 0 then s!"No issues found in {reports.length} file(s)" else s!"Found {total} warning(s)"

def textReport (reports : List FileReport) : String :=
  let lines := reports.flatMap FileReport.lines ++ [summary reports]
  String.join (lines.map (· ++ "\n"))

def FileReport.toJson (report : FileReport) : Json.Value :=
  .object [("file", .string report.file), ("diagnostics", .array (report.diagnostics.map Wire.diagnostic))]

def jsonReport (reports : List FileReport) : String :=
  Json.pretty "" (.array (reports.map FileReport.toJson)) ++ "\n"

/-!
## From arguments to output

Every run first loads the configuration file it is told to, then the tables, and then checks the
tables against the vocabulary; a fault in any of these ends it before anything else happens. Then it
checks files, or it is ready to serve.
-/

/-- What a finished run leaves behind: its exit code and what it wrote. -/
structure Output where
  code : Nat
  stdout : String := ""
  stderr : String := ""
deriving Repr, DecidableEq

/-- How a run ends: with an output, or as a server that waits for its client. -/
inductive Outcome where
  | finished (output : Output)
  | serving (server : Server)

/-- The output of a run that a fault ends. -/
def failed (message : String) : Output := { code := 1, stderr := s!"Error: {message}\n" }

def usage : String := "Usage: tacl-lsp [OPTIONS] [serve | check <FILES>...]\n"

/-- The output of a command line that leads to no task. -/
def stopped : Stop → Output
  | .usageError => { code := 2, stderr := usage }
  | .version => { code := 0, stdout := s!"{Wire.serverName} {Wire.serverVersion}\n" }
  | .help => { code := 0, stdout := usage }

/-- A fault of a table with the failure that caused it. -/
def tableFault (fault : TableError) : String :=
  match fault with
  | .unreadable _ cause => s!"{fault.message}: {cause.message}"
  | _ => fault.message

/-- A fault of a configuration file with the failure that caused it. -/
def configFault (fault : ConfigError) : String :=
  match fault with
  | .unreadable _ cause => s!"{fault.message}: {cause.message}"
  | .malformed _ => fault.message

def loadConfig (files : FileSystem) (config : Option String) : Except Output Config :=
  match config with
  | none => .ok {}
  | some path =>
    match Config.load files path with
    | .ok config => .ok config
    | .error fault => .error (failed s!"Failed to load config: {path}: {configFault fault}")

/-- The engine of an invocation. Tables named on the command line replace those of the
configuration. -/
def loadEngine (files : FileSystem) (invocation : Invocation) (config : Config) :
    Except Output Engine :=
  let keywords := invocation.keywords.or config.keywords
  let hover := invocation.hover.or config.hover
  match LookupTables.load files keywords hover with
  | .error fault => .error (failed s!"Failed to load lookup tables: {tableFault fault}")
  | .ok tables =>
    match Engine.ofTables tables with
    | .error fault =>
      .error (failed s!"Lookup tables do not match the vocabulary: {tableFault fault}")
    | .ok engine => .ok engine

/-- The output of a check. It fails if anything was found. -/
def runCheck (files : FileSystem) (cap : Nat) (paths : List String) (format : Format) : Output :=
  match checkFiles files cap paths with
  | .error fault => failed fault.message
  | .ok reports =>
    { code := if foundAny reports then 1 else 0
      stdout := match format with
        | .text => textReport reports
        | .json => jsonReport reports }

/-- Runs an invocation. A server looks for the configuration file of its workspace unless it was
given one. -/
def runInvocation (files : FileSystem) (invocation : Invocation) : Outcome :=
  let ready := do
    let config ← loadConfig files invocation.config
    return (config, ← loadEngine files invocation config)
  match ready with
  | .error output => .finished output
  | .ok (config, engine) =>
    match invocation.task with
    | .serve => .serving (Server.start engine config.settings invocation.config.isNone)
    | .check paths maxProblems format =>
      .finished (runCheck files (maxProblems.getD config.maxNumberOfProblems) paths format)

/-- The paths that a run looks at, as far as the known files tell. The configuration file has to be
known for the tables that it names. -/
def pathsFor (files : FileSystem) (arguments : List String) : List String :=
  match parseArguments arguments with
  | .error _ => []
  | .ok invocation =>
    let config := (loadConfig files invocation.config).toOption.getD {}
    let tables := [invocation.keywords.or config.keywords, invocation.hover.or config.hover]
    let checked := match invocation.task with
      | .check paths _ _ => paths
      | .serve => []
    invocation.config.toList ++ tables.filterMap id ++ checked

def run (files : FileSystem) (arguments : List String) : Outcome :=
  match parseArguments arguments with
  | .error stop => .finished (stopped stop)
  | .ok invocation => runInvocation files invocation

end Command

end ScenarioServer
