import IdlSchema.Command.CommandOption
import IdlSchema.Diagnostic.Record
import IdlSchema.Diagnostic.Report
import IdlSchema.Disk.Origins
import IdlSchema.Schema.Dump

/-!
# Running commands

A command reads its files, builds their schema, and tells of problems on the error stream, or on the
output as records.  A schema is dumped to the output or to a file.
-/

namespace IdlSchema

/-- What a run leaves behind: the texts of both streams and the exit code. -/
structure Outcome where
  exitCode : UInt8
  output : String
  errors : String
  deriving DecidableEq

namespace Outcome

/-- A run that failed with a message. -/
def failure (message : String) : Outcome :=
  { exitCode := 1, output := "", errors := "error: " ++ message ++ "\n" }

end Outcome

namespace UsageError

/-- What a usage error leaves behind; help that was asked for is no failure. -/
def outcome : UsageError → Outcome
  | helpWanted => { exitCode := 0, output := message helpWanted ++ "\n", errors := "" }
  | error => { exitCode := 2, output := "", errors := error.message ++ "\n" }

end UsageError

namespace Command

variable {m : Type → Type} [Monad m]

/-- The settings with which the schema of a command is built. -/
def config (command : Command) : SchemaConfig :=
  { strict := command.isStrict
    warnDeprecated := command.warnDeprecated
    maxIncludeDepth := command.maxIncludeDepth }

/-- Reads the files of a command and builds their schema. -/
def buildSchema (command : Command) (system : FileSystem m) :
    m (Except LoadFailure (Except Diagnostics Schema)) := do
  match ← system.readRoots command.files .empty with
  | .error failure => return .error failure
  | .ok (roots, origins) => do
      let (built, _) ←
        (Schema.build (system.resolver command.includeDirs) command.config roots).run origins
      return .ok built

/-- The texts of those of some files that can be read. -/
def readTexts (system : FileSystem m) : List String → m (List (String × String))
  | [] => return []
  | path :: paths => do
      let texts ← readTexts system paths
      match ← system.read path with
      | .ok text => return (path, text) :: texts
      | .error _ => return texts

/-- The report on problems, with the texts of the files that they are in. -/
def report (system : FileSystem m) (colored : Bool) (diagnostics : Diagnostics) : m String := do
  let texts ← readTexts system (diagnostics.map (·.location.path)).eraseDups
  return diagnostics.report colored fun path => texts.lookup path

/-- The report on problems as lines of the error stream; without problems there is none. -/
def reportLines (system : FileSystem m) (colored : Bool) (diagnostics : Diagnostics) :
    m String := do
  if diagnostics.isEmpty then return ""
  else return (← report system colored diagnostics) ++ "\n"

/-- Tells of the problems that were found. -/
def runCheck (system : FileSystem m) (colored : Bool) (format : ReportFormat)
    (built : Except Diagnostics Schema) : m Outcome := do
  let (exitCode, diagnostics) : UInt8 × Diagnostics :=
    match built with
    | .ok schema => (0, schema.warnings)
    | .error diagnostics => (1, diagnostics)
  match format with
  | .json => return { exitCode, output := diagnostics.recordsText ++ "\n", errors := "" }
  | .text =>
      return { exitCode, output := "", errors := ← reportLines system colored diagnostics }

/-- Dumps the schema that was built. -/
def runDump (system : FileSystem m) (colored annotations : Bool) (output? : Option String)
    (built : Except Diagnostics Schema) : m Outcome := do
  match built with
  | .error diagnostics =>
      let errors ← reportLines system colored diagnostics
      let failed := Outcome.failure (Schema.failureMessage diagnostics)
      return { failed with errors := errors ++ failed.errors }
  | .ok schema =>
      let errors ← reportLines system colored schema.warnings
      let text := schema.dump annotations
      match output? with
      | none => return { exitCode := 0, output := text, errors }
      | some path =>
          match ← system.write path text with
          | .ok () => return { exitCode := 0, output := "", errors }
          | .error failure =>
              let failed :=
                Outcome.failure ("failed to write '" ++ path ++ "': " ++ failure.message)
              return { failed with errors := errors ++ failed.errors }

/-- Runs a command; `terminal` tells whether the error stream is a terminal. -/
def run (command : Command) (system : FileSystem m) (terminal : Bool) : m Outcome := do
  let colored := command.color.applies terminal
  match ← command.buildSchema system with
  | .error failure => return .failure failure.message
  | .ok built =>
      match command.task with
      | .check _ format => runCheck system colored format built
      | .dump annotations output? => runDump system colored annotations output? built

end Command
end IdlSchema
