import IdlSchema.Files.Closure
import IdlSchema.Link.Link
import IdlSchema.Rules.Rules

/-!
# Schemas

A schema is what some root files and everything they include declare, linked and checked.  It is
built only where there is no error; in strict mode no warning either.
-/

namespace IdlSchema

/-- The settings of a build. -/
structure SchemaConfig where
  /-- Whether warnings count as errors. -/
  strict : Bool
  /-- Whether the use of deprecated types is reported. -/
  warnDeprecated : Bool
  /-- How many includes may lead from a root to a file. -/
  maxIncludeDepth : UInt32
  deriving DecidableEq

namespace SchemaConfig

/-- The settings that hold unless others are chosen. -/
def standard : SchemaConfig :=
  { strict := false, warnDeprecated := true, maxIncludeDepth := 64 }

end SchemaConfig

/-- Linked and checked declarations with their files and the warnings about them. -/
structure Schema where
  files : FileTable
  graph : TypeGraph
  model : Model ConstantValue
  warnings : Diagnostics

/-- What a build comes to before it is decided whether it succeeds. -/
structure Build where
  files : FileTable
  graph : TypeGraph
  model : Model ConstantValue
  /-- All problems in the order in which they were met. -/
  reported : Diagnostics

namespace Build

/-- Links and checks the files that were found. -/
def ofFiles (files : FileTable) (found : Diagnostics) (warnDeprecated : Bool) : Build :=
  let linked := files.link files.dependencyOrder warnDeprecated
  { files
    graph := linked.graph
    model := linked.model
    reported := found ++ linked.reported ++ linked.model.problems linked.graph }

/-- Whether the problems keep a schema from being built. -/
def fails (strict : Bool) (diagnostics : Diagnostics) : Bool :=
  diagnostics.hasErrors || (strict && diagnostics.hasWarnings)

/-- The schema of a build, or all its problems in order of position. -/
def finish (build : Build) (strict : Bool) : Except Diagnostics Schema :=
  let diagnostics := build.reported.sorted
  if fails strict diagnostics then .error diagnostics
  else
    .ok {
      files := build.files
      graph := build.graph
      model := build.model
      warnings := diagnostics }

end Build

namespace Schema

/-- Builds the schema of some roots and what they include. -/
def build {m : Type → Type} [Monad m] (resolver : IncludeResolver m) (config : SchemaConfig)
    (roots : List FileTree) : m (Except Diagnostics Schema) := do
  let (files, found) ← FileTable.load resolver config.maxIncludeDepth.toNat roots
  return (Build.ofFiles files found config.warnDeprecated).finish config.strict

/-- The message of a build that failed. -/
def failureMessage (diagnostics : Diagnostics) : String :=
  "schema linking failed with " ++ toString (diagnostics.countP (·.isError)) ++ " errors and " ++
    toString (diagnostics.countP (·.isWarning)) ++ " warnings"

end Schema
end IdlSchema
