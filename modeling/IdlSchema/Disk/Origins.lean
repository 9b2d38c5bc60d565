import IdlSchema.Disk.FileSystem
import IdlSchema.Files.IncludeResolver
import IdlSchema.Json.Reader
import IdlSchema.Path
import IdlSchema.Tree.Decode

/-!
# Schema files on disk

Schema files are read from JSON files.  An include is looked for next to the JSON file that the
including file was read from and then in the include directories, each time with `.json` behind the
name first.  A JSON file that is reached again, by whatever path, keeps its first schema path.
-/

namespace IdlSchema

/-- Which JSON file each schema file was read from, and the other way round. -/
structure Origins where
  /-- The JSON path of each schema path, the last one first. -/
  jsonPaths : List (String × String)
  /-- The schema path of each normal JSON path. -/
  schemaPaths : List (String × String)

namespace Origins

/-- Nothing has been read. -/
def empty : Origins :=
  { jsonPaths := [], schemaPaths := [] }

/-- The JSON path that a schema path was read from last. -/
def jsonPath? (origins : Origins) (schemaPath : String) : Option String :=
  origins.jsonPaths.lookup schemaPath

/-- The schema path that a normal JSON path was given first. -/
def schemaPath? (origins : Origins) (jsonPath : String) : Option String :=
  origins.schemaPaths.lookup jsonPath

/-- Notes that a schema path was read from a JSON path. -/
def register (origins : Origins) (schemaPath jsonPath : String) : Origins :=
  { jsonPaths := (schemaPath, jsonPath) :: origins.jsonPaths
    schemaPaths := origins.schemaPaths ++ [(Path.normalize jsonPath, schemaPath)] }

/-- The directories in which the includes of a file are looked for. -/
def directories (origins : Origins) (includeDirs : List String) (includer : String) :
    List String :=
  ((origins.jsonPath? includer).bind Path.parent?).toList ++ includeDirs

/-- The JSON paths at which an include is looked for in a directory. -/
def candidatesIn (written directory : String) : List String :=
  let path := Path.normalize (Path.join directory written)
  [path ++ ".json", path]

/-- The JSON paths at which an include is looked for. -/
def candidates (origins : Origins) (includeDirs : List String) (includer written : String) :
    List String :=
  (origins.directories includeDirs includer).flatMap (candidatesIn written)

theorem schemaPath?_register_of_some {origins : Origins} {schemaPath jsonPath path known : String}
    (found : origins.schemaPath? path = some known) :
    (origins.register schemaPath jsonPath).schemaPath? path = some known := by
  simp only [schemaPath?, register] at found ⊢
  rw [List.lookup_append, found]
  rfl

end Origins

/-- Why the tree of a file could not be read. -/
inductive LoadFailure where
  | unreadable (path : String) (failure : FileFailure)
  | malformed (path : String)
  deriving DecidableEq

namespace LoadFailure

/-- The message of a failure. -/
def message : LoadFailure → String
  | unreadable path failure => "failed to read '" ++ path ++ "': " ++ failure.message
  | malformed path => "failed to parse '" ++ path ++ "'"

end LoadFailure

namespace FileTree

/-- The file that a JSON text describes. -/
def ofText? (text : String) : Option FileTree :=
  match Json.read text with
  | .ok json => ofJson? json
  | .error _ => none

end FileTree

namespace FileSystem

variable {m : Type → Type} [Monad m]

/-- The tree in the JSON file at a path. -/
def readTree (system : FileSystem m) (path : String) : m (Except LoadFailure FileTree) := do
  match ← system.read path with
  | .error failure => return .error (.unreadable path failure)
  | .ok text =>
      match FileTree.ofText? text with
      | some tree => return .ok tree
      | none => return .error (.malformed path)

/-- The first of some paths at which there is a file. -/
def firstFile? (system : FileSystem m) : List String → m (Option String)
  | [] => return none
  | path :: paths => do
      if ← system.isFile path then return some path else firstFile? system paths

/-- Reads the roots, up to the first that cannot be read. -/
def readRoots (system : FileSystem m) : List String → Origins →
    m (Except LoadFailure (List FileTree × Origins))
  | [], origins => return .ok ([], origins)
  | path :: paths, origins => do
      match ← system.readTree path with
      | .error failure => return .error failure
      | .ok tree =>
          match ← readRoots system paths (origins.register tree.path path) with
          | .error failure => return .error failure
          | .ok (trees, origins) => return .ok (tree :: trees, origins)

/-- Finds an include on the disk; a file that holds no tree counts as not found. -/
def findInclude (system : FileSystem m) (includeDirs : List String) (includer written : String) :
    StateT Origins m (Option ResolvedInclude) := do
  let origins ← get
  match ← system.firstFile? (origins.candidates includeDirs includer written) with
  | none => return none
  | some path =>
      match ← system.readTree path with
      | .error _ => return none
      | .ok tree =>
          let schemaPath := (origins.schemaPath? path).getD path
          set (origins.register schemaPath path)
          return some { path := schemaPath, tree }

/-- The resolver of includes on the disk. -/
def resolver (system : FileSystem m) (includeDirs : List String) :
    IncludeResolver (StateT Origins m) :=
  { resolve := system.findInclude includeDirs }

end FileSystem
end IdlSchema
