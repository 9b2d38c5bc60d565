import IdlSchema.Tree.FileTree
import IdlSchema.Types.TypeGraph

/-!
# The files of a schema

Each file that takes part in a schema is kept once, under its canonical path, and referred to by
its place in the table.  It knows the files that its includes were found to be.
-/

namespace IdlSchema

/-- A file under its canonical path, with the files it includes in order and without repetition. -/
structure SchemaFile where
  path : String
  tree : FileTree
  includes : List FileId
  deriving Inhabited

namespace SchemaFile

/-- The qualifier of names from the file. -/
def qualifier (file : SchemaFile) : String :=
  fileQualifier file.path

end SchemaFile

/-- The files in the order in which they were added. -/
structure FileTable where
  files : List SchemaFile

namespace FileTable

/-- No file. -/
def empty : FileTable :=
  { files := [] }

/-- The number of files. -/
def size (table : FileTable) : Nat :=
  table.files.length

/-- All places in the table, in order. -/
def ids (table : FileTable) : List FileId :=
  (List.range table.size).map FileId.mk

/-- The file at a place. -/
def get? (table : FileTable) (id : FileId) : Option SchemaFile :=
  table.files[id.index]?

/-- The place of the file with a canonical path. -/
def lookup (table : FileTable) (path : String) : Option FileId :=
  (table.files.findIdx? (·.path == path)).map FileId.mk

/-- The place of the file with a path; it is added unless the path is taken. -/
def add (path : String) (tree : FileTree) : StateM FileTable FileId := fun table =>
  match table.lookup path with
  | some id => (id, table)
  | none => (⟨table.size⟩, { files := table.files ++ [{ path, tree, includes := [] }] })

/-- Notes that one file includes another. -/
def addInclude (table : FileTable) (source target : FileId) : FileTable :=
  { files := table.files.modify source.index fun file =>
      if target ∈ file.includes then file
      else { file with includes := file.includes ++ [target] } }

/-- The canonical path of the file at a place. -/
def path (table : FileTable) (id : FileId) : String :=
  ((table.get? id).map (·.path)).getD ""

/-- The qualifier of names from the file at a place. -/
def qualifier (table : FileTable) (id : FileId) : String :=
  ((table.get? id).map (·.qualifier)).getD ""

/-- The files that the file at a place includes. -/
def includes (table : FileTable) (id : FileId) : List FileId :=
  ((table.get? id).map (·.includes)).getD []

/-- The include directives of the file at a place, as written. -/
def directives (table : FileTable) (id : FileId) : List IncludeDecl :=
  ((table.get? id).map (·.tree.includes)).getD []

end FileTable
end IdlSchema
