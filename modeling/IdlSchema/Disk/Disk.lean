import IdlSchema.Disk.FileSystem
import IdlSchema.Path

/-!
# Disks

A disk holds files and directories below a working directory.  Nothing is known of what lies outside,
and there are no links, so a disk is but one of the file systems that the program can meet.  Paths are
followed component by component, and all but the last must be directories.  Names and paths have a
length limit in bytes.
-/

namespace IdlSchema

/-- The names that lead from the working directory to a file or directory. -/
abbrev Trail := List String

/-- The files and directories below a working directory, which is not among them itself. -/
structure Disk where
  files : List (Trail × String)
  directories : List Trail

namespace Disk

/-- Where a path leads to. -/
inductive Spot where
  /-- The end of a trail, whether there is something or not. -/
  | below (trail : Trail)
  /-- A directory outside the working directory. -/
  | outside
  /-- A name in a directory outside. -/
  | unknown
  deriving DecidableEq

/-- What there may be at a spot. -/
inductive Entry where
  | file (text : String)
  | directory
  deriving DecidableEq

/-- A disk without files. -/
def empty : Disk :=
  { files := [], directories := [] }

/-- What there is at a spot. -/
def entry? (disk : Disk) : Spot → Option Entry
  | .outside => some .directory
  | .unknown => none
  | .below trail =>
      if trail = [] ∨ trail ∈ disk.directories then some .directory
      else (disk.files.lookup trail).map .file

/-- The spot that a component leads to from a directory. -/
def enter (spot : Spot) (component : Path.Component) : Spot :=
  match component, spot with
  | .root, _ => .outside
  | .current, spot => spot
  | .parent, .below trail => if trail = [] then .outside else .below trail.dropLast
  | .parent, _ => .outside
  | .name name, .below trail => .below (trail ++ [name])
  | .name _, _ => .unknown

/-- The largest number of bytes in a name. -/
def nameLimit : Nat := 255

/-- The largest number of bytes in a path. -/
def pathLimit : Nat := 4095

/--
The spot that a component leads to, unless it starts at something other than a directory or has too
long a name.
-/
def step (disk : Disk) (spot : Spot) (component : Path.Component) : Except FileFailure Spot :=
  match disk.entry? spot with
  | some .directory =>
      if nameLimit < component.text.utf8ByteSize then .error .nameTooLong
      else .ok (enter spot component)
  | some (.file _) => .error .notADirectory
  | none => .error .notFound

/-- The components between the slashes of a path, points included. -/
def componentsOf (path : String) : List Path.Component :=
  let parts := (Text.partsBetween (· == '/') path.toList).map String.ofList
  let components := Path.componentsOfParts parts
  if Path.isAbsolute path then .root :: components else components

/-- What is wrong with a path, wherever it leads to. -/
def fault? (path : String) : Option FileFailure :=
  if path.toList.contains '\x00' then some .nulInName
  else if path.isEmpty then some .notFound
  else if pathLimit < path.utf8ByteSize then some .nameTooLong
  else none

/-- The spot that some components lead to from the working directory. -/
def walk (disk : Disk) (components : List Path.Component) : Except FileFailure Spot :=
  components.foldlM disk.step (.below [])

/-- The spot that a path leads to. -/
def follow (disk : Disk) (path : String) : Except FileFailure Spot :=
  match fault? path with
  | some failure => .error failure
  | none => disk.walk (componentsOf path)

/-- The directory in which the last component of a path is looked up. -/
def followToLast (disk : Disk) (path : String) : Except FileFailure Spot :=
  match fault? path with
  | some failure => .error failure
  | none => do
      let spot ← disk.walk (componentsOf path).dropLast
      disk.step spot .current

/-- Whether a path says that it leads to a directory. -/
def namesDirectory (path : String) : Bool :=
  path.toList.getLast? == some '/'

/-- The text of the file at a path. -/
def read (disk : Disk) (path : String) : Except FileFailure String := do
  let spot ← disk.follow path
  match disk.entry? spot with
  | some (.file text) => if namesDirectory path then .error .notADirectory else .ok text
  | some .directory => .error .isADirectory
  | none => .error .notFound

/-- The text of the file at a path, if there is one. -/
def read? (disk : Disk) (path : String) : Option String :=
  match disk.read path with
  | .ok text => some text
  | .error _ => none

/-- The disk with a file at a trail. -/
def put (disk : Disk) (trail : Trail) (text : String) : Disk :=
  { disk with files := (trail, text) :: disk.files.filter (·.1 != trail) }

/-- The disk with a text as the content of the file at a path. -/
def write (disk : Disk) (path text : String) : Except FileFailure Disk := do
  if namesDirectory path then
    let _ ← disk.followToLast path
    .error .isADirectory
  else
    let spot ← disk.follow path
    match spot, disk.entry? spot with
    | _, some .directory => .error .isADirectory
    | .below trail, _ => .ok (disk.put trail text)
    | _, _ => .error .notFound

/-- The disk with a directory at a trail and all those on the way. -/
def putDirectory (disk : Disk) (trail : Trail) : Disk :=
  let onTheWay := (List.range trail.length).map fun count => trail.take (count + 1)
  { disk with directories := disk.directories ++ onTheWay.filter (· ∉ disk.directories) }

/-- The names in a path. -/
def trailOf (path : String) : Trail :=
  (Path.normalizeComponents (Path.components path)).filterMap fun component =>
    match component with
    | .name name => some name
    | _ => none

/-- The disk with a file at a path, or a directory, if the path ends with a slash. -/
def prepare (disk : Disk) (path text : String) : Disk :=
  let trail := trailOf path
  if namesDirectory path then disk.putDirectory trail
  else (disk.putDirectory trail.dropLast).put trail text

/-- The disk of some files, in order. -/
def ofFiles (files : List (String × String)) : Disk :=
  files.foldl (fun disk (path, text) => disk.prepare path text) empty

/-- The operations on a disk as a state. -/
def fileSystem : FileSystem (StateM Disk) :=
  { read := fun path => do return (← get).read path
    isFile := fun path => do return ((← get).read? path).isSome
    write := fun path text => do
      match (← get).write path text with
      | .ok disk => set disk; return .ok ()
      | .error failure => return .error failure }

theorem lookup_put (disk : Disk) (trail : Trail) (text : String) :
    (disk.put trail text).files.lookup trail = some text := by
  simp [put]

end Disk
end IdlSchema
