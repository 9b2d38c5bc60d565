import IdlSchema.Diagnostic.Basic
import IdlSchema.Digraph
import IdlSchema.Files.FileTable
import IdlSchema.Files.IncludeResolver

/-!
# The files behind some roots

From the roots, includes are followed depth first.  A file is visited once, whatever includes it,
and the same directive of the same file is resolved once.  Directives of a file that was reached
through as many includes as the limit allows are refused instead.
-/

namespace IdlSchema

/-- What is known while includes are followed. -/
structure LoadState where
  files : FileTable
  visited : List FileId
  /-- What the directives of the files met so far were found to be. -/
  answers : List ((FileId × String) × Option FileId)
  reported : Diagnostics

namespace LoadState

/-- Nothing is known. -/
def initial : LoadState :=
  { files := .empty, visited := [], answers := [], reported := [] }

end LoadState

/-- Following includes with the effects of a resolver. -/
abbrev Loading (m : Type → Type) := StateT LoadState m

namespace Loading

variable {m : Type → Type} [Monad m]

/-- Reports a problem. -/
def report (diagnostic : Diagnostic) : Loading m Unit :=
  modify fun state => { state with reported := state.reported ++ [diagnostic] }

/-- Adds a file unless its path is taken. -/
def addFile (path : String) (tree : FileTree) : Loading m FileId :=
  modifyGet fun state =>
    let (id, files) := (FileTable.add path tree).run state.files
    (id, { state with files })

/-- Marks a file as visited and tells whether it was not before. -/
def enter (file : FileId) : Loading m Bool :=
  modifyGet fun state =>
    if file ∈ state.visited then (false, state)
    else (true, { state with visited := file :: state.visited })

/--
The file that a directive means: what the resolver finds, or else the file whose path is written.
-/
def resolveAnew (resolver : IncludeResolver m) (source : FileId) (directive : IncludeDecl) :
    Loading m (Option FileId) := do
  let includer := (← get).files.path source
  let found ← resolver.resolve includer directive.path
  match found with
  | some found => some <$> addFile found.path found.tree
  | none => return (← get).files.lookup directive.path

/-- The file that a directive means; the first answer for what a file writes is kept. -/
def resolve (resolver : IncludeResolver m) (source : FileId) (directive : IncludeDecl) :
    Loading m (Option FileId) := do
  let question := (source, directive.path)
  match (← get).answers.lookup question with
  | some answer => return answer
  | none => do
      let answer ← resolveAnew resolver source directive
      if answer.isNone then
        report (.detailed .unresolvedInclude directive.location directive.path)
      modify fun state => { state with answers := (question, answer) :: state.answers }
      return answer

/-- The problem of a directive beyond the limit. -/
def tooDeep (limit : Nat) (directive : IncludeDecl) : Diagnostic :=
  .detailed .includeDepthExceeded directive.location
    ("`" ++ directive.path ++ "` is nested more than " ++ toString limit ++ " includes deep")

/--
Visits a file and what it includes.  `remaining` is the number of includes that may still lead
onwards.
-/
def visit (resolver : IncludeResolver m) (limit : Nat) : Nat → FileId → Loading m Unit
  | 0, file => do
      if ← enter file then
        ((← get).files.directives file).forM fun directive => report (tooDeep limit directive)
  | remaining + 1, file => do
      if ← enter file then
        ((← get).files.directives file).forM fun directive => do
          match ← resolve resolver file directive with
          | some target => do
              modify fun state => { state with files := state.files.addInclude file target }
              visit resolver limit remaining target
          | none => pure ()

/-- Adds all roots, so that they can include one another by path, and then visits each. -/
def load (resolver : IncludeResolver m) (limit : Nat) (roots : List FileTree) :
    Loading m Unit := do
  let ids ← roots.mapM fun root => addFile root.path root
  ids.forM (visit resolver limit limit)

end Loading

namespace FileTable

/-- The files and problems behind some roots. -/
def load {m : Type → Type} [Monad m] (resolver : IncludeResolver m) (limit : Nat)
    (roots : List FileTree) : m (FileTable × Diagnostics) := do
  let ((), state) ← (Loading.load resolver limit roots).run .initial
  return (state.files, state.reported)

/-- The graph of which file includes which. -/
def includeGraph (table : FileTable) : Digraph :=
  { successorLists := table.files.map fun file => file.includes.map (·.index) }

/-- All files, what is included before what includes it. -/
def dependencyOrder (table : FileTable) : List FileId :=
  table.includeGraph.components.flatten.map FileId.mk

end FileTable
end IdlSchema
