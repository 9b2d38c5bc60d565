import IdlSchema.Tree.Declaration

/-!
# Files as they are written

A file has namespaces, includes and declarations.  What an included file declares is referred to
with a qualifier, the file name of the include up to its first point.
-/

namespace IdlSchema

/-- The file name of a path up to its first point; both slashes separate. -/
def fileQualifier (path : String) : String :=
  let parts := Text.partsBetween (fun c => c == '/' || c == '\\') path.toList
  String.ofList ((parts.getLast?.getD []).takeWhile (· != '.'))

/-- The inclusion of another file. -/
structure IncludeDecl where
  location : Location
  path : String

namespace IncludeDecl

/-- The qualifier of names from the included file. -/
def qualifier (inclusion : IncludeDecl) : String :=
  fileQualifier inclusion.path

/-- Equality up to positions. -/
def agrees (a b : IncludeDecl) : Bool :=
  a.path == b.path

end IncludeDecl

/-- The name that a target language uses for the file; it is only passed on. -/
structure NamespaceDecl where
  location : Location
  scope : String
  name : String

namespace NamespaceDecl

/-- Equality up to positions. -/
def agrees (a b : NamespaceDecl) : Bool :=
  a.scope == b.scope && a.name == b.name

end NamespaceDecl

/-- Everything that one file declares; its location names the file. -/
structure FileTree where
  location : Location
  namespaces : List NamespaceDecl
  includes : List IncludeDecl
  constants : List ConstantDecl
  typedefs : List TypedefDecl
  enums : List EnumDecl
  structs : List StructDecl
  services : List ServiceDecl

namespace FileTree

/-- A file that declares nothing. -/
def empty (path : String) : FileTree :=
  { location := .start path, namespaces := [], includes := [], constants := []
    typedefs := [], enums := [], structs := [], services := [] }

instance : Inhabited FileTree := ⟨empty ""⟩

/-- The path under which the file names itself. -/
def path (file : FileTree) : String :=
  file.location.path

/-- Equality up to positions; of the file's own position the path counts. -/
def agrees (a b : FileTree) : Bool :=
  a.path == b.path &&
    listAgrees NamespaceDecl.agrees a.namespaces b.namespaces &&
    listAgrees IncludeDecl.agrees a.includes b.includes &&
    listAgrees ConstantDecl.agrees a.constants b.constants &&
    listAgrees TypedefDecl.agrees a.typedefs b.typedefs &&
    listAgrees EnumDecl.agrees a.enums b.enums &&
    listAgrees StructDecl.agrees a.structs b.structs &&
    listAgrees ServiceDecl.agrees a.services b.services

end FileTree
end IdlSchema
