import IdlSchema.Location
import IdlSchema.Tree.Declaration
import IdlSchema.Types.TypeExpression

/-!
# The type graph

All types of a schema are kept in one table and referred to by their place in it.  A shape is kept
once, so equal collections have the same place.  A declared type is known by its declaration, not
by its contents: two structs with the same fields are different types.  The parameters of a
collection always stand before it, which makes the expression of a type finite; typedefs are not
looked through there, so they may lead back to themselves.
-/

namespace IdlSchema

/-- The place of a file in its table. -/
structure FileId where
  index : Nat
  deriving DecidableEq, Inhabited

/-- The place of a type in the type graph. -/
structure TypeId where
  index : Nat
  deriving DecidableEq, Inhabited

/-- The constructs that declare a type. -/
inductive UserTypeKind where
  | typedef
  | enum
  | struct (kind : StructKind)
  | service
  deriving DecidableEq

namespace UserTypeKind

/-- The keyword of a construct. -/
def text : UserTypeKind → String
  | typedef => "typedef"
  | enum => "enum"
  | struct kind => kind.text
  | service => "service"

end UserTypeKind

/--
The name of a declared type.  It is known by the file and the name; the qualifier of the file only
shows in its text.
-/
structure QualifiedName where
  file : FileId
  qualifier : String
  name : String

namespace QualifiedName

/-- Whether two names stand for the same declaration. -/
def same (a b : QualifiedName) : Bool :=
  a.file == b.file && a.name == b.name

/-- The name with its qualifier, if there is one. -/
def text (name : QualifiedName) : String :=
  if name.qualifier.isEmpty then name.name else name.qualifier ++ "." ++ name.name

end QualifiedName

/-- A shape: a built-in type, a collection of types, a declared type, or the placeholder. -/
inductive TypeShape where
  | builtin (builtin : Builtin)
  | list (element : TypeId)
  | set (element : TypeId)
  | map (key value : TypeId)
  /-- A declared type, by its place among the declared types. -/
  | user (index : Nat)
  /-- What a reference stands for that did not resolve. -/
  | invalid
  deriving DecidableEq

/-- A declared type. -/
structure UserType where
  name : QualifiedName
  kind : UserTypeKind
  location : Location
  deprecated : Bool
  id : TypeId
  /-- The type that a typedef stands for, once it is linked. -/
  target? : Option TypeId
  resolved : Bool

/-- The shapes of all types, and the declared types in order of declaration. -/
structure TypeGraph where
  shapes : List TypeShape
  users : List UserType

/-- What is wrong with a use of the graph. -/
inductive TypeGraphError where
  | duplicateSymbol (name : String) (existing : TypeId)
  | unresolvedType (name : String)
  deriving DecidableEq

namespace TypeGraphError

/-- The error as text. -/
def message : TypeGraphError → String
  | duplicateSymbol name _ => "`" ++ name ++ "` is already declared"
  | unresolvedType name => "`" ++ name ++ "` has not been linked yet"

end TypeGraphError

namespace TypeId

/-- The type of a keyword. -/
def ofBuiltin (builtin : Builtin) : TypeId :=
  ⟨builtin.index⟩

/-- The placeholder for a reference that failed. -/
def invalid : TypeId := ⟨10⟩

end TypeId

namespace TypeGraph

/-- The graph of the built-in types and the placeholder. -/
def initial : TypeGraph :=
  { shapes := Builtin.all.map .builtin ++ [.invalid], users := [] }

/-- The number of shapes. -/
def size (graph : TypeGraph) : Nat :=
  graph.shapes.length

/-- The shape of a type. -/
def shape? (graph : TypeGraph) (id : TypeId) : Option TypeShape :=
  graph.shapes[id.index]?

/-- The place of a shape, which is added unless it is there. -/
def intern (shape : TypeShape) : StateM TypeGraph TypeId := fun graph =>
  match graph.shapes.idxOf? shape with
  | some index => (⟨index⟩, graph)
  | none => (⟨graph.shapes.length⟩, { graph with shapes := graph.shapes ++ [shape] })

/-- The type that is declared with a name in a file. -/
def lookup (graph : TypeGraph) (file : FileId) (name : String) : Option TypeId :=
  (graph.users.find? fun user => user.name.file == file && user.name.name == name).map (·.id)

/--
Declares a type.  It is not resolved before the linker says so.  A name that the file has declared
before is refused with the earlier type.
-/
def declare (name : QualifiedName) (kind : UserTypeKind) (location : Location)
    (deprecated : Bool) : StateM TypeGraph (Except TypeGraphError TypeId) := fun graph =>
  match graph.lookup name.file name.name with
  | some existing => (.error (.duplicateSymbol name.text existing), graph)
  | none =>
      let (id, grown) := intern (.user graph.users.length) graph
      let user : UserType :=
        { name, kind, location, deprecated, id, target? := none, resolved := false }
      (.ok id, { grown with users := graph.users ++ [user] })

/-- The declared type at a place. -/
def user? (graph : TypeGraph) (id : TypeId) : Option UserType :=
  match graph.shape? id with
  | some (.user index) => graph.users[index]?
  | _ => none

/-- Changes the declared type at a place. -/
def modifyUser (graph : TypeGraph) (id : TypeId) (change : UserType → UserType) : TypeGraph :=
  match graph.shape? id with
  | some (.user index) => { graph with users := graph.users.modify index change }
  | _ => graph

/-- Sets what a typedef stands for. -/
def setTarget (graph : TypeGraph) (typedef target : TypeId) : TypeGraph :=
  graph.modifyUser typedef fun user => { user with target? := some target }

/-- Marks a declared type as resolved. -/
def markResolved (graph : TypeGraph) (id : TypeId) : TypeGraph :=
  graph.modifyUser id fun user => { user with resolved := true }

/--
The expression of a type down to the declared types in it.  The parameters of a collection stand
before it in the table.
-/
def expression (graph : TypeGraph) (id : TypeId) : TypeExpression TypeId :=
  let parameter (other : TypeId) : TypeExpression TypeId :=
    if other.index < id.index then graph.expression other else .invalid
  match graph.shape? id with
  | some (.builtin b) => .builtin b
  | some (.list element) => .list (parameter element)
  | some (.set element) => .set (parameter element)
  | some (.map key value) => .map (parameter key) (parameter value)
  | some (.user _) => .user id
  | some .invalid => .invalid
  | none => .invalid
termination_by id.index

/-- Adds the collections in an expression, innermost first and from left to right. -/
def internExpression : TypeExpression TypeId → StateM TypeGraph TypeId
  | .builtin b => pure (.ofBuiltin b)
  | .list element => do
      let element ← internExpression element
      intern (.list element)
  | .set element => do
      let element ← internExpression element
      intern (.set element)
  | .map key value => do
      let key ← internExpression key
      let value ← internExpression value
      intern (.map key value)
  | .user id => pure id
  | .invalid => pure .invalid

/-- The name of the declared type at a place. -/
def userName (graph : TypeGraph) (id : TypeId) : String :=
  ((graph.user? id).map (·.name.text)).getD ""

/-- The name of a type: its keyword, its collection, or its qualified name. -/
def typeName (graph : TypeGraph) (id : TypeId) : String :=
  (graph.expression id).text graph.userName

/-- Whether the declared type at a place waits for the linker. -/
def isPending (graph : TypeGraph) (id : TypeId) : Bool :=
  (graph.user? id).any (!·.resolved)

/-- The shape of a type all of whose declared types are resolved; else the first that is not. -/
def resolve (graph : TypeGraph) (id : TypeId) : Except TypeGraphError TypeShape :=
  match (graph.expression id).users.find? graph.isPending with
  | some pending => .error (.unresolvedType (graph.userName pending))
  | none => .ok ((graph.shape? id).getD .invalid)

/-- The construct that declared the type at a place. -/
def kind? (graph : TypeGraph) (id : TypeId) : Option UserTypeKind :=
  (graph.user? id).map (·.kind)

/-- The built-in type at a place. -/
def builtin? (graph : TypeGraph) (id : TypeId) : Option Builtin :=
  match graph.shape? id with
  | some (.builtin b) => some b
  | _ => none

/-- Follows typedefs for at most a number of steps. -/
def trueTypeWithin (graph : TypeGraph) : Nat → TypeId → Option TypeId
  | 0, _ => none
  | steps + 1, id =>
      match graph.user? id with
      | some user =>
          if user.kind = .typedef then user.target?.bind (graph.trueTypeWithin steps) else some id
      | none => some id

/--
The first type behind any typedefs.  There is none behind a typedef that is not linked or leads
back to itself; any other chain ends after passing each declared type at most once.
-/
def trueType (graph : TypeGraph) (id : TypeId) : Option TypeId :=
  graph.trueTypeWithin (graph.users.length + 1) id

/-- The construct behind any typedefs. -/
def trueKind? (graph : TypeGraph) (id : TypeId) : Option UserTypeKind :=
  (graph.trueType id).bind graph.kind?

/-- Whether a type is void behind any typedefs. -/
def isVoid (graph : TypeGraph) (id : TypeId) : Bool :=
  graph.trueType id == some (.ofBuiltin .void)

/-- Whether a type is a failed reference, or a typedef behind which there is no type. -/
def isInvalid (graph : TypeGraph) (id : TypeId) : Bool :=
  match graph.trueType id with
  | some actual => actual == .invalid
  | none => true

/-- Whether a type is an exception behind any typedefs. -/
def isException (graph : TypeGraph) (id : TypeId) : Bool :=
  graph.trueKind? id == some (.struct .exception)

/-- Whether a type is a service behind any typedefs. -/
def isService (graph : TypeGraph) (id : TypeId) : Bool :=
  graph.trueKind? id == some .service

/--
Compares two types with typedefs stripped at every level.  `seen` holds the pairs that are taken
to be the same because they are being compared already; the result adds the pairs that were met,
or is none at the first difference.  `fuel` bounds the depth, and no pair is entered twice.
-/
def sameTypeFrom (graph : TypeGraph) :
    Nat → TypeId → TypeId → List (TypeId × TypeId) → Option (List (TypeId × TypeId))
  | 0, _, _, seen => some seen
  | fuel + 1, a, b, seen =>
      if a = b || seen.contains (a, b) then some seen
      else
        let seen := (a, b) :: seen
        match graph.trueType a, graph.trueType b with
        | some a, some b =>
            if a = b then some seen
            else
              match graph.shape? a, graph.shape? b with
              | some .invalid, _ => some seen
              | _, some .invalid => some seen
              | some (.list x), some (.list y) => graph.sameTypeFrom fuel x y seen
              | some (.set x), some (.set y) => graph.sameTypeFrom fuel x y seen
              | some (.map k v), some (.map k' v') =>
                  (graph.sameTypeFrom fuel k k' seen).bind (graph.sameTypeFrom fuel v v')
              | _, _ => none
        | _, _ => none

/--
Whether two types are the same once typedefs are stripped at every level.  Declared types are
compared by identity, and the placeholder is the same as anything.
-/
def sameType (graph : TypeGraph) (a b : TypeId) : Bool :=
  (graph.sameTypeFrom (graph.size * graph.size + 1) a b []).isSome

end TypeGraph
end IdlSchema
