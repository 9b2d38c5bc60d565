import IdlSchema.Proofs.Constants.ClearChecks
import IdlSchema.Proofs.Link.Linked
import IdlSchema.Proofs.Link.QualifiedIncludes
import IdlSchema.Proofs.Types.Unfoldings

/-!
# The nodes of a literal

A literal is judged node by node.  Each literal in it is a node, at the type that is expected at its
position, and so is the key of each entry that gives a field of a struct.  What fits, which
constants are visible, and how members are spelled is told here in terms of the type, the files and
the declarations alone; the functions that check literals find just that.
-/

namespace IdlSchema

/-- What is judged in a literal: a literal where a type is expected, or the key of a field. -/
inductive LiteralNode where
  | literal (expected : TypeId) (literal : Literal)
  | key (struct : StructType Literal) (key : Literal)

/-- Where a node stands. -/
def LiteralNode.location : LiteralNode → Location
  | .literal _ written => written.location
  | .key _ written => written.location

/-- The field that the key of an entry names, if the key is a string. -/
def StructType.keyField? (struct : StructType Literal) : Literal → Option (Field Literal)
  | .string _ name => struct.field? name
  | _ => none

/-- All constants have been linked, with a value or without one. -/
def CheckState.Linked (state : CheckState) : Prop :=
  ∀ constant ∈ state.constants, ∃ value?, constant = .done value?

/-- A text has no point in it. -/
def Text.Plain (text : String) : Prop :=
  '.' ∉ text.toList

/--
A name spells a member of an enum: as `MEMBER`, as `Enum.MEMBER`, or as `prefix.Enum.MEMBER`.  Only
names of some sort can be spelled.
-/
inductive FileTable.Spells (files : FileTable) (legible : String → Prop) (enum : EnumType)
    (member : String) : String → Prop where
  | alone : legible member → Spells files legible enum member member
  | behindEnum : legible enum.name → legible member →
      Spells files legible enum member (enum.name ++ "." ++ member)
  | behindQualifier : legible enum.name → legible member →
      Spells files legible enum member
        (files.qualifier enum.file ++ "." ++ (enum.name ++ "." ++ member))

namespace ConstantScope

variable (scope : ConstantScope)

mutual

/-- The nodes of a literal in source order.  At a type that asks for other parts it has none. -/
def nodes (expected : TypeId) (literal : Literal) : List LiteralNode :=
  .literal expected literal ::
    match scope.graph.trueType expected with
    | none => []
    | some actual =>
        match literal with
        | .list _ items =>
            match scope.elementType? actual with
            | some element => itemNodes element items
            | none => []
        | .map _ entries =>
            match scope.entryTypes? actual, scope.structAt? actual with
            | some (key, value), _ => entryNodes key value entries
            | none, some struct => fieldNodes struct entries
            | none, none => []
        | _ => []

/-- The nodes of the items of a list. -/
def itemNodes (element : TypeId) : List Literal → List LiteralNode
  | [] => []
  | item :: items => nodes element item ++ itemNodes element items

/-- The nodes of the entries of a map. -/
def entryNodes (keyType valueType : TypeId) : List (Literal × Literal) → List LiteralNode
  | [] => []
  | (key, value) :: entries =>
      nodes keyType key ++ nodes valueType value ++ entryNodes keyType valueType entries

/-- The nodes of entries that give fields.  The value of an entry without a field has none. -/
def fieldNodes (struct : StructType Literal) : List (Literal × Literal) → List LiteralNode
  | [] => []
  | (key, value) :: entries =>
      (.key struct key ::
        match struct.keyField? key with
        | some field => nodes field.type value
        | none => []) ++ fieldNodes struct entries

end

/--
A literal, other than an identifier, has the form that the type behind typedefs asks for.  This says
nothing about its parts.
-/
inductive Fits (actual : TypeId) : Literal → Prop where
  | bool {location : Location} {i : Int64} :
      actual = .ofBuiltin .bool → i = 0 ∨ i = 1 → Fits actual (.integer location i)
  | integer {location : Location} {i : Int64} {builtin : Builtin} {low high : Int} :
      actual = .ofBuiltin builtin → builtin.integerRange? = some (low, high) →
      low ≤ i.toInt → i.toInt ≤ high → Fits actual (.integer location i)
  | wholeDouble {location : Location} {i : Int64} :
      actual = .ofBuiltin .double → Fits actual (.integer location i)
  | member {location : Location} {i : Int64} {enum : EnumType} {member : EnumMember} :
      scope.model.enum? actual = some enum → member ∈ enum.members →
      member.value.toInt = i.toInt → Fits actual (.integer location i)
  | double {location : Location} {x : Float} :
      actual = .ofBuiltin .double → Fits actual (.double location x)
  | string {location : Location} {text : String} :
      actual = .ofBuiltin .string ∨ actual = .ofBuiltin .binary →
      Fits actual (.string location text)
  | list {location : Location} {items : List Literal} {element : TypeId} :
      scope.graph.shape? actual = some (.list element) ∨
        scope.graph.shape? actual = some (.set element) → Fits actual (.list location items)
  | map {location : Location} {entries : List (Literal × Literal)} {key value : TypeId} :
      scope.graph.shape? actual = some (.map key value) → Fits actual (.map location entries)
  | struct {location : Location} {entries : List (Literal × Literal)}
      {struct : StructType Literal} :
      scope.model.struct? actual = some struct → Fits actual (.map location entries)

/-- An identifier is a truth value or a member of an enum. -/
def IsWord (legible : String → Prop) (actual : TypeId) (name : String) : Prop :=
  actual = .ofBuiltin .bool ∧ (name = "true" ∨ name = "false") ∨
    ∃ enum, scope.model.enum? actual = some enum ∧
      ∃ member ∈ enum.members, scope.files.Spells legible enum member.name name

/--
The constant that is visible under a name in a file.  A name with a point belongs to the first
included file with the qualifier in front of its first point that declares a constant with the name
behind it.  Any other name belongs to the file itself, and else to the first included file that
declares such a constant.
-/
inductive Names (file : FileId) : String → Nat → Prop where
  | qualified {qualifier rest : String} {before after : List FileId} {included : FileId}
      {index : Nat} :
      Text.Plain qualifier → scope.files.includes file = before ++ included :: after →
      (∀ other ∈ before, scope.files.qualifier other = qualifier →
        scope.constantIn? other rest = none) →
      scope.files.qualifier included = qualifier → scope.constantIn? included rest = some index →
      Names file (qualifier ++ "." ++ rest) index
  | own {name : String} {index : Nat} :
      Text.Plain name → scope.constantIn? file name = some index → Names file name index
  | included {name : String} {before after : List FileId} {included : FileId} {index : Nat} :
      Text.Plain name → scope.constantIn? file name = none →
      scope.files.includes file = before ++ included :: after →
      (∀ other ∈ before, scope.constantIn? other name = none) →
      scope.constantIn? included name = some index → Names file name index

/--
A node offends: a problem of some kind belongs to it.  A literal offends if it does not fit, and a
key if it names no field.  An identifier offends if it is no word of the type and no constant is
visible under its name, or one that has a value at a type that is not the same.
-/
inductive Offends (legible : String → Prop) (state : CheckState) (file : FileId) :
    LiteralNode → DiagnosticKind → Prop where
  | unfit {expected actual : TypeId} {literal : Literal} :
      scope.graph.trueType expected = some actual →
      (∀ location name, literal ≠ .identifier location name) → ¬ scope.Fits actual literal →
      Offends legible state file (.literal expected literal) .typeMismatch
  | noMember {expected actual : TypeId} {location : Location} {name : String} {enum : EnumType} :
      scope.graph.trueType expected = some actual → ¬ scope.IsWord legible actual name →
      (∀ index, ¬ scope.Names file name index) → scope.model.enum? actual = some enum →
      Offends legible state file (.literal expected (.identifier location name)) .typeMismatch
  | unknown {expected actual : TypeId} {location : Location} {name : String} :
      scope.graph.trueType expected = some actual → ¬ scope.IsWord legible actual name →
      (∀ index, ¬ scope.Names file name index) → scope.model.enum? actual = none →
      Offends legible state file (.literal expected (.identifier location name)) .unresolvedConstant
  | mistyped {expected actual : TypeId} {location : Location} {name : String} {index : Nat}
      {constant : Constant Literal} {value : ConstantValue} :
      scope.graph.trueType expected = some actual → ¬ scope.IsWord legible actual name →
      scope.Names file name index → scope.model.constants[index]? = some constant →
      state.value? index = some value → scope.graph.sameType constant.type expected = false →
      Offends legible state file (.literal expected (.identifier location name)) .typeMismatch
  | key {struct : StructType Literal} {key : Literal} :
      struct.keyField? key = none → Offends legible state file (.key struct key) .typeMismatch

/-- A node is an identifier that names a constant that failed to link. -/
inductive Lacks (legible : String → Prop) (state : CheckState) (file : FileId) :
    LiteralNode → Prop where
  | constant {expected actual : TypeId} {location : Location} {name : String} {index : Nat} :
      scope.graph.trueType expected = some actual → ¬ scope.IsWord legible actual name →
      scope.Names file name index → state.value? index = none →
      Lacks legible state file (.literal expected (.identifier location name))

/-- Nothing is wrong with a node. -/
structure Passes (legible : String → Prop) (state : CheckState) (file : FileId)
    (node : LiteralNode) : Prop where
  inoffensive : ∀ kind, ¬ scope.Offends legible state file node kind
  complete : ¬ scope.Lacks legible state file node

/-- The problems of nodes: just one for each that offends, of its kind and at its position. -/
inductive Blames (legible : String → Prop) (state : CheckState) (file : FileId) :
    List LiteralNode → Diagnostics → Prop where
  | nil : Blames legible state file [] []
  | passed {node : LiteralNode} {nodes : List LiteralNode} {problems : Diagnostics} :
      (∀ kind, ¬ scope.Offends legible state file node kind) →
      Blames legible state file nodes problems → Blames legible state file (node :: nodes) problems
  | blamed {node : LiteralNode} {kind : DiagnosticKind} {text : String}
      {nodes : List LiteralNode} {problems : Diagnostics} :
      scope.Offends legible state file node kind → Blames legible state file nodes problems →
      Blames legible state file (node :: nodes) (.detailed kind node.location text :: problems)

/-- A type leads to its target, its parameters, or the types of its fields. -/
def LeadsOn (a b : TypeId) : Prop :=
  scope.graph.Leads a b ∨
    ∃ struct ∈ scope.model.structs, struct.id = a ∧ ∃ field ∈ struct.fields, field.type = b

/-- Wherever a type leads, no reference has failed and no typedef leads back to itself. -/
def Unbroken (expected : TypeId) : Prop :=
  ∀ other, Relation.ReflTransGen scope.LeadsOn expected other →
    other ≠ .invalid ∧ ∃ actual, scope.graph.trueType other = some actual

/--
A literal is judged node by node: each offending node is reported, in source order, and nothing
else; there is a value just if no node offends and no constant that is named has failed.
-/
structure Judges (legible : String → Prop) (file : FileId) (expected : TypeId) (literal : Literal)
    (state : CheckState) (result : Option ConstantValue × CheckState) : Prop where
  constants : result.2.constants = state.constants
  reported : ∃ problems, result.2.reported = state.reported ++ problems ∧
    scope.Blames legible state file (scope.nodes expected literal) problems
  valued : result.1.isSome ↔
    ∀ node ∈ scope.nodes expected literal, scope.Passes legible state file node

end ConstantScope
end IdlSchema
