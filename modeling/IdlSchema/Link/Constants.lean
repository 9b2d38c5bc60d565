import IdlSchema.Diagnostic.Basic
import IdlSchema.Model

/-!
# Checking constants

A literal is checked against the type that is expected of it, behind any typedefs.  An identifier
stands for a truth value, for an enum member, or for a constant, which is checked first, once and
for all, at its own type and in its own file, and whose value then takes the identifier's place.
All problems are reported; a value results only where there is none.
-/

namespace IdlSchema

/-- What is known of a constant. -/
inductive ConstantState where
  | pending
  | inProgress
  | done (value? : Option ConstantValue)
  deriving Inhabited

/-- What is known of all constants, and the problems so far. -/
structure CheckState where
  constants : List ConstantState
  reported : Diagnostics

/-- Checking values. -/
abbrev Checking := StateM CheckState

namespace Checking

/-- Reports a problem; there is no value then. -/
def refuse {α : Type} (problem : Diagnostic) : Checking (Option α) := do
  modify fun state => { state with reported := state.reported ++ [problem] }
  return none

/-- What is known of a constant. -/
def stateOf (index : Nat) : Checking ConstantState :=
  return (← get).constants.getD index (.done none)

/-- Sets what is known of a constant. -/
def setState (index : Nat) (constant : ConstantState) : Checking Unit :=
  modify fun state => { state with constants := state.constants.set index constant }

end Checking

/-- All that values are checked against. -/
structure ConstantScope where
  files : FileTable
  graph : TypeGraph
  model : Model Literal

namespace ConstantScope

/-- The place of the constant that is declared with a name in a file. -/
def constantIn? (scope : ConstantScope) (file : FileId) (name : String) : Option Nat :=
  scope.model.constants.findIdx? fun constant => constant.file == file && constant.name == name

/--
The constant that a name in a file stands for: a qualified one belongs to the first included file
with that qualifier that declares it, another to the file or else to the first included file.
-/
def lookup (scope : ConstantScope) (file : FileId) (name : String) : Option Nat :=
  let includes := scope.files.includes file
  match Text.splitFirst? name with
  | some (qualifier, rest) =>
      (includes.filter fun included => scope.files.qualifier included == qualifier).findSome?
        (scope.constantIn? · rest)
  | none => (scope.constantIn? file name).or (includes.findSome? (scope.constantIn? · name))

/-- The problem of a literal of the wrong sort. -/
def mismatch (scope : ConstantScope) (expected : TypeId) (literal : Literal) : Diagnostic :=
  .detailed .typeMismatch literal.location
    ("expected `" ++ scope.graph.typeName expected ++ "`, found " ++ literal.description)

/-- The value of an enum member. -/
def memberValue (enum : EnumType) (member : EnumMember) : ConstantValue :=
  .enumMember enum.id member.name member.value

/-- The value of an integer literal at a built-in type, or why there is none. -/
def integerAt (scope : ConstantScope) (expected : TypeId) (builtin : Builtin)
    (location : Location) (i : Int64) : Except Diagnostic ConstantValue :=
  if builtin = .bool ∧ i = 0 then .ok (.bool false)
  else if builtin = .bool ∧ i = 1 then .ok (.bool true)
  else if builtin = .double then .ok (.double i.toFloat)
  else
    match builtin.integerRange? with
    | none => .error (scope.mismatch expected (.integer location i))
    | some (low, high) =>
        if low ≤ i.toInt ∧ i.toInt ≤ high then .ok (.integer i)
        else
          .error (.detailed .typeMismatch location
            ("value " ++ toString i.toInt ++ " is out of range for `" ++
              scope.graph.typeName expected ++ "`"))

/-- The value of an integer literal at an enum, or why there is none. -/
def memberAt (scope : ConstantScope) (expected : TypeId) (enum : EnumType)
    (location : Location) (i : Int64) : Except Diagnostic ConstantValue :=
  match enum.memberByValue? i.toInt with
  | some member => .ok (memberValue enum member)
  | none =>
      .error (.detailed .typeMismatch location
        ("`" ++ scope.graph.typeName expected ++ "` has no member with value " ++
          toString i.toInt))

/--
The value of a literal without parts at a type behind any typedefs, or why there is none.
-/
def scalarAt (scope : ConstantScope) (expected actual : TypeId) (literal : Literal) :
    Except Diagnostic ConstantValue :=
  match scope.graph.builtin? actual, scope.model.enum? actual, literal with
  | some builtin, _, .integer location i => scope.integerAt expected builtin location i
  | some .double, _, .double _ x => .ok (.double x)
  | some .string, _, .string _ text => .ok (.string text)
  | some .binary, _, .string _ text => .ok (.string text)
  | none, some enum, .integer location i => scope.memberAt expected enum location i
  | _, _, literal => .error (scope.mismatch expected literal)

/-- The name of a member as an enum sees it: alone, behind the enum, or behind its qualifier too. -/
def memberName? (scope : ConstantScope) (enum : EnumType) (name : String) : Option String :=
  match Text.splitAll name with
  | [member] => some member
  | [enumName, member] => if enumName = enum.name then some member else none
  | [qualifier, enumName, member] =>
      if qualifier = scope.files.qualifier enum.file ∧ enumName = enum.name then some member
      else none
  | _ => none

/-- The truth value or the enum member that an identifier stands for at a type. -/
def wordValue? (scope : ConstantScope) (actual : TypeId) (name : String) :
    Option ConstantValue :=
  if actual = .ofBuiltin .bool ∧ name = "true" then some (.bool true)
  else if actual = .ofBuiltin .bool ∧ name = "false" then some (.bool false)
  else do
    let enum ← scope.model.enum? actual
    let member ← enum.member? (← scope.memberName? enum name)
    return memberValue enum member

/-- The problem of an identifier that stands for nothing. -/
def unknownIdentifier (scope : ConstantScope) (expected actual : TypeId) (location : Location)
    (name : String) : Diagnostic :=
  match scope.model.enum? actual with
  | some _ =>
      .detailed .typeMismatch location
        ("`" ++ name ++ "` is not a member of `" ++ scope.graph.typeName expected ++ "`")
  | none => .detailed .unresolvedConstant location name

/-- The problem of a constant of another type than is expected. -/
def wrongConstant (scope : ConstantScope) (expected declared : TypeId) (location : Location)
    (name : String) : Diagnostic :=
  .detailed .typeMismatch location
    ("expected `" ++ scope.graph.typeName expected ++ "`, found constant `" ++ name ++
      "` of type `" ++ scope.graph.typeName declared ++ "`")

/-- The value of a constant in place of its name, with a way to get the value of a constant. -/
def inline (scope : ConstantScope) (demand : Nat → Checking (Option ConstantValue))
    (expected : TypeId) (location : Location) (name : String) (index : Nat) :
    Checking (Option ConstantValue) := do
  match ← Checking.stateOf index with
  | .inProgress =>
      Checking.refuse (.detailed .cyclicConstant location ("`" ++ name ++ "` depends on itself"))
  | _ =>
      match ← demand index, scope.model.constants[index]? with
      | some value, some constant =>
          if scope.graph.sameType constant.type expected then return some value
          else Checking.refuse (scope.wrongConstant expected constant.type location name)
      | _, _ => return none

/-- The value of an identifier. -/
def identifierAt (scope : ConstantScope) (demand : Nat → Checking (Option ConstantValue))
    (file : FileId) (expected actual : TypeId) (location : Location) (name : String) :
    Checking (Option ConstantValue) :=
  match scope.wordValue? actual name with
  | some value => return some value
  | none =>
      match scope.lookup file name with
      | some index => scope.inline demand expected location name index
      | none => Checking.refuse (scope.unknownIdentifier expected actual location name)

/-- The type of the elements of a list or a set. -/
def elementType? (scope : ConstantScope) (actual : TypeId) : Option TypeId :=
  match scope.graph.shape? actual with
  | some (.list element) => some element
  | some (.set element) => some element
  | _ => none

/-- The types of the keys and values of a map. -/
def entryTypes? (scope : ConstantScope) (actual : TypeId) : Option (TypeId × TypeId) :=
  match scope.graph.shape? actual with
  | some (.map key value) => some (key, value)
  | _ => none

/-- The struct whose fields the entries of a map literal may give. -/
def structAt? (scope : ConstantScope) (actual : TypeId) : Option (StructType Literal) :=
  match scope.model.enum? actual with
  | some _ => none
  | none => scope.model.struct? actual

/-- The field that the key of an entry names, or why there is none. -/
def fieldAt (scope : ConstantScope) (expected : TypeId) (struct : StructType Literal)
    (key : Literal) : Except Diagnostic (Field Literal) :=
  match key with
  | .string location name =>
      match struct.field? name with
      | some field => .ok field
      | none =>
          .error (.detailed .typeMismatch location
            ("`" ++ scope.graph.typeName expected ++ "` has no field `" ++ name ++ "`"))
  | key =>
      .error (.detailed .typeMismatch key.location
        ("expected a field name, found " ++ key.description))

/-- The type behind typedefs that literals are checked against; a failed type has been reported. -/
def checkedType? (scope : ConstantScope) (expected : TypeId) : Option TypeId :=
  (scope.graph.trueType expected).filter (· != .invalid)

/-- Passes on a value or reports why there is none. -/
def settle : Except Diagnostic ConstantValue → Checking (Option ConstantValue)
  | .ok value => return some value
  | .error problem => Checking.refuse problem

/-- Puts a value in front of others, if none is missing. -/
def cons? {α : Type} (head? : Option α) (tail? : Option (List α)) : Option (List α) :=
  head?.bind fun head => tail?.map (head :: ·)

mutual

/-- Checks a literal in a file against the type that is expected there. -/
def check (scope : ConstantScope) (demand : Nat → Checking (Option ConstantValue))
    (file : FileId) (expected : TypeId) (literal : Literal) : Checking (Option ConstantValue) :=
  match scope.checkedType? expected with
  | none => return none
  | some actual =>
      match literal with
      | .identifier location name =>
          scope.identifierAt demand file expected actual location name
      | .list location items =>
          match scope.elementType? actual with
          | some element =>
              return (← checkItems scope demand file element items).map .list
          | none => Checking.refuse (scope.mismatch expected (.list location items))
      | .map location entries =>
          match scope.entryTypes? actual, scope.structAt? actual with
          | some (key, value), _ =>
              return (← checkEntries scope demand file key value entries).map .map
          | none, some struct =>
              return (← checkFields scope demand file expected struct entries).map .struct
          | none, none => Checking.refuse (scope.mismatch expected (.map location entries))
      | .integer location i => settle (scope.scalarAt expected actual (.integer location i))
      | .double location x => settle (scope.scalarAt expected actual (.double location x))
      | .string location text => settle (scope.scalarAt expected actual (.string location text))

/-- Checks the items of a list against the type of its elements. -/
def checkItems (scope : ConstantScope) (demand : Nat → Checking (Option ConstantValue))
    (file : FileId) (element : TypeId) : List Literal → Checking (Option (List ConstantValue))
  | [] => return some []
  | item :: items => do
      let item? ← check scope demand file element item
      let items? ← checkItems scope demand file element items
      return cons? item? items?

/-- Checks the entries of a map against the types of its keys and values. -/
def checkEntries (scope : ConstantScope) (demand : Nat → Checking (Option ConstantValue))
    (file : FileId) (keyType valueType : TypeId) :
    List (Literal × Literal) → Checking (Option (List (ConstantValue × ConstantValue)))
  | [] => return some []
  | (key, value) :: entries => do
      let key? ← check scope demand file keyType key
      let value? ← check scope demand file valueType value
      let entries? ← checkEntries scope demand file keyType valueType entries
      return cons? (key?.bind fun key => value?.map (key, ·)) entries?

/-- Checks the entries of a map as fields of a struct. -/
def checkFields (scope : ConstantScope) (demand : Nat → Checking (Option ConstantValue))
    (file : FileId) (expected : TypeId) (struct : StructType Literal) :
    List (Literal × Literal) → Checking (Option (List (String × ConstantValue)))
  | [] => return some []
  | (key, value) :: entries => do
      let field? ←
        match scope.fieldAt expected struct key with
        | .ok field => do
            let value? ← check scope demand file field.type value
            pure (value?.map (field.name, ·))
        | .error problem => Checking.refuse problem
      let fields? ← checkFields scope demand file expected struct entries
      return cons? field? fields?

end

/--
The value of a constant.  It is checked when it is first asked for; meanwhile it counts as in
progress.  `fuel` bounds the constants that are in progress at once.
-/
def valueOf (scope : ConstantScope) : Nat → Nat → Checking (Option ConstantValue)
  | fuel, index => do
      match ← Checking.stateOf index with
      | .done value? => return value?
      | .inProgress => return none
      | .pending =>
          match fuel, scope.model.constants[index]? with
          | fuel + 1, some constant => do
              Checking.setState index .inProgress
              let value? ←
                check scope (valueOf scope fuel) constant.file constant.type constant.value
              Checking.setState index (.done value?)
              return value?
          | _, _ => return none

/-- The number of constants, which bounds how many are in progress at once. -/
def fuel (scope : ConstantScope) : Nat :=
  scope.model.constants.length

/-- Checks the default of a field. -/
def checkDefault (scope : ConstantScope) (file : FileId) (field : Field Literal) :
    Checking (Field ConstantValue) := do
  let default? ←
    match field.default? with
    | some literal => check scope (scope.valueOf scope.fuel) file field.type literal
    | none => pure none
  return {
    header := field.header, id := field.id, requiredness := field.requiredness
    type := field.type, default? }

/-- Checks the defaults of a struct. -/
def checkStruct (scope : ConstantScope) (struct : StructType Literal) :
    Checking (StructType ConstantValue) := do
  let fields ← struct.fields.mapM (scope.checkDefault struct.file)
  return {
    header := struct.header, file := struct.file, id := struct.id, kind := struct.kind, fields }

/-- Checks the defaults of a method. -/
def checkMethod (scope : ConstantScope) (file : FileId) (method : Method Literal) :
    Checking (Method ConstantValue) := do
  let parameters ← method.parameters.mapM (scope.checkDefault file)
  let exceptions ← method.exceptions.mapM (scope.checkDefault file)
  return {
    header := method.header, oneWay := method.oneWay, returnType := method.returnType
    parameters, exceptions }

/-- Checks the defaults of a service. -/
def checkService (scope : ConstantScope) (service : ServiceType Literal) :
    Checking (ServiceType ConstantValue) := do
  let methods ← service.methods.mapM (scope.checkMethod service.file)
  return {
    header := service.header, file := service.file, id := service.id, base? := service.base?
    methods }

/-- Checks a constant; one without a value is left out. -/
def checkConstant (scope : ConstantScope) (constant : Constant Literal) (index : Nat) :
    Checking (Option (Constant ConstantValue)) := do
  let value? ← scope.valueOf scope.fuel index
  return value?.map fun value =>
    { header := constant.header, file := constant.file, type := constant.type, value }

/-- Checks all defaults and then all constants. -/
def checkModel (scope : ConstantScope) : Checking (Model ConstantValue) := do
  let structs ← scope.model.structs.mapM scope.checkStruct
  let services ← scope.model.services.mapM scope.checkService
  let constants ← scope.model.constants.zipIdx.mapM fun (constant, index) =>
    scope.checkConstant constant index
  return {
    typedefs := scope.model.typedefs
    enums := scope.model.enums
    structs
    services
    constants := constants.filterMap id }

/-- Nothing is known of the constants yet. -/
def initialState (scope : ConstantScope) : CheckState :=
  { constants := scope.model.constants.map fun _ => .pending, reported := [] }

end ConstantScope
end IdlSchema
