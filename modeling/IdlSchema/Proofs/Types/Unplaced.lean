import IdlSchema.Proofs.SideBySide
import IdlSchema.Proofs.Tree.Unplaced
import IdlSchema.Types.TypeGraph

/-!
# Type graphs without positions

A declared type remembers where it is declared, which no question about types depends on: a graph
answers the same without positions, and it grows in the same way.
-/

namespace IdlSchema

/-- A declared type without its position. -/
def UserType.unplaced (user : UserType) : UserType :=
  { user with location := .nowhere }

namespace TypeGraph

/-- The graph without positions. -/
def unplaced (graph : TypeGraph) : TypeGraph :=
  { graph with users := graph.users.map UserType.unplaced }

/-! ## Questions about types -/

section

variable (graph : TypeGraph)

@[simp]
theorem shape?_unplaced (id : TypeId) : graph.unplaced.shape? id = graph.shape? id :=
  rfl

@[simp]
theorem lookup_unplaced (file : FileId) (name : String) :
    graph.unplaced.lookup file name = graph.lookup file name := by
  rw [lookup, lookup, unplaced, List.find?_map, Option.map_map]
  rfl

@[simp]
theorem user?_unplaced (id : TypeId) :
    graph.unplaced.user? id = (graph.user? id).map UserType.unplaced := by
  rw [user?, user?, shape?_unplaced]
  cases graph.shape? id with
  | none => rfl
  | some shape =>
      cases shape with
      | user index => exact List.getElem?_map
      | _ => rfl

@[simp]
theorem expression_unplaced (id : TypeId) : graph.unplaced.expression id = graph.expression id := by
  induction at_id : id.index using Nat.strong_induction_on generalizing id with
  | h index induction =>
      have parameter (other : TypeId) :
          (if other.index < id.index then graph.unplaced.expression other else .invalid) =
            if other.index < id.index then graph.expression other else .invalid := by
        split
        · rename_i before
          exact induction other.index (at_id ▸ before) other rfl
        · rfl
      rw [expression, expression, shape?_unplaced]
      simp only [parameter]

@[simp]
theorem userName_unplaced : graph.unplaced.userName = graph.userName := by
  funext id
  rw [userName, userName, user?_unplaced, Option.map_map]
  rfl

@[simp]
theorem typeName_unplaced (id : TypeId) : graph.unplaced.typeName id = graph.typeName id := by
  rw [typeName, typeName, expression_unplaced, userName_unplaced]

@[simp]
theorem kind?_unplaced (id : TypeId) : graph.unplaced.kind? id = graph.kind? id := by
  rw [kind?, kind?, user?_unplaced, Option.map_map]
  rfl

@[simp]
theorem trueType_unplaced (id : TypeId) : graph.unplaced.trueType id = graph.trueType id := by
  have within (steps : Nat) (id : TypeId) :
      graph.unplaced.trueTypeWithin steps id = graph.trueTypeWithin steps id := by
    induction steps generalizing id with
    | zero => rfl
    | succ steps induction =>
        rw [trueTypeWithin, trueTypeWithin, user?_unplaced]
        cases graph.user? id with
        | none => rfl
        | some user =>
            simp only [Option.map_some, UserType.unplaced]
            rw [funext induction]
  rw [trueType, trueType, within, unplaced, List.length_map]

@[simp]
theorem trueKind?_unplaced (id : TypeId) : graph.unplaced.trueKind? id = graph.trueKind? id := by
  rw [trueKind?, trueKind?, trueType_unplaced, funext graph.kind?_unplaced]

@[simp]
theorem isVoid_unplaced (id : TypeId) : graph.unplaced.isVoid id = graph.isVoid id := by
  rw [isVoid, isVoid, trueType_unplaced]

@[simp]
theorem isInvalid_unplaced (id : TypeId) : graph.unplaced.isInvalid id = graph.isInvalid id := by
  rw [isInvalid, isInvalid, trueType_unplaced]

@[simp]
theorem isException_unplaced (id : TypeId) :
    graph.unplaced.isException id = graph.isException id := by
  rw [isException, isException, trueKind?_unplaced]

@[simp]
theorem isService_unplaced (id : TypeId) : graph.unplaced.isService id = graph.isService id := by
  rw [isService, isService, trueKind?_unplaced]

@[simp]
theorem sameType_unplaced (a b : TypeId) :
    graph.unplaced.sameType a b = graph.sameType a b := by
  have from_seen (fuel : Nat) (a b : TypeId) (seen : List (TypeId × TypeId)) :
      graph.unplaced.sameTypeFrom fuel a b seen = graph.sameTypeFrom fuel a b seen := by
    induction fuel generalizing a b seen with
    | zero => rfl
    | succ fuel induction =>
        have later (a b : TypeId) : graph.unplaced.sameTypeFrom fuel a b =
            graph.sameTypeFrom fuel a b := funext (induction a b)
        rw [sameTypeFrom, sameTypeFrom, trueType_unplaced, trueType_unplaced]
        simp only [shape?_unplaced, later]
  exact congrArg Option.isSome (from_seen _ a b [])

end

/-! ## Growth -/

theorem follows_intern (shape : TypeShape) :
    Follows unplaced id (intern shape) (intern shape) := by
  refine .ofState fun graph => ?_
  rw [intern, intern, unplaced]
  cases graph.shapes.idxOf? shape <;> rfl

theorem follows_internExpression (expression : TypeExpression TypeId) :
    Follows unplaced id (internExpression expression) (internExpression expression) := by
  induction expression with
  | builtin _ => exact .ofPure _
  | list element induction => exact .bind induction fun id => follows_intern (.list id)
  | set element induction => exact .bind induction fun id => follows_intern (.set id)
  | map key value induction induction' =>
      exact .bind induction fun id => .bind induction' fun id' => follows_intern (.map id id')
  | user _ => exact .ofPure _
  | invalid => exact .ofPure _

theorem follows_declare (name : QualifiedName) (kind : UserTypeKind) (location : Location)
    (deprecated : Bool) : Follows unplaced id (declare name kind location deprecated)
      (declare name kind .nowhere deprecated) := by
  refine .ofState fun graph => ?_
  rw [declare, declare, lookup_unplaced]
  cases graph.lookup name.file name.name with
  | some existing => rfl
  | none =>
      have grown := (follows_intern (.user graph.users.length)).apply graph
      have length : graph.unplaced.users.length = graph.users.length := List.length_map ..
      dsimp only
      rw [length, grown]
      generalize intern (.user graph.users.length) graph = result
      obtain ⟨id, grown⟩ := result
      simp [unplaced, UserType.unplaced]

theorem modifyUser_unplaced (graph : TypeGraph) (id : TypeId) {change : UserType → UserType}
    (same : ∀ user, change user.unplaced = (change user).unplaced) :
    graph.unplaced.modifyUser id change = (graph.modifyUser id change).unplaced := by
  rw [modifyUser, modifyUser, shape?_unplaced]
  cases graph.shape? id with
  | none => rfl
  | some shape =>
      cases shape with
      | user index =>
          refine congrArg (TypeGraph.mk graph.shapes) (List.ext_getElem? fun other => ?_)
          rw [unplaced, List.getElem?_modify, List.getElem?_map, List.getElem?_map,
            List.getElem?_modify]
          cases graph.users[other]? with
          | none => rfl
          | some user => by_cases here : index = other <;> simp [here, same]
      | _ => rfl

theorem setTarget_unplaced (graph : TypeGraph) (typedef target : TypeId) :
    graph.unplaced.setTarget typedef target = (graph.setTarget typedef target).unplaced :=
  graph.modifyUser_unplaced typedef fun _ => rfl

theorem markResolved_unplaced (graph : TypeGraph) (id : TypeId) :
    graph.unplaced.markResolved id = (graph.markResolved id).unplaced :=
  graph.modifyUser_unplaced id fun _ => rfl

end TypeGraph
end IdlSchema
