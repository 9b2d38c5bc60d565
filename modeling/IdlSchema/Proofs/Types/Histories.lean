import IdlSchema.Proofs.Link.TypeNames
import IdlSchema.Proofs.Types.Operations

/-!
# Histories of type graphs

A history is a sequence of operations on a new graph with what each of them gave back.  An
operation may use the types that the graph has by then.  From what was declared and marked in a
history, the declared types of the graph can be told with their places and whether they are resolved.
-/

namespace IdlSchema

namespace TypeGraph

/-- What is asked of a graph. -/
inductive Operation where
  | intern (shape : TypeShape)
  | list (element : TypeId)
  | set (element : TypeId)
  | map (key value : TypeId)
  | declare (name : QualifiedName) (kind : UserTypeKind) (location : Location) (deprecated : Bool)
  | setTarget (typedef target : TypeId)
  | markResolved (id : TypeId)
  | lookup (file : FileId) (name : String)

/-- What an operation gives back. -/
inductive Outcome where
  | type (id : TypeId)
  | declared (result : Except TypeGraphError TypeId)
  | found (id? : Option TypeId)
  | nothing

namespace Operation

/-- The shape that an operation asks the place of. -/
def shape? : Operation → Option TypeShape
  | intern shape => some shape
  | list element => some (.list element)
  | set element => some (.set element)
  | map key value => some (.map key value)
  | _ => none

/-- Carries out an operation. -/
def run : Operation → StateM TypeGraph Outcome
  | intern shape => .type <$> TypeGraph.intern shape
  | list element => .type <$> TypeGraph.intern (.list element)
  | set element => .type <$> TypeGraph.intern (.set element)
  | map key value => .type <$> TypeGraph.intern (.map key value)
  | declare name kind location deprecated =>
      .declared <$> TypeGraph.declare name kind location deprecated
  | setTarget typedef target => do
      modify fun graph => graph.setTarget typedef target
      return .nothing
  | markResolved id => do
      modify fun graph => graph.markResolved id
      return .nothing
  | lookup file name => return .found ((← get).lookup file name)

/-- Whether an operation uses only types that a graph has, and sets targets of typedefs alone. -/
def Fits (graph : TypeGraph) : Operation → Prop
  | intern shape =>
      (∀ parameter ∈ shape.parameters, parameter.index < graph.size) ∧
        ∀ index, shape = .user index → index < graph.users.length
  | list element => element.index < graph.size
  | set element => element.index < graph.size
  | map key value => key.index < graph.size ∧ value.index < graph.size
  | setTarget typedef target =>
      graph.kind? typedef = some .typedef ∧ target.index < graph.size
  | markResolved id => id.index < graph.size
  | _ => True

end Operation

/-- The operations on a new graph so far, with what they gave back, and the graph by now. -/
inductive History : List (Operation × Outcome) → TypeGraph → Prop where
  | start : History [] initial
  | next {events : List (Operation × Outcome)} {graph : TypeGraph} (operation : Operation) :
      History events graph → operation.Fits graph →
      History (events ++ [(operation, (operation.run graph).1)]) (operation.run graph).2

/-- The file and the name of a type that an operation tries to declare. -/
def Operation.key? : Operation → Option (FileId × String)
  | declare name _ _ _ => some (name.file, name.name)
  | _ => none

/-- What an event declared: a file and a name with the type they got. -/
def declared? : Operation × Outcome → Option ((FileId × String) × TypeId)
  | (operation, .declared (.ok id)) => operation.key?.map (·, id)
  | _ => none

/-- The first attempt to declare a name in a file gave a type. -/
def FirstDeclared (events : List (Operation × Outcome)) (key : FileId × String) (id : TypeId) :
    Prop :=
  ∃ before event after, events = before ++ event :: after ∧ declared? event = some (key, id) ∧
    ∀ earlier ∈ before, earlier.1.key? ≠ some key

/-- What holds of a graph after a history of operations. -/
structure Records (events : List (Operation × Outcome)) (graph : TypeGraph) : Prop where
  built : graph.Built
  asked : ∀ operation id, (operation, Outcome.type id) ∈ events →
    ∃ shape, operation.shape? = some shape ∧ graph.shape? id = some shape
  users : graph.users.map (fun user => (user.key, user.id)) = events.filterMap declared?
  nodup : (graph.users.map UserType.key).Nodup
  attempts : ∀ event ∈ events, ∀ key, event.1.key? = some key → key ∈ graph.users.map UserType.key
  first : ∀ user ∈ graph.users, FirstDeclared events user.key user.id
  marks : ∀ id outcome, (Operation.markResolved id, outcome) ∈ events → id.index < graph.size
  resolved : ∀ user ∈ graph.users,
    user.resolved = true ↔ ∃ outcome, (Operation.markResolved user.id, outcome) ∈ events

theorem FirstDeclared.append {events : List (Operation × Outcome)} {key : FileId × String}
    {id : TypeId} (first : FirstDeclared events key id) (more : List (Operation × Outcome)) :
    FirstDeclared (events ++ more) key id := by
  obtain ⟨before, event, after, rfl, declared, unused⟩ := first
  exact ⟨before, event, after ++ more, by simp, declared, unused⟩

namespace Records

variable {events : List (Operation × Outcome)} {graph : TypeGraph}

theorem start : Records [] initial where
  built := .initial
  asked := by simp
  users := rfl
  nodup := by simp [initial]
  attempts := by simp
  first := by simp [initial]
  marks := by simp
  resolved := by simp [initial]

/-- An operation that declares nothing adds no attempt to declare anything. -/
theorem attempts_append (records : Records events graph) {operation : Operation} (outcome : Outcome)
    (no_key : operation.key? = none) :
    ∀ event ∈ events ++ [(operation, outcome)], ∀ key, event.1.key? = some key →
      key ∈ graph.users.map UserType.key := by
  intro event member key attempt
  rcases List.mem_append.mp member with old | last
  · exact records.attempts event old key attempt
  · rw [List.mem_singleton.mp last, no_key] at attempt
    cases attempt

/-- An operation that declares and marks nothing leaves the record of declared types as it is. -/
theorem quiet (records : Records events graph) {operation : Operation} {outcome : Outcome}
    {graph' : TypeGraph} (built : graph'.Built) (extension : graph.Extends graph')
    (users : graph'.users.map (fun user => (user.key, user.id, user.resolved)) =
      graph.users.map (fun user => (user.key, user.id, user.resolved)))
    (no_key : operation.key? = none) (no_mark : ∀ id, operation ≠ .markResolved id)
    (answered : ∀ id, outcome = .type id →
      ∃ shape, operation.shape? = some shape ∧ graph'.shape? id = some shape) :
    Records (events ++ [(operation, outcome)]) graph' := by
  have keys : graph'.users.map UserType.key = graph.users.map UserType.key := by
    simpa [Function.comp_def] using congrArg (List.map Prod.fst) users
  have entries : graph'.users.map (fun user => (user.key, user.id)) =
      graph.users.map (fun user => (user.key, user.id)) := by
    simpa [Function.comp_def] using congrArg (List.map fun entry => (entry.1, entry.2.1)) users
  have earlier {user : UserType} (member : user ∈ graph'.users) :
      ∃ user' ∈ graph.users, user'.key = user.key ∧ user'.id = user.id ∧
        user'.resolved = user.resolved := by
    have listed := List.mem_map_of_mem (f := fun user => (user.key, user.id, user.resolved)) member
    rw [users] at listed
    obtain ⟨user', member', same⟩ := List.mem_map.mp listed
    simp only [Prod.mk.injEq] at same
    exact ⟨user', member', same⟩
  constructor
  case built => exact built
  case asked =>
    intro operation' id member
    rcases List.mem_append.mp member with old | last
    · obtain ⟨shape, asks, found⟩ := records.asked operation' id old
      exact ⟨shape, asks, extension.shape? found⟩
    · simp only [List.mem_singleton, Prod.mk.injEq] at last
      obtain ⟨rfl, rfl⟩ := last
      exact answered id rfl
  case users =>
    have silent : declared? (operation, outcome) = none := by
      unfold declared?
      split
      · rename_i same
        cases same
        simp [no_key]
      · rfl
    rw [entries, records.users]
    simp [silent]
  case nodup => exact keys ▸ records.nodup
  case attempts => exact keys ▸ records.attempts_append outcome no_key
  case first =>
    intro user member
    obtain ⟨user', member', key, id, _⟩ := earlier member
    rw [← key, ← id]
    exact (records.first user' member').append _
  case marks =>
    intro id outcome' member
    rcases List.mem_append.mp member with old | last
    · exact (records.marks id outcome' old).trans_le extension.size_le
    · simp only [List.mem_singleton, Prod.mk.injEq] at last
      exact absurd last.1.symm (no_mark id)
  case resolved =>
    intro user member
    obtain ⟨user', member', _, id, resolved⟩ := earlier member
    rw [← resolved, records.resolved user' member', id]
    simp [fun id => (no_mark id).symm]

theorem interned (records : Records events graph) {operation : Operation} {shape : TypeShape}
    (asks : operation.shape? = some shape)
    (parameters_inside : ∀ parameter ∈ shape.parameters, parameter.index < graph.size)
    (declared : ∀ index, shape = .user index → index < graph.users.length) :
    Records (events ++ [(operation, .type (intern shape graph).1)]) (intern shape graph).2 := by
  obtain ⟨_, extension, users, found⟩ :=
    records.built.wellFormed.interned shape parameters_inside declared
  refine records.quiet (records.built.intern shape parameters_inside declared) extension
    (by rw [users]) ?_ ?_ ?_
  · cases operation <;> simp_all [Operation.shape?, Operation.key?]
  · rintro id rfl
    cases asks
  · rintro id ⟨⟩
    exact ⟨shape, asks, found⟩

theorem declared (records : Records events graph) (name : QualifiedName) (kind : UserTypeKind)
    (location : Location) (deprecated : Bool) :
    Records
      (events ++ [(.declare name kind location deprecated,
        .declared (TypeGraph.declare name kind location deprecated graph).1)])
      (TypeGraph.declare name kind location deprecated graph).2 := by
  have wellFormed := records.built.wellFormed
  have built := records.built.declare name kind location deprecated
  rcases declare_cases wellFormed name kind location deprecated with
    ⟨existing, taken, same⟩ | ⟨unused, same⟩
  · -- A name that is taken changes nothing but the list of attempts.
    have key_mem : (name.file, name.name) ∈ graph.users.map UserType.key := by
      by_contra absent
      rw [lookup_eq_none_iff.mpr absent] at taken
      cases taken
    rw [same]
    constructor
    case built => exact records.built
    case asked => simpa using records.asked
    case users => simpa [List.filterMap_cons, declared?] using records.users
    case nodup => exact records.nodup
    case attempts =>
      intro event member key attempt
      rcases List.mem_append.mp member with old | last
      · exact records.attempts event old key attempt
      · rw [List.mem_singleton.mp last] at attempt
        exact Option.some.inj attempt ▸ key_mem
    case first => exact fun user member => (records.first user member).append _
    case marks => simpa using records.marks
    case resolved => simpa using records.resolved
  · have fresh := lookup_eq_none_iff.mp unused
    rw [same] at built ⊢
    constructor
    case built => exact built
    case asked =>
      intro operation id member
      obtain ⟨shape, asks, found⟩ := records.asked operation id (by simpa using member)
      have extension : graph.Extends
          { shapes := graph.shapes ++ [.user graph.users.length],
            users := graph.users ++
              [⟨name, kind, location, deprecated, ⟨graph.size⟩, none, false⟩] } := ⟨_, rfl⟩
      exact ⟨shape, asks, extension.shape? found⟩
    case users =>
      rw [List.map_append, List.filterMap_append, records.users]
      rfl
    case nodup =>
      rw [List.map_append, List.map_singleton]
      exact records.nodup.append (List.nodup_singleton _) (List.disjoint_singleton.mpr fresh)
    case attempts =>
      intro event member key attempt
      rw [List.map_append]
      rcases List.mem_append.mp member with old | last
      · exact List.mem_append_left _ (records.attempts event old key attempt)
      · rw [List.mem_singleton.mp last] at attempt
        exact List.mem_append_right _ (by simpa [UserType.key] using (Option.some.inj attempt).symm)
    case first =>
      intro user member
      rcases List.mem_append.mp member with old | last
      · exact (records.first user old).append _
      · rw [List.mem_singleton.mp last]
        refine ⟨events, _, [], rfl, rfl, fun earlier before attempt => ?_⟩
        exact fresh (records.attempts earlier before _ attempt)
    case marks =>
      intro id outcome member
      have old := records.marks id outcome (by simpa using member)
      simp only [size, List.length_append, List.length_singleton] at old ⊢
      omega
    case resolved =>
      intro user member
      rcases List.mem_append.mp member with old | last
      · simpa using records.resolved user old
      · -- No mark was set on the new type, because its place did not exist before.
        rw [List.mem_singleton.mp last]
        simp only [Bool.false_eq_true, false_iff, not_exists, List.mem_append, not_or]
        intro outcome
        refine ⟨fun marked => ?_, by simp⟩
        exact Nat.lt_irrefl _ (records.marks _ outcome marked)

theorem retargeted (records : Records events graph) (typedef target : TypeId)
    (target_inside : target.index < graph.size) :
    Records (events ++ [(.setTarget typedef target, .nothing)]) (graph.setTarget typedef target) := by
  have built := records.built.setTarget typedef target target_inside
  exact records.quiet built (extends_modifyUser graph typedef _)
    (map_users_modifyUser graph typedef fun _ => rfl) rfl (by simp) (by simp)

theorem marked (records : Records events graph) {id : TypeId} (inside : id.index < graph.size) :
    Records (events ++ [(.markResolved id, .nothing)]) (graph.markResolved id) := by
  have built := records.built.markResolved id
  have extension : graph.Extends (graph.markResolved id) := extends_modifyUser graph id _
  have entries : (graph.markResolved id).users = graph.users.map fun user =>
      if user.id = id then { user with resolved := true } else user :=
    records.built.wellFormed.users_modifyUser id _
  have same_key (user : UserType) :
      (if user.id = id then { user with resolved := true } else user).key = user.key := by
    split <;> rfl
  have same_id (user : UserType) :
      (if user.id = id then { user with resolved := true } else user).id = user.id := by
    split <;> rfl
  have keys : (graph.markResolved id).users.map UserType.key = graph.users.map UserType.key := by
    rw [entries, List.map_map]
    exact List.map_congr_left fun user _ => same_key user
  constructor
  case built => exact built
  case asked =>
    intro operation id' member
    obtain ⟨shape, asks, found⟩ := records.asked operation id' (by simpa using member)
    exact ⟨shape, asks, extension.shape? found⟩
  case users =>
    rw [entries, List.map_map, List.filterMap_append, ← records.users]
    simp [declared?, Function.comp_def, same_key, same_id]
  case nodup => exact keys ▸ records.nodup
  case attempts => exact keys ▸ records.attempts_append .nothing rfl
  case first =>
    intro user member
    rw [entries] at member
    obtain ⟨user', member', rfl⟩ := List.mem_map.mp member
    rw [same_key, same_id]
    exact (records.first user' member').append _
  case marks =>
    intro id' outcome member
    refine Nat.lt_of_lt_of_le ?_ extension.size_le
    rcases List.mem_append.mp member with old | last
    · exact records.marks id' outcome old
    · simp only [List.mem_singleton, Prod.mk.injEq, Operation.markResolved.injEq] at last
      exact last.1 ▸ inside
  case resolved =>
    intro user member
    rw [entries] at member
    obtain ⟨user', member', rfl⟩ := List.mem_map.mp member
    rw [same_id]
    by_cases here : user'.id = id
    · simp [here]
    · simpa [here] using records.resolved user' member'

end Records

namespace History

variable {events : List (Operation × Outcome)} {graph : TypeGraph}

theorem records (history : History events graph) : Records events graph := by
  induction history with
  | start => exact .start
  | next operation _ fits induction =>
      cases operation with
      | intern shape => exact induction.interned rfl fits.1 fits.2
      | list element =>
          exact induction.interned rfl (by simpa [Operation.Fits] using fits) (by simp)
      | set element =>
          exact induction.interned rfl (by simpa [Operation.Fits] using fits) (by simp)
      | map key value =>
          exact induction.interned rfl (by simpa [Operation.Fits] using fits) (by simp)
      | declare name kind location deprecated =>
          exact induction.declared name kind location deprecated
      | setTarget typedef target => exact induction.retargeted typedef target fits.2
      | markResolved id => exact induction.marked fits
      | lookup file name =>
          refine induction.quiet induction.built (.refl _) rfl rfl (by simp) fun id answer => ?_
          cases answer

/-- A history leads to one graph. -/
theorem graph_eq (history : History events graph) :
    graph = (events.map Prod.fst).foldl (fun graph operation => (operation.run graph).2) initial := by
  induction history with
  | start => rfl
  | next operation _ _ induction => simp [← induction]

end History

end TypeGraph
end IdlSchema
