import IdlSchema.Proofs.Types.WellFormed

/-!
# How type graphs grow

Every operation on a graph keeps it well-formed.  Declaring a type adds just that type.  Linking
adds collections alone: a declared type can become resolved, and a typedef whose turn it is gets
its target, but nothing that is known of a type is lost.
-/

namespace IdlSchema
namespace TypeGraph

/-! ## Adding shapes -/

/-- A shape is found, or else it goes to the end of the table. -/
theorem intern_cases (graph : TypeGraph) (shape : TypeShape) :
    (∃ id, intern shape graph = (id, graph) ∧ graph.shape? id = some shape) ∨
      (shape ∉ graph.shapes ∧
        intern shape graph =
          (⟨graph.size⟩, { graph with shapes := graph.shapes ++ [shape] })) := by
  rw [intern]
  cases found : graph.shapes.idxOf? shape with
  | some index =>
      refine .inl ⟨⟨index⟩, rfl, ?_⟩
      obtain ⟨inside, same, _⟩ := List.findIdx?_eq_some_iff_getElem.mp found
      rw [shape?, List.getElem?_eq_getElem inside]
      exact congrArg some (eq_of_beq same)
  | none => exact .inr ⟨List.idxOf?_eq_none_iff.mp found, rfl⟩

theorem extends_intern (graph : TypeGraph) (shape : TypeShape) :
    graph.Extends (intern shape graph).2 := by
  rcases intern_cases graph shape with ⟨_, same, _⟩ | ⟨_, same⟩
  · rw [same]
    exact .refl graph
  · rw [same]
    exact ⟨[shape], rfl⟩

theorem shape?_intern (graph : TypeGraph) (shape : TypeShape) :
    (intern shape graph).2.shape? (intern shape graph).1 = some shape := by
  rcases intern_cases graph shape with ⟨id, same, found⟩ | ⟨_, same⟩
  · rw [same]
    exact found
  · rw [same]
    exact List.getElem?_concat_length

/-- Adding a shape keeps a graph well-formed if its parameters are there. -/
theorem WellFormed.add {graph : TypeGraph} (wellFormed : graph.WellFormed) {shape : TypeShape}
    {users : List UserType} (fresh : shape ∉ graph.shapes)
    (parameters_inside : ∀ parameter ∈ shape.parameters, parameter.index < graph.size)
    (users_at : ∀ (index : Nat) (user : UserType), users[index]? = some user →
      (graph.shape? user.id = some (.user index) ∨
        user.id.index = graph.size ∧ shape = .user index))
    (enough : ∀ index, (∃ id, graph.shape? id = some (.user index)) ∨ shape = .user index →
      index < users.length) :
    WellFormed { shapes := graph.shapes ++ [shape], users } := by
  have extension : graph.Extends { shapes := graph.shapes ++ [shape], users } :=
    ⟨[shape], rfl⟩
  have shape?_cases {id : TypeId} {other : TypeShape}
      (found : shape? { shapes := graph.shapes ++ [shape], users } id = some other) :
      graph.shape? id = some other ∨ id.index = graph.size ∧ other = shape := by
    rw [shape?] at found
    rcases Nat.lt_or_ge id.index graph.size with inside | outside
    · rw [List.getElem?_append_left inside] at found
      exact .inl found
    · have last := lt_size_of_shape? found
      have at_end : id.index = graph.size := by
        simp only [size, List.length_append, List.length_singleton] at last outside ⊢
        omega
      rw [at_end, size, List.getElem?_concat_length] at found
      exact .inr ⟨at_end, (Option.some.inj found).symm⟩
  have at_end : shape? { shapes := graph.shapes ++ [shape], users } ⟨graph.size⟩ = some shape :=
    List.getElem?_concat_length
  constructor
  case builtin => exact fun builtin => extension.shape? (wellFormed.builtin builtin)
  case invalid => exact extension.shape? wellFormed.invalid
  case nodup => simpa [List.nodup_append] using ⟨wellFormed.nodup, fun a member => by
    rintro rfl
    exact fresh member⟩
  case parameters =>
    intro id other found parameter member
    rcases shape?_cases found with old | ⟨last, rfl⟩
    · exact wellFormed.parameters id other old parameter member
    · exact last ▸ parameters_inside parameter member
  case user =>
    intro index user found
    rcases users_at index user found with old | ⟨last, same⟩
    · exact extension.shape? old
    · have id_eq : user.id = ⟨graph.size⟩ := by rw [← last]
      rw [id_eq, at_end, same]
  case declared =>
    intro id index found
    rcases shape?_cases found with old | ⟨_, same⟩
    · exact enough index (.inl ⟨id, old⟩)
    · exact enough index (.inr same.symm)

theorem wellFormed_initial : initial.WellFormed where
  builtin builtin := by cases builtin <;> rfl
  invalid := rfl
  nodup := by decide
  parameters id shape found := by
    have member := List.mem_of_getElem? found
    simp only [initial, List.mem_append, List.mem_map, List.mem_singleton] at member
    rcases member with ⟨_, _, rfl⟩ | rfl <;> simp
  user index user found := by simp [initial] at found
  declared id index found := by
    have member := List.mem_of_getElem? found
    simp [initial] at member

/-! ## Declaring -/

/-- A type is declared behind all others, unless its name is taken. -/
theorem declare_cases {graph : TypeGraph} (wellFormed : graph.WellFormed) (name : QualifiedName)
    (kind : UserTypeKind) (location : Location) (deprecated : Bool) :
    (∃ existing, graph.lookup name.file name.name = some existing ∧
      declare name kind location deprecated graph =
        (.error (.duplicateSymbol name.text existing), graph)) ∨
    (graph.lookup name.file name.name = none ∧
      declare name kind location deprecated graph =
        (.ok ⟨graph.size⟩,
          { shapes := graph.shapes ++ [.user graph.users.length],
            users := graph.users ++
              [⟨name, kind, location, deprecated, ⟨graph.size⟩, none, false⟩] })) := by
  have fresh : TypeShape.user graph.users.length ∉ graph.shapes := by
    intro member
    obtain ⟨index, found⟩ := List.getElem?_of_mem member
    exact Nat.lt_irrefl _ (wellFormed.declared ⟨index⟩ _ found)
  rw [declare]
  cases graph.lookup name.file name.name with
  | some existing => exact .inl ⟨existing, rfl, rfl⟩
  | none =>
      rcases intern_cases graph (.user graph.users.length) with ⟨id, _, found⟩ | ⟨_, added⟩
      · exact absurd (List.mem_of_getElem? found) fresh
      · exact .inr ⟨rfl, by simp only [added]⟩

theorem WellFormed.declared_type {graph : TypeGraph} (wellFormed : graph.WellFormed)
    {user : UserType} (last : user.id = ⟨graph.size⟩) :
    WellFormed
      { shapes := graph.shapes ++ [.user graph.users.length],
        users := graph.users ++ [user] } := by
  apply wellFormed.add
  · intro member
    obtain ⟨index, found⟩ := List.getElem?_of_mem member
    exact Nat.lt_irrefl _ (wellFormed.declared ⟨index⟩ _ found)
  · simp
  · intro index other found
    rcases Nat.lt_or_ge index graph.users.length with old | new
    · rw [List.getElem?_append_left old] at found
      exact .inl (wellFormed.user index other found)
    · have inside := (List.getElem?_eq_some_iff.mp found).1
      have at_end : index = graph.users.length := by
        rw [List.length_append, List.length_singleton] at inside
        omega
      subst at_end
      rw [List.getElem?_concat_length] at found
      exact .inr ⟨by rw [← Option.some.inj found, last], rfl⟩
  · rintro index (⟨id, found⟩ | same)
    · have := wellFormed.declared id index found
      rw [List.length_append]
      omega
    · rw [← TypeShape.user.inj same]
      simp

/-! ## Linking -/

end TypeGraph

namespace UserType

/-- What is known of a declared type before it is linked. -/
def declaration (user : UserType) : UserType :=
  { user with target? := none, resolved := false }

/-- Of a declared type, only its target and whether it is resolved can change. -/
structure Progress (touched : List TypeId) (before after : UserType) : Prop where
  declaration : after.declaration = before.declaration
  resolved : before.resolved = true → after.resolved = true
  target : before.id ∉ touched → after.target? = before.target?

namespace Progress

variable {touched : List TypeId} {a b c : UserType}

theorem id_eq (progress : Progress touched a b) : b.id = a.id := by
  have same := congrArg UserType.id progress.declaration
  exact same

theorem kind_eq (progress : Progress touched a b) : b.kind = a.kind := by
  have same := congrArg UserType.kind progress.declaration
  exact same

theorem refl (a : UserType) : Progress touched a a :=
  ⟨rfl, fun resolved => resolved, fun _ => rfl⟩

theorem trans (first : Progress touched a b) (second : Progress touched b c) :
    Progress touched a c where
  declaration := second.declaration.trans first.declaration
  resolved := second.resolved ∘ first.resolved
  target untouched :=
    (second.target (first.id_eq.symm ▸ untouched)).trans (first.target untouched)

theorem mono {more : List TypeId} (progress : Progress touched a b) (subset : touched ⊆ more) :
    Progress more a b where
  declaration := progress.declaration
  resolved := progress.resolved
  target untouched := progress.target fun member => untouched (subset member)

end Progress
end UserType

namespace TypeGraph

/--
Linking has taken one graph to another.  The typedefs that had their turn are listed; of all
others the target is the same as before.
-/
structure Grows (touched : List TypeId) (before after : TypeGraph) : Prop where
  extension : before.Extends after
  length : after.users.length = before.users.length
  progress : ∀ (index : Nat) (user : UserType), before.users[index]? = some user →
    ∃ user', after.users[index]? = some user' ∧ user.Progress touched user'

namespace Grows

variable {touched : List TypeId} {a b c : TypeGraph}

theorem refl (graph : TypeGraph) : Grows touched graph graph :=
  ⟨.refl graph, rfl, fun _ user found => ⟨user, found, .refl user⟩⟩

theorem trans (first : Grows touched a b) (second : Grows touched b c) : Grows touched a c where
  extension := first.extension.trans second.extension
  length := second.length.trans first.length
  progress index user found := by
    obtain ⟨user', found', progress⟩ := first.progress index user found
    obtain ⟨user'', found'', progress'⟩ := second.progress index user' found'
    exact ⟨user'', found'', progress.trans progress'⟩

theorem mono {more : List TypeId} (grows : Grows touched a b) (subset : touched ⊆ more) :
    Grows more a b where
  extension := grows.extension
  length := grows.length
  progress index user found := by
    obtain ⟨user', found', progress⟩ := grows.progress index user found
    exact ⟨user', found', progress.mono subset⟩

theorem user? (grows : Grows touched a b) {id : TypeId} {user : UserType}
    (found : a.user? id = some user) :
    ∃ user', b.user? id = some user' ∧ user.Progress touched user' := by
  rw [TypeGraph.user?] at found
  split at found
  · rename_i index at_id
    obtain ⟨user', found', progress⟩ := grows.progress index user found
    refine ⟨user', ?_, progress⟩
    rw [TypeGraph.user?, grows.extension.shape? at_id]
    exact found'
  · cases found

end Grows

/-- A declared type stands where its shape says. -/
theorem user?_eq_some_iff {graph : TypeGraph} {id : TypeId} {user : UserType} :
    graph.user? id = some user ↔
      ∃ index, graph.shape? id = some (.user index) ∧ graph.users[index]? = some user := by
  rw [user?]
  split
  · rename_i index found
    simp [found]
  · rename_i other
    simp only [false_iff, reduceCtorEq, not_exists, not_and]
    exact fun index found => absurd found (other index)

theorem WellFormed.id_of_user? {graph : TypeGraph} (wellFormed : graph.WellFormed) {id : TypeId}
    {user : UserType} (found : graph.user? id = some user) : user.id = id := by
  obtain ⟨index, at_id, at_index⟩ := user?_eq_some_iff.mp found
  exact wellFormed.shape?_inj (wellFormed.user index user at_index) at_id

theorem WellFormed.user?_of_mem {graph : TypeGraph} (wellFormed : graph.WellFormed)
    {user : UserType} (member : user ∈ graph.users) : graph.user? user.id = some user := by
  obtain ⟨index, found⟩ := List.getElem?_of_mem member
  exact user?_eq_some_iff.mpr ⟨index, wellFormed.user index user found, found⟩

theorem WellFormed.exists_user? {graph : TypeGraph} (wellFormed : graph.WellFormed) {id : TypeId}
    {index : Nat} (found : graph.shape? id = some (.user index)) :
    ∃ user, graph.user? id = some user := by
  have inside := wellFormed.declared id index found
  exact ⟨graph.users[index], user?_eq_some_iff.mpr ⟨index, found, List.getElem?_eq_getElem inside⟩⟩

/-- No type is declared by linking. -/
theorem Grows.exists_user?_before {touched : List TypeId} {before after : TypeGraph}
    (grows : Grows touched before after) (wellFormed : before.WellFormed)
    (wellFormed' : after.WellFormed) {id : TypeId} {user' : UserType}
    (found' : after.user? id = some user') :
    ∃ user, before.user? id = some user ∧ user.Progress touched user' := by
  obtain ⟨index, at_id, at_index⟩ := user?_eq_some_iff.mp found'
  have inside : index < before.users.length := by
    rw [← grows.length]
    exact (List.getElem?_eq_some_iff.mp at_index).1
  have at_before := List.getElem?_eq_getElem inside
  obtain ⟨user'', at_after, progress⟩ := grows.progress index _ at_before
  obtain rfl := Option.some.inj (at_index.symm.trans at_after)
  have id_eq : user'.id = id := wellFormed'.id_of_user? found'
  refine ⟨before.users[index], user?_eq_some_iff.mpr ⟨index, ?_, at_before⟩, progress⟩
  rw [← id_eq, progress.id_eq]
  exact wellFormed.user index _ at_before

/-- What is known of a declared type before it is linked is known of it all along. -/
theorem Grows.declaration_eq {touched : List TypeId} {before after : TypeGraph}
    (grows : Grows touched before after) (wellFormed : before.WellFormed)
    (wellFormed' : after.WellFormed) (id : TypeId) :
    (after.user? id).map (·.declaration) = (before.user? id).map (·.declaration) := by
  cases found : after.user? id with
  | some user' =>
      obtain ⟨user, found', progress⟩ := grows.exists_user?_before wellFormed wellFormed' found
      rw [found', Option.map_some, Option.map_some, progress.declaration]
  | none =>
      cases found' : before.user? id with
      | none => rfl
      | some user =>
          obtain ⟨user', later, _⟩ := grows.user? found'
          rw [found] at later
          cases later

theorem kind?_eq_declaration (graph : TypeGraph) (id : TypeId) :
    graph.kind? id = ((graph.user? id).map (·.declaration)).map (·.kind) := by
  rw [kind?, Option.map_map]
  rfl

/-- Linking changes no construct. -/
theorem Grows.kind?_eq {touched : List TypeId} {before after : TypeGraph}
    (grows : Grows touched before after) (wellFormed : before.WellFormed)
    (wellFormed' : after.WellFormed) (id : TypeId) : after.kind? id = before.kind? id := by
  rw [kind?_eq_declaration, kind?_eq_declaration, grows.declaration_eq wellFormed wellFormed' id]

/-- Linking changes no names. -/
theorem Grows.lookup_eq {touched : List TypeId} {before after : TypeGraph}
    (grows : Grows touched before after) : after.lookup = before.lookup := by
  have declarations : after.users.map (·.declaration) = before.users.map (·.declaration) := by
    refine List.ext_getElem (by simpa using grows.length) fun index inside inside' => ?_
    rw [List.length_map] at inside inside'
    obtain ⟨user', found', progress⟩ := grows.progress index _ (List.getElem?_eq_getElem inside')
    rw [List.getElem?_eq_getElem inside, Option.some.injEq] at found'
    rw [List.getElem_map, List.getElem_map, found', progress.declaration]
  have by_declaration (graph : TypeGraph) (file : FileId) (name : String) :
      graph.lookup file name = ((graph.users.map (·.declaration)).find? fun user =>
        user.name.file == file && user.name.name == name).map (·.id) := by
    rw [List.find?_map, Option.map_map]
    rfl
  funext file name
  rw [by_declaration, by_declaration, declarations]

/-- What is linked stays linked. -/
theorem Grows.isPending_eq_false {touched : List TypeId} {before after : TypeGraph}
    (grows : Grows touched before after) (wellFormed : before.WellFormed)
    (wellFormed' : after.WellFormed) {id : TypeId} (linked : before.isPending id = false) :
    after.isPending id = false := by
  rw [isPending] at linked ⊢
  cases found : after.user? id with
  | none => rfl
  | some user' =>
      obtain ⟨user, found', progress⟩ := grows.exists_user?_before wellFormed wellFormed' found
      rw [found', Option.any_some, Bool.not_eq_false'] at linked
      rw [Option.any_some, progress.resolved linked, Bool.not_true]

/-- Changing what is known of a declared type. -/
theorem WellFormed.modifyUser {graph : TypeGraph} (wellFormed : graph.WellFormed) (id : TypeId)
    {change : UserType → UserType} (keeps_id : ∀ user, (change user).id = user.id) :
    (graph.modifyUser id change).WellFormed := by
  rw [TypeGraph.modifyUser]
  split
  · rename_i index at_id
    refine ⟨wellFormed.builtin, wellFormed.invalid, wellFormed.nodup, wellFormed.parameters,
      fun index' user found => ?_, fun id' index' found => ?_⟩
    · rw [List.getElem?_modify] at found
      obtain ⟨user', found', same⟩ := Option.map_eq_some_iff.mp found
      have id_eq : user.id = user'.id := by
        rw [← same]
        split
        · exact keeps_id user'
        · rfl
      rw [id_eq]
      exact wellFormed.user index' user' found'
    · rw [List.length_modify]
      exact wellFormed.declared id' index' found
  · exact wellFormed

theorem WellFormed.grows_modifyUser {graph : TypeGraph} (wellFormed : graph.WellFormed)
    {touched : List TypeId} (id : TypeId) {change : UserType → UserType}
    (progress : ∀ user : UserType, user.id = id → user.Progress touched (change user)) :
    Grows touched graph (graph.modifyUser id change) := by
  rw [TypeGraph.modifyUser]
  split
  · rename_i index at_id
    refine ⟨.refl graph, List.length_modify .., fun index' user found => ?_⟩
    by_cases same : index = index'
    · subst same
      refine ⟨change user, by simp [found], progress user ?_⟩
      exact wellFormed.shape?_inj (wellFormed.user index user found) at_id
    · exact ⟨user, by simp [same, found], .refl user⟩
  · exact .refl graph

theorem extends_modifyUser (graph : TypeGraph) (id : TypeId) (change : UserType → UserType) :
    graph.Extends (graph.modifyUser id change) := by
  rw [modifyUser]
  split <;> exact .refl _

/-- A change of a declared type changes just the entry of that type. -/
theorem WellFormed.users_modifyUser {graph : TypeGraph} (wellFormed : graph.WellFormed) (id : TypeId)
    (change : UserType → UserType) : (graph.modifyUser id change).users =
      graph.users.map fun user => if user.id = id then change user else user := by
  rw [TypeGraph.modifyUser]
  split
  · rename_i index at_id
    refine List.ext_getElem? fun place => ?_
    rw [List.getElem?_modify, List.getElem?_map]
    cases found : graph.users[place]? with
    | none => simp
    | some user =>
        have at_user := wellFormed.user place user found
        by_cases here : index = place
        · have same : user.id = id := wellFormed.shape?_inj at_user (here ▸ at_id)
          simp [here, same]
        · have differ : user.id ≠ id := by
            rintro rfl
            exact here (TypeShape.user.inj (Option.some.inj (at_id.symm.trans at_user)))
          simp [here, differ]
  · rename_i no_user
    refine (List.map_id _).symm.trans (List.map_congr_left fun user member => ?_)
    have differ : user.id ≠ id := by
      rintro rfl
      obtain ⟨index, found⟩ := List.getElem?_of_mem member
      exact no_user index (wellFormed.user index user found)
    simp [differ]

/-- What no change of a declared type concerns stays the same of all. -/
theorem map_users_modifyUser {α : Type} (graph : TypeGraph) (id : TypeId)
    {change : UserType → UserType} {what : UserType → α}
    (keeps : ∀ user, what (change user) = what user) :
    (graph.modifyUser id change).users.map what = graph.users.map what := by
  rw [modifyUser]
  split
  · refine List.ext_getElem? fun index => ?_
    rw [List.getElem?_map, List.getElem?_map, List.getElem?_modify]
    cases graph.users[index]? with
    | none => rfl
    | some user =>
        rw [Option.map_eq_map, Option.map_some, Option.map_some]
        split
        · rw [Option.map_some, keeps]
        · rfl
  · rfl

theorem user?_modifyUser {graph : TypeGraph} {id : TypeId} {user : UserType}
    (found : graph.user? id = some user) (change : UserType → UserType) :
    (graph.modifyUser id change).user? id = some (change user) := by
  obtain ⟨index, at_id, at_index⟩ := user?_eq_some_iff.mp found
  rw [user?_eq_some_iff]
  exact ⟨index, by rw [modifyUser, at_id]; exact at_id, by rw [modifyUser, at_id]; simp [at_index]⟩

theorem modifyUser_of_none {graph : TypeGraph} {id : TypeId} (absent : graph.user? id = none)
    (change : UserType → UserType) : graph.modifyUser id change = graph := by
  rw [user?] at absent
  rw [modifyUser]
  split
  · rename_i index at_id
    simp only [at_id, List.getElem?_eq_none_iff] at absent
    rw [List.modify_eq_self absent]
  · rfl

/-! ## Adding expressions -/

/-- A type has been added, and it has a given expression. -/
structure Adds (before : TypeGraph) (expression : TypeExpression TypeId)
    (result : TypeId × TypeGraph) : Prop where
  wellFormed : result.2.WellFormed
  extension : before.Extends result.2
  users : result.2.users = before.users
  inside : result.1.index < result.2.size
  expression : result.2.expression result.1 = expression

namespace Adds

variable {before between : TypeGraph} {expression : TypeExpression TypeId}

theorem grows {result : TypeId × TypeGraph} (adds : before.Adds expression result)
    (touched : List TypeId) : Grows touched before result.2 :=
  ⟨adds.extension, by rw [adds.users], fun _ user found =>
    ⟨user, by rw [adds.users]; exact found, .refl user⟩⟩

end Adds

/-- The declared types of an expression are declared in a graph. -/
def Declares (graph : TypeGraph) (expression : TypeExpression TypeId) : Prop :=
  ∀ user ∈ expression.users, ∃ index, graph.shape? user = some (.user index)

theorem Declares.extends {before after : TypeGraph} {expression : TypeExpression TypeId}
    (declares : before.Declares expression) (extension : before.Extends after) :
    after.Declares expression := by
  intro user member
  obtain ⟨index, found⟩ := declares user member
  exact ⟨index, extension.shape? found⟩

/-- A shape is added without harm if what it refers to is there. -/
theorem WellFormed.interned {graph : TypeGraph} (wellFormed : graph.WellFormed) (shape : TypeShape)
    (parameters_inside : ∀ parameter ∈ shape.parameters, parameter.index < graph.size)
    (declared : ∀ index, shape = .user index → index < graph.users.length) :
    (intern shape graph).2.WellFormed ∧ graph.Extends (intern shape graph).2 ∧
      (intern shape graph).2.users = graph.users ∧
      (intern shape graph).2.shape? (intern shape graph).1 = some shape := by
  have kept : (intern shape graph).2.WellFormed ∧ (intern shape graph).2.users = graph.users := by
    rcases intern_cases graph shape with ⟨_, same, _⟩ | ⟨fresh, same⟩
    · rw [same]
      exact ⟨wellFormed, rfl⟩
    · rw [same]
      refine ⟨wellFormed.add fresh parameters_inside ?_ ?_, rfl⟩
      · exact fun index user found => .inl (wellFormed.user index user found)
      · rintro index (⟨id, found⟩ | same)
        · exact wellFormed.declared id index found
        · exact declared index same
  exact ⟨kept.1, extends_intern graph shape, kept.2, shape?_intern graph shape⟩

/-- Adding an expression gives a type with that expression. -/
theorem adds_internExpression {graph : TypeGraph} (wellFormed : graph.WellFormed)
    {expression : TypeExpression TypeId} (declares : graph.Declares expression) :
    graph.Adds expression (internExpression expression graph) := by
  induction expression generalizing graph with
  | builtin builtin =>
      have found := wellFormed.builtin builtin
      exact ⟨wellFormed, .refl graph, rfl, lt_size_of_shape? found, expression_builtin found⟩
  | list element induction =>
      have inner := induction wellFormed declares
      obtain ⟨wellFormed', extension, users, found⟩ := inner.wellFormed.interned
        (.list (internExpression element graph).1) (by simpa using inner.inside) (by simp)
      refine ⟨wellFormed', inner.extension.trans extension, users.trans inner.users,
        lt_size_of_shape? found, ?_⟩
      rw [internExpression]
      refine (wellFormed'.expression_list found).trans ?_
      rw [inner.wellFormed.expression_extends wellFormed' extension inner.inside, inner.expression]
  | set element induction =>
      have inner := induction wellFormed declares
      obtain ⟨wellFormed', extension, users, found⟩ := inner.wellFormed.interned
        (.set (internExpression element graph).1) (by simpa using inner.inside) (by simp)
      refine ⟨wellFormed', inner.extension.trans extension, users.trans inner.users,
        lt_size_of_shape? found, ?_⟩
      rw [internExpression]
      refine (wellFormed'.expression_set found).trans ?_
      rw [inner.wellFormed.expression_extends wellFormed' extension inner.inside, inner.expression]
  | map key value induction induction' =>
      have at_key := induction wellFormed fun user member =>
        declares user (List.mem_append_left _ member)
      have at_value := induction' at_key.wellFormed
        (Declares.extends (fun user member => declares user (List.mem_append_right _ member))
          at_key.extension)
      have key_inside := at_key.inside.trans_le at_value.extension.size_le
      obtain ⟨wellFormed', extension, users, found⟩ := at_value.wellFormed.interned
        (.map (internExpression key graph).1
          (internExpression value (internExpression key graph).2).1)
        (by simpa using ⟨key_inside, at_value.inside⟩) (by simp)
      refine ⟨wellFormed', at_key.extension.trans (at_value.extension.trans extension),
        users.trans (at_value.users.trans at_key.users), lt_size_of_shape? found, ?_⟩
      rw [internExpression]
      refine (wellFormed'.expression_map found).trans ?_
      rw [at_value.wellFormed.expression_extends wellFormed' extension key_inside,
        at_key.wellFormed.expression_extends at_value.wellFormed at_value.extension at_key.inside,
        at_value.wellFormed.expression_extends wellFormed' extension at_value.inside,
        at_key.expression, at_value.expression]
  | user user =>
      obtain ⟨index, found⟩ := declares user (by simp [TypeExpression.users])
      exact ⟨wellFormed, .refl graph, rfl, lt_size_of_shape? found, expression_user found⟩
  | invalid =>
      have found := wellFormed.invalid
      exact ⟨wellFormed, .refl graph, rfl, lt_size_of_shape? found, expression_invalid found⟩

end TypeGraph
end IdlSchema
