import IdlSchema.Proofs.Types.Histories
import IdlSchema.Proofs.Types.Parts
import IdlSchema.Proofs.Types.Unfoldings

/-!
# Consistent type graphs

Through every history of operations places and shapes stay inverse to one another, declared types
are known by file and name, and a type resolves once everything declared in it was marked.  The name
of a type and the answer whether it resolves are put together from those of its parameters, which
stand before it.
-/

namespace IdlSchema

namespace TypeShape

/-- The text of a shape, given the texts of its parameters and the name of a declared type. -/
def text (parameter : TypeId → String) (name : String) : TypeShape → String
  | builtin b => b.keyword
  | list element => "list<" ++ parameter element ++ ">"
  | set element => "set<" ++ parameter element ++ ">"
  | map key value => "map<" ++ parameter key ++ ", " ++ parameter value ++ ">"
  | user _ => name
  | invalid => "<invalid>"

end TypeShape

namespace TypeGraph

/-! ## Types and their shapes -/

section

variable {graph : TypeGraph}

theorem WellFormed.extends_run (wellFormed : graph.WellFormed) (operation : Operation) :
    graph.Extends (operation.run graph).2 := by
  cases operation with
  | intern shape => exact extends_intern graph shape
  | list element => exact extends_intern graph (.list element)
  | set element => exact extends_intern graph (.set element)
  | map key value => exact extends_intern graph (.map key value)
  | declare name kind location deprecated =>
      rcases declare_cases wellFormed name kind location deprecated with
        ⟨_, _, same⟩ | ⟨_, same⟩
      · exact (congrArg (fun result => graph.Extends result.2) same).mpr (.refl graph)
      · exact (congrArg (fun result => graph.Extends result.2) same).mpr ⟨_, rfl⟩
  | setTarget typedef target => exact extends_modifyUser graph typedef _
  | markResolved id => exact extends_modifyUser graph id _
  | lookup file name => exact .refl graph

theorem WellFormed.intern_again (wellFormed : graph.WellFormed) {id : TypeId} {shape : TypeShape}
    (found : graph.shape? id = some shape) : intern shape graph = (id, graph) := by
  rcases intern_cases graph shape with ⟨id', same, found'⟩ | ⟨fresh, _⟩
  · rw [same, wellFormed.shape?_inj found found']
  · exact absurd (List.mem_of_getElem? found) fresh

/-- Types are told apart by their shapes. -/
theorem WellFormed.eq_iff_shape?_eq (wellFormed : graph.WellFormed) {a b : TypeId}
    (a_inside : a.index < graph.size) : a = b ↔ graph.shape? a = graph.shape? b := by
  constructor
  · rintro rfl
    rfl
  · intro same
    obtain ⟨shape, found⟩ := exists_shape? a_inside
    exact wellFormed.shape?_inj found (same ▸ found)

/-- The name of a type is put together from the names of its parameters. -/
theorem WellFormed.typeName_eq (wellFormed : graph.WellFormed) {id : TypeId} {shape : TypeShape}
    (found : graph.shape? id = some shape) :
    graph.typeName id = shape.text graph.typeName (graph.userName id) := by
  unfold typeName
  cases shape with
  | builtin b => rw [expression_builtin found, TypeExpression.text, TypeShape.text]
  | list element => rw [wellFormed.expression_list found, TypeExpression.text, TypeShape.text]
  | set element => rw [wellFormed.expression_set found, TypeExpression.text, TypeShape.text]
  | map key value => rw [wellFormed.expression_map found, TypeExpression.text, TypeShape.text]
  | user index => rw [expression_user found, TypeExpression.text, TypeShape.text]
  | invalid => rw [expression_invalid found, TypeExpression.text, TypeShape.text]

/-- The failure to resolve one of some types: that of the first that waits for the linker. -/
def pendingFailure (graph : TypeGraph) (users : List TypeId) : Except TypeGraphError Unit :=
  match users.find? graph.isPending with
  | some pending => .error (.unresolvedType (graph.userName pending))
  | none => .ok ()

theorem pendingFailure_append (graph : TypeGraph) (users users' : List TypeId) :
    graph.pendingFailure (users ++ users') =
      (graph.pendingFailure users >>= fun _ => graph.pendingFailure users') := by
  unfold pendingFailure
  rw [List.find?_append]
  cases users.find? graph.isPending <;> rfl

theorem resolve_eq_pendingFailure {id : TypeId} {shape : TypeShape}
    (found : graph.shape? id = some shape) :
    graph.resolve id = (graph.pendingFailure (graph.expression id).users).map fun _ => shape := by
  rw [resolve, pendingFailure, found]
  cases (graph.expression id).users.find? graph.isPending <;> rfl

theorem isPending_eq_false_of_shape? {id : TypeId} {shape : TypeShape}
    (found : graph.shape? id = some shape) (no_user : ∀ index, shape ≠ .user index) :
    graph.isPending id = false := by
  have absent : graph.user? id = none := by
    rw [user?, found]
    cases shape <;> simp_all
  rw [isPending, absent]
  rfl

/-- A type is resolved by itself and then through its parameters, from left to right. -/
theorem WellFormed.resolve_eq (wellFormed : graph.WellFormed) {id : TypeId} {shape : TypeShape}
    (found : graph.shape? id = some shape) :
    graph.resolve id = (do
      if graph.isPending id then throw (.unresolvedType (graph.userName id))
      shape.parameters.forM fun parameter => discard (graph.resolve parameter)
      return shape) := by
  have below {parameter : TypeId} (member : parameter ∈ shape.parameters) :
      discard (graph.resolve parameter) =
        graph.pendingFailure (graph.expression parameter).users := by
    obtain ⟨inner, found'⟩ := exists_shape? (wellFormed.parameter_lt_size found member)
    rw [resolve_eq_pendingFailure found']
    cases graph.pendingFailure (graph.expression parameter).users <;> rfl
  have calm (no_user : ∀ index, shape ≠ .user index) := isPending_eq_false_of_shape? found no_user
  rw [resolve_eq_pendingFailure found]
  cases shape with
  | builtin b =>
      simp only [calm (by simp), Bool.false_eq_true, if_false, expression_builtin found]
      rfl
  | list element =>
      simp only [calm (by simp), Bool.false_eq_true, if_false, wellFormed.expression_list found,
        TypeShape.parameters, List.forM_eq_forM, List.forM_cons, List.forM_nil,
        below (List.mem_singleton_self _), TypeExpression.users]
      cases graph.pendingFailure (graph.expression element).users <;> rfl
  | set element =>
      simp only [calm (by simp), Bool.false_eq_true, if_false, wellFormed.expression_set found,
        TypeShape.parameters, List.forM_eq_forM, List.forM_cons, List.forM_nil,
        below (List.mem_singleton_self _), TypeExpression.users]
      cases graph.pendingFailure (graph.expression element).users <;> rfl
  | map key value =>
      simp only [calm (by simp), Bool.false_eq_true, if_false, wellFormed.expression_map found,
        TypeShape.parameters, List.forM_eq_forM, List.forM_cons, List.forM_nil,
        below List.mem_cons_self, below (List.mem_cons_of_mem _ (List.mem_singleton_self _)),
        TypeExpression.users, pendingFailure_append]
      cases graph.pendingFailure (graph.expression key).users with
      | error _ => rfl
      | ok _ => cases graph.pendingFailure (graph.expression value).users <;> rfl
  | user index =>
      rw [expression_user found, pendingFailure, TypeExpression.users, List.find?_singleton]
      cases graph.isPending id <;> rfl
  | invalid =>
      simp only [calm (by simp), Bool.false_eq_true, if_false, expression_invalid found]
      rfl

/-- What keeps a type from being resolved is a declared type in it that waits for the linker. -/
theorem WellFormed.exists_resolve_error_iff (wellFormed : graph.WellFormed) {id : TypeId}
    (inside : id.index < graph.size) :
    (∃ error, graph.resolve id = .error error) ↔
      ∃ user, graph.Part user id ∧ graph.isPending user = true := by
  have fails : (∃ error, graph.resolve id = .error error) ↔
      ∃ user ∈ (graph.expression id).users, graph.isPending user = true := by
    rw [← List.find?_isSome, resolve]
    cases (graph.expression id).users.find? graph.isPending <;> simp
  rw [fails]
  refine exists_congr fun user => and_congr_left fun pending => ?_
  obtain ⟨entry, found, _⟩ := Option.any_eq_true _ _ |>.mp pending
  obtain ⟨index, declared, _⟩ := user?_eq_some_iff.mp found
  exact wellFormed.mem_users_expression inside declared

theorem WellFormed.isPending_iff (wellFormed : graph.WellFormed) {id : TypeId} :
    graph.isPending id = true ↔ ∃ user ∈ graph.users, user.id = id ∧ user.resolved = false := by
  constructor
  · intro pending
    obtain ⟨user, found, unresolved⟩ := (Option.any_eq_true _ _).mp pending
    obtain ⟨index, _, at_index⟩ := user?_eq_some_iff.mp found
    exact ⟨user, List.mem_of_getElem? at_index, wellFormed.id_of_user? found, by simpa using unresolved⟩
  · rintro ⟨user, member, rfl, unresolved⟩
    rw [isPending, wellFormed.user?_of_mem member]
    simp [unresolved]

end

/-! ## After a history -/

/--
What holds of a graph after a history.  Places and shapes are inverse to one another for good, each
accepted declaration has one entry of its own, names are looked up by file and name alone, and a
type resolves just when every declared type in it was marked.
-/
structure Consistent (events : List (Operation × Outcome)) (graph : TypeGraph) : Prop where
  builtins : ∀ place builtin, Builtin.all[place]? = some builtin →
    graph.shape? ⟨place⟩ = some (.builtin builtin)
  placeholder : graph.shape? ⟨10⟩ = some .invalid
  lasting : ∀ earlier before, History earlier before → earlier <+: events →
    ∀ id shape, before.shape? id = some shape → graph.shape? id = some shape
  issued : ∀ operation id, (operation, Outcome.type id) ∈ events →
    ∃ shape, operation.shape? = some shape ∧ graph.shape? id = some shape
  identity : ∀ a b, a.index < graph.size → b.index < graph.size →
    (a = b ↔ graph.shape? a = graph.shape? b)
  injective : ∀ operation operation' id id', (operation, Outcome.type id) ∈ events →
    (operation', Outcome.type id') ∈ events → (id = id' ↔ operation.shape? = operation'.shape?)
  again : ∀ id shape, graph.shape? id = some shape → TypeGraph.intern shape graph = (id, graph)
  descending : ∀ id shape, graph.shape? id = some shape →
    ∀ parameter ∈ shape.parameters, parameter.index < id.index
  names : ∀ id shape, graph.shape? id = some shape →
    graph.typeName id = shape.text graph.typeName (graph.userName id)
  resolves : ∀ id shape, graph.shape? id = some shape →
    graph.resolve id = (do
      if graph.isPending id then throw (.unresolvedType (graph.userName id))
      shape.parameters.forM fun parameter => discard (graph.resolve parameter)
      return shape)
  waits : ∀ id, id.index < graph.size →
    ((∃ error, graph.resolve id = .error error) ↔
      ∃ user index, graph.Part user id ∧ graph.shape? user = some (.user index) ∧
        ∀ outcome, (Operation.markResolved user, outcome) ∉ events)
  entries : graph.users.map (fun user => (user.key, user.id)) = events.filterMap declared?
  entries_nodup : (graph.users.map (·.id)).Nodup
  lookup : ∀ file name id,
    graph.lookup file name = some id ↔ ((file, name), id) ∈ events.filterMap declared?
  declares : ∀ name kind location deprecated id after,
    TypeGraph.declare name kind location deprecated graph = (.ok id, after) →
    id = ⟨graph.size⟩ ∧ after.shapes = graph.shapes ++ [.user graph.users.length] ∧
      after.users = graph.users ++ [⟨name, kind, location, deprecated, id, none, false⟩]
  refuses : ∀ name kind location deprecated error after,
    TypeGraph.declare name kind location deprecated graph = (.error error, after) →
    after = graph ∧ ∃ first, error = .duplicateSymbol name.text first ∧
      FirstDeclared events (name.file, name.name) first

namespace History

variable {events earlier : List (Operation × Outcome)} {graph before : TypeGraph}

theorem extends_of_prefix (history : History events graph) (past : History earlier before)
    (front : earlier <+: events) : before.Extends graph := by
  induction history with
  | start =>
      obtain rfl := List.prefix_nil.mp front
      rw [past.graph_eq]
      exact .refl _
  | next operation history fits induction =>
      rcases List.prefix_concat_iff.mp front with rfl | shorter
      · rw [past.graph_eq, (history.next operation fits).graph_eq]
        exact .refl _
      · exact (induction shorter).trans (history.records.built.wellFormed.extends_run operation)

theorem lookup_eq_some_iff (history : History events graph) {file : FileId} {name : String}
    {id : TypeId} :
    graph.lookup file name = some id ↔ ((file, name), id) ∈ events.filterMap declared? := by
  rw [← history.records.users, lookup, Option.map_eq_some_iff, List.mem_map]
  constructor
  · rintro ⟨user, found, rfl⟩
    have keys := List.find?_some found
    simp only [Bool.and_eq_true, beq_iff_eq] at keys
    exact ⟨user, List.mem_of_find?_eq_some found, by rw [UserType.key, keys.1, keys.2]⟩
  · rintro ⟨user, member, same⟩
    simp only [Prod.mk.injEq, UserType.key] at same
    obtain ⟨⟨rfl, rfl⟩, rfl⟩ := same
    exact ⟨user, List.find?_of_nodup history.records.nodup member, rfl⟩

theorem exists_firstDeclared (history : History events graph) {file : FileId} {name : String}
    {id : TypeId} (found : graph.lookup file name = some id) :
    FirstDeclared events (file, name) id := by
  rw [history.lookup_eq_some_iff, ← history.records.users] at found
  obtain ⟨user, member, same⟩ := List.mem_map.mp found
  simp only [Prod.mk.injEq] at same
  exact same.1 ▸ same.2 ▸ history.records.first user member

/-- After every history of operations the graph is consistent. -/
theorem consistent (history : History events graph) : Consistent events graph := by
  have records := history.records
  have wellFormed := records.built.wellFormed
  constructor
  case builtins =>
    intro place builtin found
    have inside := (List.getElem?_eq_some_iff.mp found).1
    have index : place = builtin.index :=
      (List.getElem?_inj inside (by decide)).mp (found.trans (Builtin.getElem?_all builtin).symm)
    exact index ▸ wellFormed.builtin builtin
  case placeholder => exact wellFormed.invalid
  case lasting =>
    exact fun earlier before past front id shape => (history.extends_of_prefix past front).shape?
  case issued => exact records.asked
  case identity => exact fun a b a_inside _ => wellFormed.eq_iff_shape?_eq a_inside
  case injective =>
    intro operation operation' id id' event event'
    obtain ⟨shape, asks, found⟩ := records.asked operation id event
    obtain ⟨shape', asks', found'⟩ := records.asked operation' id' event'
    rw [wellFormed.eq_iff_shape?_eq (lt_size_of_shape? found), found, found', asks, asks']
  case again => exact fun id shape => wellFormed.intern_again
  case descending => exact wellFormed.parameters
  case names => exact fun id shape => wellFormed.typeName_eq
  case resolves => exact fun id shape => wellFormed.resolve_eq
  case waits =>
    intro id inside
    rw [wellFormed.exists_resolve_error_iff inside]
    refine exists_congr fun user => ?_
    rw [wellFormed.isPending_iff]
    constructor
    · rintro ⟨part, entry, member, rfl, unresolved⟩
      obtain ⟨index, found⟩ := List.getElem?_of_mem member
      refine ⟨index, part, wellFormed.user index entry found, fun outcome marked => ?_⟩
      simp [(records.resolved entry member).mpr ⟨outcome, marked⟩] at unresolved
    · rintro ⟨index, part, declared, unmarked⟩
      obtain ⟨entry, found⟩ := wellFormed.exists_user? declared
      obtain ⟨place, _, at_place⟩ := user?_eq_some_iff.mp found
      have member := List.mem_of_getElem? at_place
      have id_eq := wellFormed.id_of_user? found
      refine ⟨part, entry, member, id_eq, Bool.eq_false_iff.mpr fun resolved => ?_⟩
      obtain ⟨outcome, marked⟩ := (records.resolved entry member).mp resolved
      exact unmarked outcome (id_eq ▸ marked)
  case entries => exact records.users
  case entries_nodup => exact wellFormed.nodup_ids
  case lookup => exact fun file name id => history.lookup_eq_some_iff
  case declares =>
    intro name kind location deprecated id after declared
    rcases declare_cases wellFormed name kind location deprecated with
      ⟨_, _, same⟩ | ⟨_, same⟩
    · rw [same] at declared
      cases declared
    · rw [same] at declared
      cases declared
      exact ⟨rfl, rfl, rfl⟩
  case refuses =>
    intro name kind location deprecated error after refused
    rcases declare_cases wellFormed name kind location deprecated with
      ⟨existing, taken, same⟩ | ⟨_, same⟩
    · rw [same] at refused
      cases refused
      exact ⟨rfl, existing, rfl, history.exists_firstDeclared taken⟩
    · rw [same] at refused
      cases refused

end History

/-- A typedef for lists of itself is declared twice, linked, marked and looked up. -/
def nestedEvents : List (Operation × Outcome) :=
  let name : QualifiedName := { file := ⟨0⟩, qualifier := "", name := "Nested" }
  let again : QualifiedName := { file := ⟨0⟩, qualifier := "nested", name := "Nested" }
  let declare (name : QualifiedName) := Operation.declare name .typedef (.start "nested") false
  [(declare name, .declared (.ok ⟨11⟩)),
    (.list ⟨11⟩, .type ⟨12⟩),
    (declare again, .declared (.error (.duplicateSymbol "nested.Nested" ⟨11⟩))),
    (.setTarget ⟨11⟩ ⟨12⟩, .nothing),
    (.markResolved ⟨11⟩, .nothing),
    (.intern (.list ⟨11⟩), .type ⟨12⟩),
    (.lookup ⟨0⟩ "Nested", .found (some ⟨11⟩))]

theorem history_nestedEvents : History nestedEvents (nestedLists.markResolved ⟨11⟩) := by
  have declared := History.start.next (.declare ⟨⟨0⟩, "", "Nested"⟩ .typedef (.start "nested") false)
    trivial
  have listed := declared.next (.list ⟨11⟩) (show 11 < 12 by decide)
  have refused := listed.next
    (.declare ⟨⟨0⟩, "nested", "Nested"⟩ .typedef (.start "nested") false) trivial
  have targeted := refused.next (.setTarget ⟨11⟩ ⟨12⟩) ⟨by decide, by decide⟩
  have marked := targeted.next (.markResolved ⟨11⟩) (show 11 < 13 by decide)
  have again := marked.next (.intern (.list ⟨11⟩)) ⟨by decide, by simp⟩
  exact again.next (.lookup ⟨0⟩ "Nested") trivial

theorem consistent_nestedEvents :
    History nestedEvents (nestedLists.markResolved ⟨11⟩) ∧
      Consistent nestedEvents (nestedLists.markResolved ⟨11⟩) :=
  ⟨history_nestedEvents, History.consistent history_nestedEvents⟩

end TypeGraph
end IdlSchema
