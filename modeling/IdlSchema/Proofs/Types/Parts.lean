import IdlSchema.Proofs.Link.References
import IdlSchema.Proofs.Types.TrueType

/-!
# The types that a type is made of

The parameters of a collection stand in the graph as types of their own.  What is below a type there
is below it in its expression, so a type that stands for a written reference is made of what the
reference is made of.
-/

namespace IdlSchema

namespace TypeExpression

variable {ι : Type}

theorem mem_parts_trans {a b c : TypeExpression ι} (first : a ∈ b.parts) (second : b ∈ c.parts) :
    a ∈ c.parts := by
  induction c with
  | builtin _ => exact absurd second List.not_mem_nil
  | list element induction =>
      rcases List.mem_cons.mp second with rfl | below
      · exact List.mem_cons_of_mem _ first
      · exact List.mem_cons_of_mem _ (induction below)
  | set element induction =>
      rcases List.mem_cons.mp second with rfl | below
      · exact List.mem_cons_of_mem _ first
      · exact List.mem_cons_of_mem _ (induction below)
  | map key value induction induction' =>
      rcases List.mem_append.mp second with at_key | at_value
      · refine List.mem_append_left _ ?_
        rcases List.mem_cons.mp at_key with rfl | below
        · exact List.mem_cons_of_mem _ first
        · exact List.mem_cons_of_mem _ (induction below)
      · refine List.mem_append_right _ ?_
        rcases List.mem_cons.mp at_value with rfl | below
        · exact List.mem_cons_of_mem _ first
        · exact List.mem_cons_of_mem _ (induction' below)
  | user _ => exact absurd second List.not_mem_nil
  | invalid => exact absurd second List.not_mem_nil

end TypeExpression

namespace TypeGraph

/-- A type is the element of a collection, or its key or its value. -/
def Parameter (graph : TypeGraph) (part whole : TypeId) : Prop :=
  ∃ shape, graph.shape? whole = some shape ∧ part ∈ shape.parameters

/-- A type is another one or below it, at any depth. -/
def Part (graph : TypeGraph) : TypeId → TypeId → Prop :=
  Relation.ReflTransGen graph.Parameter

/-- Neither void nor a service is met along the typedefs from a type. -/
def HasValues (graph : TypeGraph) (id : TypeId) : Prop :=
  ∀ actual, Relation.ReflTransGen graph.Alias id actual →
    actual ≠ .ofBuiltin .void ∧ graph.kind? actual ≠ some .service

variable {graph : TypeGraph} {part whole : TypeId}

theorem Parameter.lt_size (wellFormed : graph.WellFormed) (below : graph.Parameter part whole) :
    part.index < graph.size := by
  obtain ⟨shape, found, member⟩ := below
  exact wellFormed.parameter_lt_size found member

theorem WellFormed.lt_size_of_part (wellFormed : graph.WellFormed) (below : graph.Part part whole)
    (inside : whole.index < graph.size) : part.index < graph.size := by
  rcases Relation.ReflTransGen.cases_head below with rfl | ⟨_, step, _⟩
  · exact inside
  · exact step.lt_size wellFormed

theorem WellFormed.expression_mem_parts (wellFormed : graph.WellFormed)
    (below : graph.Parameter part whole) :
    graph.expression part ∈ (graph.expression whole).parts := by
  obtain ⟨shape, found, member⟩ := below
  cases shape with
  | builtin _ => exact absurd member List.not_mem_nil
  | list element =>
      rw [wellFormed.expression_list found, List.mem_singleton.mp member]
      exact List.mem_cons_self
  | set element =>
      rw [wellFormed.expression_set found, List.mem_singleton.mp member]
      exact List.mem_cons_self
  | map key value =>
      rw [wellFormed.expression_map found]
      rcases List.mem_cons.mp member with rfl | at_value
      · exact List.mem_append_left _ List.mem_cons_self
      · rw [List.mem_singleton.mp at_value]
        exact List.mem_append_right _ List.mem_cons_self
  | user _ => exact absurd member List.not_mem_nil
  | invalid => exact absurd member List.not_mem_nil

/-- What is below a type is below it in its expression. -/
theorem WellFormed.expression_mem_parts_of_transGen (wellFormed : graph.WellFormed)
    (below : Relation.TransGen graph.Parameter part whole) :
    graph.expression part ∈ (graph.expression whole).parts := by
  induction below with
  | single step => exact wellFormed.expression_mem_parts step
  | tail _ step induction =>
      exact TypeExpression.mem_parts_trans induction (wellFormed.expression_mem_parts step)

/-- A type is made of itself and of what its parameters are made of. -/
theorem part_iff {shape : TypeShape} (found : graph.shape? whole = some shape) :
    graph.Part part whole ↔
      part = whole ∨ ∃ parameter ∈ shape.parameters, graph.Part part parameter := by
  constructor
  · intro below
    rcases Relation.ReflTransGen.cases_tail below with same | ⟨parameter, inner, shape', found', member⟩
    · exact .inl same.symm
    · obtain rfl := Option.some.inj (found.symm.trans found')
      exact .inr ⟨parameter, member, inner⟩
  · rintro (rfl | ⟨parameter, member, below⟩)
    · exact .refl
    · exact below.tail ⟨shape, found, member⟩

/-- The declared types in the expression of a type are those that the type is made of. -/
theorem WellFormed.mem_users_expression (wellFormed : graph.WellFormed)
    (inside : whole.index < graph.size) {index : Nat}
    (declared : graph.shape? part = some (.user index)) :
    part ∈ (graph.expression whole).users ↔ graph.Part part whole := by
  induction h : whole.index using Nat.strong_induction_on generalizing whole with
  | _ place induction =>
      have below {shape : TypeShape} (found : graph.shape? whole = some shape) {parameter : TypeId}
          (member : parameter ∈ shape.parameters) :
          part ∈ (graph.expression parameter).users ↔ graph.Part part parameter :=
        induction _ (h ▸ wellFormed.parameters whole shape found parameter member)
          (wellFormed.parameter_lt_size found member) rfl
      have differ {shape : TypeShape} (found : graph.shape? whole = some shape)
          (no_user : ∀ index, shape ≠ .user index) : part ≠ whole := by
        rintro rfl
        exact no_user index (Option.some.inj (found.symm.trans declared))
      obtain ⟨shape, found⟩ := exists_shape? inside
      rw [part_iff found]
      cases shape with
      | builtin _ =>
          rw [expression_builtin found]
          simpa [TypeExpression.users] using differ found (by simp)
      | list element =>
          rw [wellFormed.expression_list found]
          simpa [TypeExpression.users, differ found] using below found (by simp)
      | set element =>
          rw [wellFormed.expression_set found]
          simpa [TypeExpression.users, differ found] using below found (by simp)
      | map key value =>
          rw [wellFormed.expression_map found]
          simpa [TypeExpression.users, differ found] using
            or_congr (below found (by simp)) (below found (by simp))
      | user _ =>
          rw [expression_user found]
          simp [TypeExpression.users]
      | invalid =>
          rw [expression_invalid found]
          simpa [TypeExpression.users] using differ found (by simp)

theorem WellFormed.ne_invalid_of_expression (wellFormed : graph.WellFormed) {id : TypeId}
    (valid : graph.expression id ≠ .invalid) : id ≠ .invalid := by
  rintro rfl
  exact valid (expression_invalid wellFormed.invalid)

/-- A type whose expression is storable is neither void nor a service. -/
theorem WellFormed.ne_void_of_storable (wellFormed : graph.WellFormed) {scope : Scope} {id : TypeId}
    (kinds : scope.graph.kind? id = graph.kind? id)
    (storable : scope.Storable (graph.expression id)) :
    id ≠ .ofBuiltin .void ∧ graph.kind? id ≠ some .service := by
  constructor
  · rintro rfl
    exact storable.1 (expression_builtin (wellFormed.builtin .void))
  · intro service
    obtain ⟨user, found, _⟩ := Option.map_eq_some_iff.mp service
    obtain ⟨index, at_shape, _⟩ := user?_eq_some_iff.mp found
    exact storable.2 id (expression_user at_shape) (kinds.trans service)

end TypeGraph
end IdlSchema
