import Mathlib.Tactic
import IdlSchema.Types.TypeGraph

/-!
# Well-formed type graphs

In a well-formed graph the built-in types and the placeholder have their fixed places, no shape is
kept twice, the parameters of a collection stand before it, and the declared types and their shapes
belong together.  There a type is known by its expression: adding shapes changes no expression,
different types have different expressions, and adding an expression gives a type that has it.
-/

namespace IdlSchema

namespace TypeShape

/-- The types that a collection is made of. -/
@[simp]
def parameters : TypeShape → List TypeId
  | builtin _ => []
  | list element => [element]
  | set element => [element]
  | map key value => [key, value]
  | user _ => []
  | invalid => []

end TypeShape

namespace TypeGraph

/-- What every graph satisfies that is built by declaring and adding types. -/
structure WellFormed (graph : TypeGraph) : Prop where
  builtin : ∀ builtin, graph.shape? (.ofBuiltin builtin) = some (.builtin builtin)
  invalid : graph.shape? .invalid = some .invalid
  nodup : graph.shapes.Nodup
  parameters : ∀ id shape, graph.shape? id = some shape →
    ∀ parameter ∈ shape.parameters, parameter.index < id.index
  user : ∀ (index : Nat) (user : UserType), graph.users[index]? = some user →
    graph.shape? user.id = some (.user index)
  declared : ∀ id index, graph.shape? id = some (.user index) → index < graph.users.length

/-- A graph keeps the shapes of another at their places. -/
def Extends (before after : TypeGraph) : Prop :=
  before.shapes <+: after.shapes

theorem Extends.refl (graph : TypeGraph) : graph.Extends graph :=
  List.prefix_rfl

theorem Extends.trans {a b c : TypeGraph} (first : a.Extends b) (second : b.Extends c) :
    a.Extends c :=
  List.IsPrefix.trans first second

theorem lt_size_of_shape? {graph : TypeGraph} {id : TypeId} {shape : TypeShape}
    (found : graph.shape? id = some shape) : id.index < graph.size :=
  (List.getElem?_eq_some_iff.mp found).1

theorem exists_shape? {graph : TypeGraph} {id : TypeId} (inside : id.index < graph.size) :
    ∃ shape, graph.shape? id = some shape :=
  ⟨graph.shapes[id.index], List.getElem?_eq_getElem inside⟩

namespace Extends

variable {before after : TypeGraph}

theorem shape? (extension : before.Extends after) {id : TypeId} {shape : TypeShape}
    (found : before.shape? id = some shape) : after.shape? id = some shape := by
  obtain ⟨more, same⟩ := extension
  rw [TypeGraph.shape?, ← same, List.getElem?_append_left (lt_size_of_shape? found)]
  exact found

theorem size_le (extension : before.Extends after) : before.size ≤ after.size :=
  List.IsPrefix.length_le extension

end Extends

/-- Where no shape is kept twice, a type is known by its shape. -/
theorem eq_of_shape? {graph : TypeGraph} (nodup : graph.shapes.Nodup) {a b : TypeId}
    {shape : TypeShape} (at_a : graph.shape? a = some shape) (at_b : graph.shape? b = some shape) :
    a = b := by
  have same : a.index = b.index :=
    (List.getElem?_inj (lt_size_of_shape? at_a) nodup).mp (at_a.trans at_b.symm)
  cases a
  cases b
  exact congrArg TypeId.mk same

/-! ## Expressions of types -/

namespace WellFormed

variable {graph : TypeGraph}

theorem shape?_inj (wellFormed : graph.WellFormed) {a b : TypeId} {shape : TypeShape}
    (at_a : graph.shape? a = some shape) (at_b : graph.shape? b = some shape) : a = b :=
  eq_of_shape? wellFormed.nodup at_a at_b

theorem parameter_lt_size (wellFormed : graph.WellFormed) {id parameter : TypeId}
    {shape : TypeShape} (found : graph.shape? id = some shape)
    (member : parameter ∈ shape.parameters) : parameter.index < graph.size :=
  (wellFormed.parameters id shape found parameter member).trans (lt_size_of_shape? found)

theorem builtin?_eq_some_iff (wellFormed : graph.WellFormed) {id : TypeId} {builtin : Builtin} :
    graph.builtin? id = some builtin ↔ id = .ofBuiltin builtin := by
  rw [builtin?]
  constructor
  · intro found
    split at found
    · rename_i at_id
      cases found
      exact wellFormed.shape?_inj at_id (wellFormed.builtin builtin)
    · cases found
  · rintro rfl
    rw [wellFormed.builtin builtin]

theorem expression_list (wellFormed : graph.WellFormed) {id element : TypeId}
    (found : graph.shape? id = some (.list element)) :
    graph.expression id = .list (graph.expression element) := by
  have before := wellFormed.parameters id _ found element (by simp)
  rw [expression, found]
  simp [before]

theorem expression_set (wellFormed : graph.WellFormed) {id element : TypeId}
    (found : graph.shape? id = some (.set element)) :
    graph.expression id = .set (graph.expression element) := by
  have before := wellFormed.parameters id _ found element (by simp)
  rw [expression, found]
  simp [before]

theorem expression_map (wellFormed : graph.WellFormed) {id key value : TypeId}
    (found : graph.shape? id = some (.map key value)) :
    graph.expression id = .map (graph.expression key) (graph.expression value) := by
  have key_before := wellFormed.parameters id _ found key (by simp)
  have value_before := wellFormed.parameters id _ found value (by simp)
  rw [expression, found]
  simp [key_before, value_before]

end WellFormed

theorem expression_builtin {graph : TypeGraph} {id : TypeId} {builtin : Builtin}
    (found : graph.shape? id = some (.builtin builtin)) :
    graph.expression id = .builtin builtin := by
  rw [expression, found]

theorem expression_user {graph : TypeGraph} {id : TypeId} {index : Nat}
    (found : graph.shape? id = some (.user index)) : graph.expression id = .user id := by
  rw [expression, found]

theorem expression_invalid {graph : TypeGraph} {id : TypeId}
    (found : graph.shape? id = some .invalid) : graph.expression id = .invalid := by
  rw [expression, found]

/-- How a shape and the expression of a type with that shape go together. -/
theorem WellFormed.shape?_cases {graph : TypeGraph} (wellFormed : graph.WellFormed) {id : TypeId}
    (inside : id.index < graph.size) :
    (∃ builtin, id = .ofBuiltin builtin ∧ graph.expression id = .builtin builtin ∧
      graph.shape? id = some (.builtin builtin)) ∨
    (∃ element, graph.shape? id = some (.list element) ∧
      graph.expression id = .list (graph.expression element)) ∨
    (∃ element, graph.shape? id = some (.set element) ∧
      graph.expression id = .set (graph.expression element)) ∨
    (∃ key value, graph.shape? id = some (.map key value) ∧
      graph.expression id = .map (graph.expression key) (graph.expression value)) ∨
    (∃ index, graph.shape? id = some (.user index) ∧ graph.expression id = .user id) ∨
    (id = .invalid ∧ graph.expression id = .invalid) := by
  obtain ⟨shape, found⟩ := exists_shape? inside
  cases shape with
  | builtin builtin =>
      exact .inl ⟨builtin, wellFormed.shape?_inj found (wellFormed.builtin builtin),
        expression_builtin found, found⟩
  | list element => exact .inr (.inl ⟨element, found, wellFormed.expression_list found⟩)
  | set element => exact .inr (.inr (.inl ⟨element, found, wellFormed.expression_set found⟩))
  | map key value =>
      exact .inr (.inr (.inr (.inl ⟨key, value, found, wellFormed.expression_map found⟩)))
  | user index => exact .inr (.inr (.inr (.inr (.inl ⟨index, found, expression_user found⟩))))
  | invalid =>
      exact .inr (.inr (.inr (.inr (.inr
        ⟨wellFormed.shape?_inj found wellFormed.invalid, expression_invalid found⟩))))

/-- More shapes do not change the expression of a type. -/
theorem WellFormed.expression_extends {before after : TypeGraph} (wellFormed : before.WellFormed)
    (wellFormed' : after.WellFormed) (extension : before.Extends after) {id : TypeId}
    (inside : id.index < before.size) : after.expression id = before.expression id := by
  induction h : id.index using Nat.strong_induction_on generalizing id with
  | _ index induction =>
      have below {parameter : TypeId} {shape : TypeShape}
          (found : before.shape? id = some shape) (member : parameter ∈ shape.parameters) :
          after.expression parameter = before.expression parameter := by
        have lt := wellFormed.parameters id shape found parameter member
        exact induction _ (h ▸ lt) (lt.trans inside) rfl
      obtain ⟨shape, found⟩ := exists_shape? inside
      have found' := extension.shape? found
      cases shape with
      | builtin builtin => rw [expression_builtin found, expression_builtin found']
      | list element =>
          rw [wellFormed.expression_list found, wellFormed'.expression_list found',
            below found (by simp)]
      | set element =>
          rw [wellFormed.expression_set found, wellFormed'.expression_set found',
            below found (by simp)]
      | map key value =>
          rw [wellFormed.expression_map found, wellFormed'.expression_map found',
            below found (by simp),
            below found (by simp)]
      | user index => rw [expression_user found, expression_user found']
      | invalid => rw [expression_invalid found, expression_invalid found']

section

variable {graph : TypeGraph} {id : TypeId}

theorem WellFormed.eq_of_expression_builtin (wellFormed : graph.WellFormed)
    (inside : id.index < graph.size) {builtin : Builtin}
    (same : graph.expression id = .builtin builtin) : id = .ofBuiltin builtin := by
  rcases wellFormed.shape?_cases inside with
    ⟨_, rfl, at_id, _⟩ | ⟨_, _, at_id⟩ | ⟨_, _, at_id⟩ | ⟨_, _, _, at_id⟩ | ⟨_, _, at_id⟩ |
      ⟨_, at_id⟩ <;> rw [at_id] at same <;> cases same
  rfl

theorem WellFormed.shape?_of_expression_list (wellFormed : graph.WellFormed)
    (inside : id.index < graph.size) {inner : TypeExpression TypeId}
    (same : graph.expression id = .list inner) :
    ∃ element, graph.shape? id = some (.list element) ∧ graph.expression element = inner := by
  rcases wellFormed.shape?_cases inside with
    ⟨_, _, at_id, _⟩ | ⟨element, found, at_id⟩ | ⟨_, _, at_id⟩ | ⟨_, _, _, at_id⟩ |
      ⟨_, _, at_id⟩ | ⟨_, at_id⟩ <;> rw [at_id] at same <;> cases same
  exact ⟨element, found, rfl⟩

theorem WellFormed.shape?_of_expression_set (wellFormed : graph.WellFormed)
    (inside : id.index < graph.size) {inner : TypeExpression TypeId}
    (same : graph.expression id = .set inner) :
    ∃ element, graph.shape? id = some (.set element) ∧ graph.expression element = inner := by
  rcases wellFormed.shape?_cases inside with
    ⟨_, _, at_id, _⟩ | ⟨_, _, at_id⟩ | ⟨element, found, at_id⟩ | ⟨_, _, _, at_id⟩ |
      ⟨_, _, at_id⟩ | ⟨_, at_id⟩ <;> rw [at_id] at same <;> cases same
  exact ⟨element, found, rfl⟩

theorem WellFormed.shape?_of_expression_map (wellFormed : graph.WellFormed)
    (inside : id.index < graph.size) {inner inner' : TypeExpression TypeId}
    (same : graph.expression id = .map inner inner') :
    ∃ key value, graph.shape? id = some (.map key value) ∧ graph.expression key = inner ∧
      graph.expression value = inner' := by
  rcases wellFormed.shape?_cases inside with
    ⟨_, _, at_id, _⟩ | ⟨_, _, at_id⟩ | ⟨_, _, at_id⟩ | ⟨key, value, found, at_id⟩ |
      ⟨_, _, at_id⟩ | ⟨_, at_id⟩ <;> rw [at_id] at same <;> cases same
  exact ⟨key, value, found, rfl, rfl⟩

theorem WellFormed.eq_of_expression_user (wellFormed : graph.WellFormed)
    (inside : id.index < graph.size) {user : TypeId} (same : graph.expression id = .user user) :
    id = user ∧ ∃ index, graph.shape? id = some (.user index) := by
  rcases wellFormed.shape?_cases inside with
    ⟨_, _, at_id, _⟩ | ⟨_, _, at_id⟩ | ⟨_, _, at_id⟩ | ⟨_, _, _, at_id⟩ | ⟨index, found, at_id⟩ |
      ⟨_, at_id⟩ <;> rw [at_id] at same <;> cases same
  exact ⟨rfl, index, found⟩

theorem WellFormed.eq_of_expression_invalid (wellFormed : graph.WellFormed)
    (inside : id.index < graph.size) (same : graph.expression id = .invalid) : id = .invalid := by
  rcases wellFormed.shape?_cases inside with
    ⟨_, _, at_id, _⟩ | ⟨_, _, at_id⟩ | ⟨_, _, at_id⟩ | ⟨_, _, _, at_id⟩ | ⟨_, _, at_id⟩ |
      ⟨is_invalid, _⟩
  case inr.inr.inr.inr.inr => exact is_invalid
  all_goals rw [at_id] at same; cases same

end

/-- Different types have different expressions. -/
theorem WellFormed.expression_inj {graph : TypeGraph} (wellFormed : graph.WellFormed)
    {a b : TypeId} (a_inside : a.index < graph.size) (b_inside : b.index < graph.size)
    (same : graph.expression a = graph.expression b) : a = b := by
  generalize at_b : graph.expression b = expression at same
  induction expression generalizing a b with
  | builtin builtin =>
      rw [wellFormed.eq_of_expression_builtin a_inside same,
        wellFormed.eq_of_expression_builtin b_inside at_b]
  | list inner induction =>
      obtain ⟨element, found, at_element⟩ := wellFormed.shape?_of_expression_list a_inside same
      obtain ⟨element', found', at_element'⟩ := wellFormed.shape?_of_expression_list b_inside at_b
      obtain rfl : element = element' :=
        induction (wellFormed.parameter_lt_size found (by simp))
          (wellFormed.parameter_lt_size found' (by simp)) at_element' at_element
      exact wellFormed.shape?_inj found found'
  | set inner induction =>
      obtain ⟨element, found, at_element⟩ := wellFormed.shape?_of_expression_set a_inside same
      obtain ⟨element', found', at_element'⟩ := wellFormed.shape?_of_expression_set b_inside at_b
      obtain rfl : element = element' :=
        induction (wellFormed.parameter_lt_size found (by simp))
          (wellFormed.parameter_lt_size found' (by simp)) at_element' at_element
      exact wellFormed.shape?_inj found found'
  | map inner inner' induction induction' =>
      obtain ⟨key, value, found, at_key, at_value⟩ :=
        wellFormed.shape?_of_expression_map a_inside same
      obtain ⟨key', value', found', at_key', at_value'⟩ :=
        wellFormed.shape?_of_expression_map b_inside at_b
      obtain rfl : key = key' :=
        induction (wellFormed.parameter_lt_size found (by simp))
          (wellFormed.parameter_lt_size found' (by simp)) at_key' at_key
      obtain rfl : value = value' :=
        induction' (wellFormed.parameter_lt_size found (by simp))
          (wellFormed.parameter_lt_size found' (by simp)) at_value' at_value
      exact wellFormed.shape?_inj found found'
  | user user =>
      rw [(wellFormed.eq_of_expression_user a_inside same).1,
        (wellFormed.eq_of_expression_user b_inside at_b).1]
  | invalid =>
      rw [wellFormed.eq_of_expression_invalid a_inside same,
        wellFormed.eq_of_expression_invalid b_inside at_b]

end TypeGraph
end IdlSchema
