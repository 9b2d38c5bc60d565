import IdlSchema.Proofs.Link.TypeNames
import IdlSchema.Proofs.Types.SameType

/-!
# What types denote

The place of a declared type depends on when it was declared; its file and its name do not.  Read
over files and names, a type denotes an expression that says nothing of places.  Where declared
types have names of their own, no two types denote the same.
-/

namespace IdlSchema

namespace TypeExpression

variable {ι κ : Type} {name : ι → κ}

/-- An expression over other identities of the declared types. -/
def renamed (name : ι → κ) : TypeExpression ι → TypeExpression κ
  | builtin b => builtin b
  | list element => list (element.renamed name)
  | set element => set (element.renamed name)
  | map key value => map (key.renamed name) (value.renamed name)
  | user identity => user (name identity)
  | invalid => invalid

theorem renamed_congr {name' : ι → κ} {expression : TypeExpression ι}
    (same : ∀ user ∈ expression.users, name' user = name user) :
    expression.renamed name' = expression.renamed name := by
  induction expression with
  | builtin _ => rfl
  | list _ induction => rw [renamed, renamed, induction same]
  | set _ induction => rw [renamed, renamed, induction same]
  | map _ _ induction induction' =>
      rw [renamed, renamed, induction fun user member => same user (List.mem_append_left _ member),
        induction' fun user member => same user (List.mem_append_right _ member)]
  | user identity => rw [renamed, renamed, same identity (List.mem_singleton_self _)]
  | invalid => rfl

/-- Expressions that differ still differ if the declared types in them are told apart. -/
theorem renamed_inj {a b : TypeExpression ι}
    (apart : ∀ user ∈ a.users, ∀ user' ∈ b.users, name user = name user' → user = user')
    (same : a.renamed name = b.renamed name) : a = b := by
  induction a generalizing b with
  | builtin _ => cases b <;> simp_all [renamed]
  | list element induction =>
      cases b with
      | list element' =>
          rw [renamed, renamed] at same
          rw [induction (b := element') apart (list.inj same)]
      | _ => cases same
  | set element induction =>
      cases b with
      | set element' =>
          rw [renamed, renamed] at same
          rw [induction (b := element') apart (set.inj same)]
      | _ => cases same
  | map key value induction induction' =>
      cases b with
      | map key' value' =>
          obtain ⟨same_key, same_value⟩ := map.inj same
          rw [induction (fun user member user' member' => apart user
              (List.mem_append_left _ member) user' (List.mem_append_left _ member')) same_key,
            induction' (fun user member user' member' => apart user
              (List.mem_append_right _ member) user' (List.mem_append_right _ member')) same_value]
      | _ => cases same
  | user identity =>
      cases b with
      | user identity' =>
          rw [apart identity (List.mem_singleton_self _) identity' (List.mem_singleton_self _)
            (user.inj same)]
      | _ => cases same
  | invalid => cases b <;> simp_all [renamed]

end TypeExpression

namespace UserType

/-- What is written of a declared type, wherever it stands and whatever it stands for. -/
def written (user : UserType) : UserType :=
  { user.declaration with id := .invalid }

theorem key_eq_of_written {user user' : UserType} (same : user'.written = user.written) :
    user'.key = user.key :=
  congrArg (fun user => user.key) same

theorem kind_eq_of_written {user user' : UserType} (same : user'.written = user.written) :
    user'.kind = user.kind :=
  congrArg (fun user => user.kind) same

theorem Progress.written_eq {touched : List TypeId} {before after : UserType}
    (progress : before.Progress touched after) : after.written = before.written :=
  congrArg (fun user => { user with id := .invalid }) progress.declaration

end UserType

namespace TypeGraph

variable {graph : TypeGraph} {a b : TypeId}

/-- The file and the name of the declared type at a place. -/
def key (graph : TypeGraph) (id : TypeId) : FileId × String :=
  ((graph.user? id).map (·.key)).getD default

/-- What a type denotes, over the files and names of declared types. -/
def reading (graph : TypeGraph) (id : TypeId) : TypeExpression (FileId × String) :=
  (graph.expression id).renamed graph.key

theorem key_of_user? {user : UserType} (found : graph.user? a = some user) :
    graph.key a = user.key := by
  rw [key, found, Option.map_some, Option.getD_some]

/-- The declared types in the expression of a type are declared. -/
theorem WellFormed.exists_user?_of_mem (wellFormed : graph.WellFormed)
    (inside : a.index < graph.size) (member : b ∈ (graph.expression a).users) :
    ∃ user, graph.user? b = some user := by
  generalize at_a : graph.expression a = expression at member
  induction expression generalizing a with
  | builtin _ => exact absurd member List.not_mem_nil
  | list element induction =>
      obtain ⟨x, found, at_x⟩ := wellFormed.shape?_of_expression_list inside at_a
      exact induction (wellFormed.parameter_lt_size found (by simp)) at_x member
  | set element induction =>
      obtain ⟨x, found, at_x⟩ := wellFormed.shape?_of_expression_set inside at_a
      exact induction (wellFormed.parameter_lt_size found (by simp)) at_x member
  | map key value induction induction' =>
      obtain ⟨x, y, found, at_x, at_y⟩ := wellFormed.shape?_of_expression_map inside at_a
      rcases List.mem_append.mp member with at_key | at_value
      · exact induction (wellFormed.parameter_lt_size found (by simp)) at_x at_key
      · exact induction' (wellFormed.parameter_lt_size found (by simp)) at_y at_value
  | user identity =>
      obtain ⟨rfl, index, found⟩ := wellFormed.eq_of_expression_user inside at_a
      exact List.mem_singleton.mp member ▸ wellFormed.exists_user? found
  | invalid => exact absurd member List.not_mem_nil

/-- Where declared types have names of their own, types that read the same are the same. -/
theorem WellFormed.reading_inj (wellFormed : graph.WellFormed)
    (nodup : (graph.users.map (·.key)).Nodup) (inside : a.index < graph.size)
    (inside' : b.index < graph.size) (same : graph.reading a = graph.reading b) : a = b := by
  refine wellFormed.expression_inj inside inside' (TypeExpression.renamed_inj ?_ same)
  intro x member y member' same_key
  obtain ⟨user, found⟩ := wellFormed.exists_user?_of_mem inside member
  obtain ⟨user', found'⟩ := wellFormed.exists_user?_of_mem inside' member'
  rw [key_of_user? found, key_of_user? found'] at same_key
  obtain ⟨index, at_shape, at_index⟩ := user?_eq_some_iff.mp found
  obtain ⟨index', at_shape', at_index'⟩ := user?_eq_some_iff.mp found'
  have same_user := List.inj_on_of_nodup_map nodup (List.mem_of_getElem? at_index)
    (List.mem_of_getElem? at_index') same_key
  rw [← wellFormed.id_of_user? found, ← wellFormed.id_of_user? found', same_user]

/-- What a type of a given shape denotes. -/
def shapeReading (graph : TypeGraph) (id : TypeId) : TypeShape → TypeExpression (FileId × String)
  | .builtin builtin => .builtin builtin
  | .list element => .list (graph.reading element)
  | .set element => .set (graph.reading element)
  | .map key value => .map (graph.reading key) (graph.reading value)
  | .user _ => .user (graph.key id)
  | .invalid => .invalid

theorem WellFormed.reading_eq (wellFormed : graph.WellFormed) {shape : TypeShape}
    (found : graph.shape? a = some shape) : graph.reading a = graph.shapeReading a shape := by
  rw [reading]
  cases shape with
  | builtin _ => rw [expression_builtin found]; rfl
  | list _ => rw [wellFormed.expression_list found]; rfl
  | set _ => rw [wellFormed.expression_set found]; rfl
  | map _ _ => rw [wellFormed.expression_map found]; rfl
  | user _ => rw [expression_user found]; rfl
  | invalid => rw [expression_invalid found]; rfl

/-- A declared type reads as its name in its file. -/
theorem WellFormed.reading_of_mem (wellFormed : graph.WellFormed) {user : UserType}
    (listed : user ∈ graph.users) :
    user.id.index < graph.size ∧ graph.reading user.id = .user user.key := by
  have found := wellFormed.user?_of_mem listed
  obtain ⟨index, at_shape, _⟩ := user?_eq_some_iff.mp found
  refine ⟨lt_size_of_shape? at_shape, ?_⟩
  rw [wellFormed.reading_eq at_shape, shapeReading, key_of_user? found]

theorem WellFormed.reading_eq_invalid_iff (wellFormed : graph.WellFormed)
    (inside : a.index < graph.size) : graph.reading a = .invalid ↔ a = .invalid := by
  constructor
  · intro reads
    obtain ⟨shape, found⟩ := exists_shape? inside
    rw [wellFormed.reading_eq found] at reads
    cases shape <;> cases reads
    exact wellFormed.shape?_inj found wellFormed.invalid
  · rintro rfl
    exact wellFormed.reading_eq wellFormed.invalid

end TypeGraph
end IdlSchema
