import IdlSchema.Proofs.Constants.ClearChecks
import IdlSchema.Proofs.Types.SameType

/-!
# Values at types

A value is of a type if it has the form that the type asks for, with typedefs stripped at every level.
Types that are the same have the same values, as long as nothing has failed in them.
-/

namespace IdlSchema

open TypeGraph

/-- A value is of a type, with typedefs stripped at every level. -/
inductive ConstantValue.HasType {ν : Type} (model : Model ν) (graph : TypeGraph) :
    ConstantValue → TypeId → Prop where
  | bool {value : Bool} {id : TypeId} : graph.trueType id = some (.ofBuiltin .bool) →
      HasType model graph (.bool value) id
  | integer {value : Int64} {id : TypeId} {builtin : Builtin} {low high : Int} :
      graph.trueType id = some (.ofBuiltin builtin) → builtin.integerRange? = some (low, high) →
      low ≤ value.toInt → value.toInt ≤ high → HasType model graph (.integer value) id
  | double {value : Float} {id : TypeId} : graph.trueType id = some (.ofBuiltin .double) →
      HasType model graph (.double value) id
  | string {text : String} {id : TypeId} : graph.trueType id = some (.ofBuiltin .string) ∨
      graph.trueType id = some (.ofBuiltin .binary) → HasType model graph (.string text) id
  | enumMember {enum : EnumType} {member : EnumMember} {id : TypeId} :
      graph.trueType id = some enum.id → enum ∈ model.enums → member ∈ enum.members →
      HasType model graph (.enumMember enum.id member.name member.value) id
  | list {items : List ConstantValue} {id actual element : TypeId} :
      graph.trueType id = some actual →
      graph.shape? actual = some (.list element) ∨ graph.shape? actual = some (.set element) →
      (∀ item ∈ items, HasType model graph item element) → HasType model graph (.list items) id
  | map {entries : List (ConstantValue × ConstantValue)} {id actual key value : TypeId} :
      graph.trueType id = some actual → graph.shape? actual = some (.map key value) →
      (∀ entry ∈ entries, HasType model graph entry.1 key) →
      (∀ entry ∈ entries, HasType model graph entry.2 value) → HasType model graph (.map entries) id
  | struct {struct : StructType ν} {fields : List (String × ConstantValue)} {id : TypeId} :
      graph.trueType id = some struct.id → struct ∈ model.structs →
      (∀ entry ∈ fields, (struct.field? entry.1).isSome) →
      (∀ entry ∈ fields, ∀ field, struct.field? entry.1 = some field →
        HasType model graph entry.2 field.type) →
      HasType model graph (.struct fields) id

namespace ConstantValue.HasType

variable {ν : Type} {model : Model ν} {graph : TypeGraph} {value : ConstantValue} {a b : TypeId}

/-- Which values a type has depends on what is behind its typedefs alone. -/
theorem of_trueType (typed : value.HasType model graph a)
    (same : graph.trueType b = graph.trueType a) : value.HasType model graph b := by
  cases typed with
  | bool behind => exact .bool (same.trans behind)
  | integer behind range low high => exact .integer (same.trans behind) range low high
  | double behind => exact .double (same.trans behind)
  | string behind => exact .string (by rwa [same])
  | enumMember behind listed member => exact .enumMember (same.trans behind) listed member
  | list behind shape items => exact .list (same.trans behind) shape items
  | map behind shape keys values => exact .map (same.trans behind) shape keys values
  | struct behind listed named fields => exact .struct (same.trans behind) listed named fields

end ConstantValue.HasType

namespace TypeGraph

variable {graph : TypeGraph} {related : TypeId → TypeId → Prop} {a b : TypeId}

theorem WellFormed.parameters_ofBuiltin (wellFormed : graph.WellFormed) {builtin : Builtin}
    {shape : TypeShape} (found : graph.shape? (.ofBuiltin builtin) = some shape) :
    shape.parameters = [] := by
  rw [wellFormed.builtin builtin] at found
  cases found
  rfl

/-- A type without parameters agrees with itself alone, save for failures. -/
theorem Agrees.eq (agrees : graph.Agrees related a b) (wellFormed : graph.WellFormed)
    (valid : a ≠ .invalid) (valid' : b ≠ .invalid)
    (plain : ∀ shape, graph.shape? a = some shape → shape.parameters = []) : b = a := by
  cases agrees with
  | same => rfl
  | invalidLeft at_a => exact absurd (wellFormed.shape?_inj at_a wellFormed.invalid) valid
  | invalidRight at_b => exact absurd (wellFormed.shape?_inj at_b wellFormed.invalid) valid'
  | list at_a => exact absurd (plain _ at_a) (by simp [TypeShape.parameters])
  | set at_a => exact absurd (plain _ at_a) (by simp [TypeShape.parameters])
  | map at_a => exact absurd (plain _ at_a) (by simp [TypeShape.parameters])

theorem Agrees.exists_element (agrees : graph.Agrees graph.Same a b)
    (wellFormed : graph.WellFormed) (valid : a ≠ .invalid) (valid' : b ≠ .invalid) {x : TypeId}
    (at_a : graph.shape? a = some (.list x) ∨ graph.shape? a = some (.set x)) :
    ∃ y, (graph.shape? b = some (.list y) ∨ graph.shape? b = some (.set y)) ∧ graph.Same x y := by
  cases agrees with
  | same => exact ⟨x, at_a, .refl graph x⟩
  | invalidLeft failed => exact absurd (wellFormed.shape?_inj failed wellFormed.invalid) valid
  | invalidRight failed => exact absurd (wellFormed.shape?_inj failed wellFormed.invalid) valid'
  | list at_a' at_b inner =>
      rw [at_a'] at at_a
      rcases at_a with same | same
      · cases same
        exact ⟨_, .inl at_b, inner⟩
      · cases same
  | set at_a' at_b inner =>
      rw [at_a'] at at_a
      rcases at_a with same | same
      · cases same
      · cases same
        exact ⟨_, .inr at_b, inner⟩
  | map at_a' => rcases at_a with at_a | at_a <;> cases at_a'.symm.trans at_a

theorem Agrees.exists_entry (agrees : graph.Agrees graph.Same a b)
    (wellFormed : graph.WellFormed) (valid : a ≠ .invalid) (valid' : b ≠ .invalid)
    {x x' : TypeId} (at_a : graph.shape? a = some (.map x x')) :
    ∃ y y', graph.shape? b = some (.map y y') ∧ graph.Same x y ∧ graph.Same x' y' := by
  cases agrees with
  | same => exact ⟨x, x', at_a, .refl graph x, .refl graph x'⟩
  | invalidLeft failed => exact absurd (wellFormed.shape?_inj failed wellFormed.invalid) valid
  | invalidRight failed => exact absurd (wellFormed.shape?_inj failed wellFormed.invalid) valid'
  | list at_a' => cases at_a'.symm.trans at_a
  | set at_a' => cases at_a'.symm.trans at_a
  | map at_a' at_b key value =>
      cases at_a'.symm.trans at_a
      exact ⟨_, _, at_b, key, value⟩

end TypeGraph

namespace Model

/-- The types in a model are whole, and what it declares are types of that construct. -/
structure Whole {ν : Type} (model : Model ν) (graph : TypeGraph) : Prop where
  resolves : model.Resolves graph
  enumKind : ∀ enum ∈ model.enums, graph.kind? enum.id = some .enum
  structKind : ∀ struct ∈ model.structs, graph.kind? struct.id = some (.struct struct.kind)

namespace Whole

variable {ν : Type} {model : Model ν} {graph : TypeGraph} {a b actual : TypeId}

section

variable (whole : model.Whole graph) (same : graph.Same a b)
  (mentioned : model.Mentions graph a) (mentioned' : model.Mentions graph b)
  (behind : graph.trueType a = some actual)

include whole same mentioned mentioned' behind

/-- Behind types that are the same stand types that agree and have not failed. -/
theorem exists_agrees : ∃ actual', graph.trueType b = some actual' ∧
    graph.Agrees graph.Same actual actual' ∧ actual ≠ .invalid ∧ actual' ≠ .invalid := by
  have valid := whole.resolves.ne_invalid (whole.resolves.mentions_trueType mentioned behind)
  rcases same.matches with rfl | ⟨actual', actual'', behind', behind'', agrees⟩
  · exact ⟨actual, behind, .same actual, valid, valid⟩
  · obtain rfl := Option.some.inj (behind.symm.trans behind')
    have valid'' := whole.resolves.ne_invalid
      (whole.resolves.mentions_trueType mentioned' behind'')
    exact ⟨actual'', behind'', agrees, valid, valid''⟩

/-- A type without parameters is behind all types that are the same. -/
theorem trueType_eq (plain : ∀ shape, graph.shape? actual = some shape → shape.parameters = []) :
    graph.trueType b = some actual := by
  obtain ⟨actual', behind', agrees, valid, valid'⟩ :=
    whole.exists_agrees same mentioned mentioned' behind
  rw [behind', agrees.eq whole.resolves.wellFormed valid valid' plain]

theorem trueType_ofBuiltin {builtin : Builtin} (at_actual : actual = .ofBuiltin builtin) :
    graph.trueType b = some (.ofBuiltin builtin) := by
  subst at_actual
  exact whole.trueType_eq same mentioned mentioned' behind fun shape found =>
    whole.resolves.wellFormed.parameters_ofBuiltin found

end

/-- Types that are the same have the same values. -/
theorem hasType_of_same (whole : model.Whole graph) {value : ConstantValue}
    {a b : TypeId} (typed : value.HasType model graph a) (same : graph.Same a b)
    (mentioned : model.Mentions graph a) (mentioned' : model.Mentions graph b) :
    value.HasType model graph b := by
  have wellFormed := whole.resolves.wellFormed
  have below {id actual part : TypeId} (mentioned : model.Mentions graph id)
      (behind : graph.trueType id = some actual) (parameter : graph.Parameter part actual) :
      model.Mentions graph part :=
    Resolves.mentions_parameter parameter (whole.resolves.mentions_trueType mentioned behind)
  have element {actual part : TypeId} (shape : graph.shape? actual = some (.list part) ∨
      graph.shape? actual = some (.set part)) : graph.Parameter part actual :=
    shape.elim (fun found => ⟨_, found, List.mem_singleton_self _⟩)
      fun found => ⟨_, found, List.mem_singleton_self _⟩
  induction typed generalizing b with
  | bool behind => exact .bool (whole.trueType_ofBuiltin same mentioned mentioned' behind rfl)
  | integer behind range low high =>
      exact .integer (whole.trueType_ofBuiltin same mentioned mentioned' behind rfl) range low high
  | double behind => exact .double (whole.trueType_ofBuiltin same mentioned mentioned' behind rfl)
  | string behind =>
      exact .string (behind.imp
        (fun behind => whole.trueType_ofBuiltin same mentioned mentioned' behind rfl)
        fun behind => whole.trueType_ofBuiltin same mentioned mentioned' behind rfl)
  | @enumMember enum member id behind listed inside =>
      refine .enumMember (whole.trueType_eq same mentioned mentioned' behind fun _ => ?_) listed inside
      exact parameters_of_kind? (whole.enumKind enum listed)
  | list behind shape items induction =>
      obtain ⟨actual', behind', agrees, valid, valid'⟩ :=
        whole.exists_agrees same mentioned mentioned' behind
      obtain ⟨element', shape', same'⟩ := agrees.exists_element wellFormed valid valid' shape
      refine .list behind' shape' fun item member => ?_
      exact induction item member same' (below mentioned behind (element shape))
        (below mentioned' behind' (element shape'))
  | map behind shape keys values induction induction' =>
      obtain ⟨actual', behind', agrees, valid, valid'⟩ :=
        whole.exists_agrees same mentioned mentioned' behind
      obtain ⟨key', value', shape', same_key, same_value⟩ :=
        agrees.exists_entry wellFormed valid valid' shape
      have first {id actual key value : TypeId} (mentioned : model.Mentions graph id)
          (behind : graph.trueType id = some actual)
          (shape : graph.shape? actual = some (.map key value)) : model.Mentions graph key :=
        below mentioned behind ⟨_, shape, List.mem_cons_self⟩
      have second {id actual key value : TypeId} (mentioned : model.Mentions graph id)
          (behind : graph.trueType id = some actual)
          (shape : graph.shape? actual = some (.map key value)) : model.Mentions graph value :=
        below mentioned behind ⟨_, shape, List.mem_cons_of_mem _ (List.mem_singleton_self _)⟩
      refine .map behind' shape' (fun entry member => ?_) fun entry member => ?_
      · exact induction entry member same_key (first mentioned behind shape)
          (first mentioned' behind' shape')
      · exact induction' entry member same_value (second mentioned behind shape)
          (second mentioned' behind' shape')
  | @struct struct fields id behind listed named typed _ =>
      refine .struct (whole.trueType_eq same mentioned mentioned' behind fun _ => ?_) listed named
        typed
      exact parameters_of_kind? (whole.structKind struct listed)

end Whole
end Model
end IdlSchema
