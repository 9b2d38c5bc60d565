import IdlSchema.Proofs.Types.TrueType

/-!
# Graphs that are built

A graph starts with the built-in types.  From there on types are added and declared, typedefs get
their targets, also more than once, and declared types are marked as resolved.  Whatever the order,
the graph stays well-formed and no typedef leads out of it, as long as operations are applied to
types that exist.
-/

namespace IdlSchema
namespace TypeGraph

/-- A graph that is made by operations on types that exist. -/
inductive Built : TypeGraph → Prop where
  | initial : Built initial
  | intern {graph : TypeGraph} (shape : TypeShape) : Built graph →
      (∀ parameter ∈ shape.parameters, parameter.index < graph.size) →
      (∀ index, shape = .user index → index < graph.users.length) →
      Built (intern shape graph).2
  | declare {graph : TypeGraph} (name : QualifiedName) (kind : UserTypeKind) (location : Location)
      (deprecated : Bool) : Built graph → Built (declare name kind location deprecated graph).2
  | setTarget {graph : TypeGraph} (typedef target : TypeId) : Built graph →
      target.index < graph.size → Built (graph.setTarget typedef target)
  | markResolved {graph : TypeGraph} (id : TypeId) : Built graph → Built (graph.markResolved id)

/-- The declared types stand for types of the graph, if for any. -/
def TargetsKept (graph : TypeGraph) : Prop :=
  ∀ user ∈ graph.users, ∀ target, user.target? = some target → target.index < graph.size

namespace TargetsKept

variable {graph graph' : TypeGraph}

theorem inside (kept : graph.TargetsKept) : graph.TargetsInside := by
  rintro a b ⟨user, found, _, target⟩
  obtain ⟨index, _, at_index⟩ := user?_eq_some_iff.mp found
  exact kept user (List.mem_of_getElem? at_index) b target

theorem grown (kept : graph.TargetsKept) (extension : graph.Extends graph')
    (users : ∀ user ∈ graph'.users, user ∈ graph.users ∨ user.target? = none) :
    graph'.TargetsKept := by
  intro user member target found
  rcases users user member with old | untargeted
  · exact (kept user old target found).trans_le extension.size_le
  · rw [untargeted] at found
    cases found

theorem modifyUser (kept : graph.TargetsKept) (id : TypeId) {change : UserType → UserType}
    (changed : ∀ user target, (change user).target? = some target →
      user.target? = some target ∨ target.index < graph.size) :
    (graph.modifyUser id change).TargetsKept := by
  rw [TypeGraph.modifyUser]
  split
  · intro user member target found
    obtain ⟨index, at_index⟩ := List.getElem?_of_mem member
    rw [List.getElem?_modify] at at_index
    obtain ⟨user', at_index', same⟩ := Option.map_eq_some_iff.mp at_index
    have old := kept user' (List.mem_of_getElem? at_index')
    split at same
    · subst same
      exact (changed user' target found).elim (old target) fun inside => inside
    · exact old target (same ▸ found)
  · exact kept

end TargetsKept

namespace Built

variable {graph : TypeGraph}

theorem sound (built : graph.Built) : graph.WellFormed ∧ graph.TargetsKept := by
  induction built with
  | initial => exact ⟨wellFormed_initial, fun user member => absurd member List.not_mem_nil⟩
  | @intern graph shape _ parameters_inside declared induction =>
      obtain ⟨wellFormed, kept⟩ := induction
      obtain ⟨wellFormed', extension, users, _⟩ :=
        wellFormed.interned shape parameters_inside declared
      refine ⟨wellFormed', kept.grown extension fun user member => .inl ?_⟩
      rwa [users] at member
  | @declare graph name kind location deprecated _ induction =>
      obtain ⟨wellFormed, kept⟩ := induction
      rcases declare_cases wellFormed name kind location deprecated with
        ⟨_, _, same⟩ | ⟨_, same⟩
      · rw [same]
        exact ⟨wellFormed, kept⟩
      · rw [same]
        refine ⟨wellFormed.declared_type rfl, kept.grown ⟨_, rfl⟩ fun user member => ?_⟩
        refine (List.mem_append.mp member).imp_right fun last => ?_
        rw [List.mem_singleton.mp last]
  | setTarget typedef target _ target_inside induction =>
      obtain ⟨wellFormed, kept⟩ := induction
      refine ⟨wellFormed.modifyUser _ fun _ => rfl, kept.modifyUser _ fun user other found => ?_⟩
      exact .inr (Option.some.inj found ▸ target_inside)
  | markResolved id _ induction =>
      obtain ⟨wellFormed, kept⟩ := induction
      exact ⟨wellFormed.modifyUser _ fun _ => rfl, kept.modifyUser _ fun _ _ => .inl⟩

theorem wellFormed (built : graph.Built) : graph.WellFormed :=
  built.sound.1

theorem targetsInside (built : graph.Built) : graph.TargetsInside :=
  built.sound.2.inside

end Built
end TypeGraph
end IdlSchema
