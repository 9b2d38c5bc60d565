import IdlSchema.Proofs.Constants.Demands
import IdlSchema.Proofs.Constants.PlanImages

/-!
# Values in a mirror

Twins refer to twins.  Where nothing may have failed the converse holds too, so a constant and its
twin reach cycles together and have the same value by plain recursion.
-/

namespace IdlSchema

open Relation

namespace Plan.Image

variable {loose : Prop} {related : Reference → Reference → Prop} {α : Type} {plan plan' : Plan α}

/-- The uses in an image are images of uses. -/
theorem exists_use (image : plan.Image loose related plan') {use' : Reference}
    (member : use' ∈ plan'.references) : ∃ use ∈ plan.references, related use use' := by
  induction image with
  | value a => exact absurd member List.not_mem_nil
  | silent => exact absurd member List.not_mem_nil
  | failed plan _ => exact absurd member List.not_mem_nil
  | refuse problem problem' => exact absurd member List.not_mem_nil
  | refer holds =>
      rw [List.mem_singleton.mp member]
      exact ⟨_, List.mem_singleton_self _, holds⟩
  | both combine _ _ induction induction' =>
      rcases List.mem_append.mp member with left | right
      · obtain ⟨use, inside, holds⟩ := induction left
        exact ⟨use, List.mem_append_left _ inside, holds⟩
      · obtain ⟨use, inside, holds⟩ := induction' right
        exact ⟨use, List.mem_append_right _ inside, holds⟩

/-- Where nothing may have failed, all uses have images. -/
theorem exists_image (image : plan.Image loose related plan') (strict : ¬ loose) {use : Reference}
    (member : use ∈ plan.references) : ∃ use' ∈ plan'.references, related use use' := by
  induction image with
  | value a => exact absurd member List.not_mem_nil
  | silent => exact absurd member List.not_mem_nil
  | failed plan allowed => exact absurd allowed strict
  | refuse problem problem' => exact absurd member List.not_mem_nil
  | refer holds =>
      rw [List.mem_singleton.mp member]
      exact ⟨_, List.mem_singleton_self _, holds⟩
  | both combine _ _ induction induction' =>
      rcases List.mem_append.mp member with left | right
      · obtain ⟨use', inside, holds⟩ := induction left
        exact ⟨use', List.mem_append_left _ inside, holds⟩
      · obtain ⟨use', inside, holds⟩ := induction' right
        exact ⟨use', List.mem_append_right _ inside, holds⟩

/-- Where nothing may have failed, an image has the value of the plan. -/
theorem evaluate_eq (image : plan.Image loose related plan') (strict : ¬ loose)
    {answer answer' : Reference → Option ConstantValue}
    (same : ∀ use ∈ plan.references, ∀ use' ∈ plan'.references, related use use' →
      answer' use' = answer use) : plan'.evaluate answer' = plan.evaluate answer := by
  induction image with
  | value a => rfl
  | silent => rfl
  | failed plan allowed => exact absurd allowed strict
  | refuse problem problem' => rfl
  | refer holds =>
      exact same _ (List.mem_singleton_self _) _ (List.mem_singleton_self _) holds
  | both combine _ _ induction induction' =>
      rw [evaluate, evaluate, induction fun use member use' member' =>
          same use (List.mem_append_left _ member) use' (List.mem_append_left _ member'),
        induction' fun use member use' member' =>
          same use (List.mem_append_right _ member) use' (List.mem_append_right _ member')]

end Plan.Image

namespace ConstantScope

variable {loose : Prop} {scope mirror : ConstantScope} {index index' other other' : Nat}

/-- No two constants of a file have the same name. -/
def Distinct (scope : ConstantScope) : Prop :=
  (scope.model.constants.map fun constant => (constant.file, constant.name)).Nodup

/-- Constants of one file and one name are at the same place. -/
theorem Distinct.index_eq (distinct : scope.Distinct) {constant constant' : Constant Literal}
    (found : scope.model.constants[index]? = some constant)
    (found' : scope.model.constants[other]? = some constant')
    (same_file : constant.file = constant'.file) (same_name : constant.name = constant'.name) :
    index = other := by
  let key (constant : Constant Literal) := (constant.file, constant.name)
  have inside : index < (scope.model.constants.map key).length := by
    rw [List.length_map]
    exact (List.getElem?_eq_some_iff.mp found).1
  refine (List.getElem?_inj inside distinct).mp ?_
  rw [List.getElem?_map, List.getElem?_map, found, found', Option.map_some, Option.map_some]
  exact congrArg some (Prod.ext same_file same_name)

theorem Twins.unique (distinct : mirror.Distinct) (twins : Twins loose scope mirror index index')
    (twins' : Twins loose scope mirror index other') : index' = other' := by
  obtain ⟨constant, constant', found, found', image⟩ := twins
  obtain ⟨again, constant'', found_again, found'', image'⟩ := twins'
  obtain rfl := Option.some.inj (found.symm.trans found_again)
  exact distinct.index_eq found' found'' (image.file.trans image'.file.symm)
    (congrArg Header.name (image.header.trans image'.header.symm))

theorem ConstantImage.symm {graph graph' : TypeGraph} {constant constant' : Constant Literal}
    (image : ConstantImage loose graph graph' constant constant') (strict : ¬ loose) :
    ConstantImage loose graph' graph constant' constant :=
  ⟨image.header.symm, image.file.symm, image.type.symm strict, image.value.symm⟩

theorem Twins.symm (twins : Twins loose scope mirror index index') (strict : ¬ loose) :
    Twins loose mirror scope index' index := by
  obtain ⟨constant, constant', found, found', image⟩ := twins
  exact ⟨constant', constant, found', found, ConstantImage.symm image strict⟩

namespace Mirrors

theorem symm (mirrors : Mirrors loose scope mirror) (strict : ¬ loose) :
    Mirrors loose mirror scope where
  graph := mirrors.graph.symm strict
  includes file := (mirrors.includes file).symm
  qualifier file := (mirrors.qualifier file).symm
  enums := mirrors.enums.symm
  enumKind enum member := by
    rw [mirrors.graph.kind?]
    exact mirrors.enumKind enum (mirrors.enums ▸ member)
  structs := by
    refine mirrors.structs.flip.imp fun struct' struct image => ?_
    exact ⟨image.header.symm, image.file.symm, image.id.symm, image.kind.symm,
      image.fields.flip.imp fun field' field inner => ⟨inner.header.symm, inner.id.symm,
        inner.requiredness.symm, inner.type.symm strict, inner.default?.symm⟩⟩
  structKind struct' member := by
    obtain ⟨struct, listed, image⟩ := mirrors.structs.exists_of_mem_right member
    rw [mirrors.graph.kind?, image.id]
    exact mirrors.structKind struct listed
  constantIn? file name := by
    have found := mirrors.constantIn? file name
    generalize scope.constantIn? file name = index?, mirror.constantIn? file name = index?' at found
    cases found with
    | some twins => exact .some (twins.symm strict)
    | none => exact .none

section

variable (mirrors : Mirrors loose scope mirror) (twins : Twins loose scope mirror index index')

include mirrors twins

theorem planAt : (scope.planAt index).Image loose (UseImage loose scope mirror)
    (mirror.planAt index') := by
  obtain ⟨constant, constant', found, found', image⟩ := twins
  rw [ConstantScope.planAt, ConstantScope.planAt, found, found']
  dsimp only
  rw [image.file, image.value]
  exact mirrors.plan constant.file image.type constant.value

/-- What the twin of a constant refers to is a twin of what the constant refers to. -/
theorem exists_refers (refers : mirror.Refers index' other') :
    ∃ other, scope.Refers index other ∧ Twins loose scope mirror other other' := by
  obtain ⟨use', member, rfl⟩ := refers
  obtain ⟨use, inside, image⟩ := (mirrors.planAt twins).exists_use member
  exact ⟨use.index, ⟨use, inside, rfl⟩, image.twins⟩

theorem exists_refers_twin (strict : ¬ loose) (refers : scope.Refers index other) :
    ∃ other', mirror.Refers index' other' ∧ Twins loose scope mirror other other' := by
  obtain ⟨use, member, rfl⟩ := refers
  obtain ⟨use', inside, image⟩ := (mirrors.planAt twins).exists_image strict member
  exact ⟨use'.index, ⟨use', inside, rfl⟩, image.twins⟩

end

/-- A chain of references has a chain of references between twins. -/
theorem exists_chain (mirrors : Mirrors loose scope mirror) (strict : ¬ loose)
    (twins : Twins loose scope mirror index index')
    (chain : ReflTransGen scope.Refers index other) :
    ∃ other', ReflTransGen mirror.Refers index' other' ∧ Twins loose scope mirror other other' := by
  induction chain with
  | refl => exact ⟨index', .refl, twins⟩
  | tail _ refers induction =>
      obtain ⟨between', chain', twins'⟩ := induction
      obtain ⟨other', refers', twins''⟩ := mirrors.exists_refers_twin twins' strict refers
      exact ⟨other', chain'.tail refers', twins''⟩

/-- A cycle that is reachable from a constant is reachable from its twin. -/
theorem reachesCycle (mirrors : Mirrors loose scope mirror) (strict : ¬ loose)
    (distinct : mirror.Distinct) (twins : Twins loose scope mirror index index')
    (reaches : scope.ReachesCycle index) : mirror.ReachesCycle index' := by
  obtain ⟨last, path, cycle⟩ := reaches
  obtain ⟨last', path', twins_last⟩ := mirrors.exists_chain strict twins path
  obtain ⟨next, refers, back⟩ := TransGen.head'_iff.mp cycle
  obtain ⟨next', refers', twins_next⟩ := mirrors.exists_refers_twin twins_last strict refers
  obtain ⟨again, back', twins_again⟩ := mirrors.exists_chain strict twins_next back
  obtain rfl := twins_last.unique distinct twins_again
  exact ⟨last', path', .head' refers' back'⟩

theorem accept_eq (mirrors : Mirrors loose scope mirror) (strict : ¬ loose) {use use' : Reference}
    (image : UseImage loose scope mirror use use') (value? : Option ConstantValue) :
    mirror.accept use' value? = scope.accept use value? := by
  obtain ⟨constant, constant', found, found', at_constant⟩ := image.twins
  have same : mirror.graph.sameType constant'.type use'.expected =
      scope.graph.sameType constant.type use.expected := by
    refine Bool.eq_iff_iff.mpr ⟨fun equal => ?_, fun equal => ?_⟩
    · exact (mirrors.graph.symm strict).sameType (at_constant.type.symm strict)
        (image.expected.symm strict) equal
    · exact mirrors.graph.sameType at_constant.type image.expected equal
  cases value? with
  | none => rfl
  | some value =>
      simp only [accept, found, found', same]

/-- A constant and its twin have the same value by plain recursion. -/
theorem elaborates (mirrors : Mirrors loose scope mirror) (strict : ¬ loose)
    (twins : Twins loose scope mirror index index') {value? : Option ConstantValue}
    (elaborates : scope.Elaborates index value?) : mirror.Elaborates index' value? := by
  induction elaborates generalizing index' with
  | @intro index values _ induction =>
      -- Several constants may have the same twin, whose value is theirs in any case.
      let values' (other' : Nat) : Option ConstantValue :=
        Classical.epsilon fun value? => mirror.Elaborates other' value?
      have right {other other' : Nat} (refers : scope.Refers index other)
          (twins : Twins loose scope mirror other other') : values' other' = values other := by
        have elaborates' := induction other refers twins
        exact (Classical.epsilon_spec ⟨_, elaborates'⟩).unique elaborates'
      have same : mirror.elaborateAt values' index' = scope.elaborateAt values index := by
        rw [elaborateAt_eq, elaborateAt_eq]
        refine (mirrors.planAt twins).evaluate_eq strict fun use member use' _ image => ?_
        rw [answer, answer, right ⟨use, member, rfl⟩ image.twins]
        exact mirrors.accept_eq strict image _
      rw [← same]
      refine .intro fun other' refers' => ?_
      obtain ⟨other, refers, twins'⟩ := mirrors.exists_refers twins refers'
      rw [right refers twins']
      exact induction other refers twins'

/-- What is right for a constant is right for its twin. -/
theorem correct (mirrors : Mirrors loose scope mirror) (strict : ¬ loose)
    (distinct : scope.Distinct) (distinct' : mirror.Distinct)
    (twins : Twins loose scope mirror index index') {value? : Option ConstantValue}
    (correct : scope.Correct index value?) : mirror.Correct index' value? where
  elaborates acyclic := mirrors.elaborates strict twins (correct.elaborates fun cyclic =>
    acyclic (mirrors.reachesCycle strict distinct' twins cyclic))
  absent cyclic := correct.absent
    ((mirrors.symm strict).reachesCycle strict distinct (twins.symm strict) cyclic)

end Mirrors
end ConstantScope
end IdlSchema
