import IdlSchema.Proofs.Types.Growth

/-!
# What lies behind typedefs

A typedef leads to its target, and every type leads on to at most one other.  A chain of typedefs
that ends passes no typedef twice, so the number of declared types bounds it: the type behind a
typedef is the end of its chain, and there is one unless the chain stops short or runs in a circle.
-/

namespace IdlSchema
namespace TypeGraph

variable {graph : TypeGraph}

/-- A typedef stands for a type. -/
def Alias (graph : TypeGraph) (a b : TypeId) : Prop :=
  ∃ user, graph.user? a = some user ∧ user.kind = .typedef ∧ user.target? = some b

/-- The typedefs that are passed on the way from one type to another. -/
inductive AliasPath (graph : TypeGraph) : TypeId → List TypeId → TypeId → Prop where
  | stop (a : TypeId) : AliasPath graph a [] a
  | step {a b c : TypeId} {passed : List TypeId} :
      graph.Alias a b → AliasPath graph b passed c → AliasPath graph a (a :: passed) c

/-- The declared typedefs. -/
def typedefs (graph : TypeGraph) : List UserType :=
  graph.users.filter (·.kind = .typedef)

/-- A typedef that stands for nothing yet. -/
def Unlinked (graph : TypeGraph) (a : TypeId) : Prop :=
  ∃ user, graph.user? a = some user ∧ user.kind = .typedef ∧ user.target? = none

theorem Alias.kind? {a b : TypeId} (leads : graph.Alias a b) : graph.kind? a = some .typedef := by
  obtain ⟨user, found, kind, _⟩ := leads
  rw [TypeGraph.kind?, found, Option.map_some, kind]

theorem Alias.unique {a b c : TypeId} (leads : graph.Alias a b) (leads' : graph.Alias a c) :
    b = c := by
  obtain ⟨user, found, _, target⟩ := leads
  obtain ⟨user', found', _, target'⟩ := leads'
  obtain rfl := Option.some.inj (found.symm.trans found')
  exact Option.some.inj (target.symm.trans target')

namespace AliasPath

theorem reaches {a b : TypeId} {passed : List TypeId} (path : graph.AliasPath a passed b) :
    Relation.ReflTransGen graph.Alias a b := by
  induction path with
  | stop a => exact .refl
  | step leads _ induction => exact .head leads induction

theorem exists_of_reaches {a b : TypeId} (reaches : Relation.ReflTransGen graph.Alias a b) :
    ∃ passed, graph.AliasPath a passed b := by
  induction reaches using Relation.ReflTransGen.head_induction_on with
  | refl => exact ⟨[], .stop b⟩
  | head leads _ induction =>
      obtain ⟨passed, path⟩ := induction
      exact ⟨_ :: passed, .step leads path⟩

/-- From each typedef that a path passes, the rest of the path leads on. -/
theorem rest {a b other : TypeId} {passed : List TypeId} (path : graph.AliasPath a passed b)
    (member : other ∈ passed) :
    ∃ passed', graph.AliasPath other passed' b ∧ passed'.length ≤ passed.length ∧
      Relation.ReflTransGen graph.Alias a other := by
  induction path with
  | stop a => exact absurd member List.not_mem_nil
  | step leads path induction =>
      rcases List.mem_cons.mp member with rfl | inner
      · exact ⟨_, .step leads path, le_rfl, .refl⟩
      · obtain ⟨passed', path', shorter, reaches⟩ := induction inner
        exact ⟨passed', path', shorter.trans (Nat.le_succ _), .head leads reaches⟩

theorem unique {a b : TypeId} {passed passed' : List TypeId} (path : graph.AliasPath a passed b)
    (path' : graph.AliasPath a passed' b) (last : graph.kind? b ≠ some .typedef) :
    passed = passed' := by
  induction path generalizing passed' with
  | stop a =>
      cases path' with
      | stop => rfl
      | step leads _ => exact absurd leads.kind? last
  | step leads path induction =>
      cases path' with
      | stop => exact absurd leads.kind? last
      | step leads' path'' =>
          obtain rfl := leads.unique leads'
          rw [induction path'' last]

theorem nodup_of_last {a b : TypeId} {passed : List TypeId} (path : graph.AliasPath a passed b)
    (last : graph.kind? b ≠ some .typedef) : passed.Nodup := by
  induction path with
  | stop a => exact List.nodup_nil
  | step leads path induction =>
      refine List.nodup_cons.mpr ⟨fun again => ?_, induction last⟩
      obtain ⟨passed', path', shorter, _⟩ := path.rest again
      have same := (AliasPath.step leads path).unique path' last
      rw [← same, List.length_cons] at shorter
      omega

theorem nodup_of_acyclic {a b : TypeId} {passed : List TypeId} (path : graph.AliasPath a passed b)
    (acyclic : ∀ id, ¬ Relation.TransGen graph.Alias id id) : passed.Nodup := by
  induction path with
  | stop a => exact List.nodup_nil
  | step leads path induction =>
      refine List.nodup_cons.mpr ⟨fun again => ?_, induction⟩
      obtain ⟨_, _, _, reaches⟩ := path.rest again
      exact acyclic _ (.head' leads reaches)

/-- What a path passes are declared typedefs. -/
theorem subset_typedefs (known : ∀ id user, graph.user? id = some user → user.id = id)
    {a b : TypeId} {passed : List TypeId} (path : graph.AliasPath a passed b) :
    passed ⊆ graph.typedefs.map (·.id) := by
  induction path with
  | stop a => simp
  | step leads _ induction =>
      obtain ⟨user, found, is_typedef, _⟩ := leads
      obtain ⟨index, _, at_index⟩ := user?_eq_some_iff.mp found
      refine List.cons_subset.mpr ⟨List.mem_map.mpr ⟨user, ?_, known _ user found⟩, induction⟩
      exact List.mem_filter.mpr ⟨List.mem_of_getElem? at_index, decide_eq_true is_typedef⟩

/-- A path that passes no typedef twice passes at most all of them. -/
theorem length_le_typedefs (known : ∀ id user, graph.user? id = some user → user.id = id)
    {a b : TypeId} {passed : List TypeId} (path : graph.AliasPath a passed b)
    (nodup : passed.Nodup) : passed.length ≤ graph.typedefs.length := by
  have bound := (nodup.subperm (path.subset_typedefs known)).length_le
  rwa [List.length_map] at bound

/-- A path that passes no typedef twice passes at most all declared types. -/
theorem length_le (wellFormed : graph.WellFormed) {a b : TypeId} {passed : List TypeId}
    (path : graph.AliasPath a passed b) (nodup : passed.Nodup) :
    passed.length ≤ graph.users.length :=
  (path.length_le_typedefs (fun _ _ => wellFormed.id_of_user?) nodup).trans
    (List.length_filter_le ..)

end AliasPath

theorem trueTypeWithin_eq_some_iff {steps : Nat} {a b : TypeId} :
    graph.trueTypeWithin steps a = some b ↔
      ∃ passed, graph.AliasPath a passed b ∧ graph.kind? b ≠ some .typedef ∧
        passed.length < steps := by
  induction steps generalizing a with
  | zero => simp [trueTypeWithin]
  | succ steps induction =>
      rw [trueTypeWithin]
      constructor
      · intro found
        split at found
        · rename_i user at_a
          split at found
          · rename_i is_typedef
            obtain ⟨target, at_target, found⟩ := Option.bind_eq_some_iff.mp found
            obtain ⟨passed, path, last, short⟩ := induction.mp found
            exact ⟨a :: passed, .step ⟨user, at_a, is_typedef, at_target⟩ path, last,
              Nat.succ_lt_succ short⟩
          · rename_i no_typedef
            obtain rfl := Option.some.inj found
            refine ⟨[], .stop a, ?_, Nat.succ_pos steps⟩
            rwa [kind?, at_a, Option.map_some, ne_eq, Option.some.injEq]
        · rename_i at_a
          obtain rfl := Option.some.inj found
          exact ⟨[], .stop a, by simp [kind?, at_a], Nat.succ_pos steps⟩
      · rintro ⟨passed, path, last, short⟩
        cases path with
        | stop =>
            cases at_b : graph.user? b with
            | none => rfl
            | some user =>
                rw [kind?, at_b, Option.map_some, ne_eq, Option.some.injEq] at last
                simp only [if_neg last]
        | step leads path =>
            obtain ⟨user, at_a, is_typedef, at_target⟩ := leads
            simp only [at_a, if_pos is_typedef, at_target, Option.bind_some]
            exact induction.mpr ⟨_, path, last, Nat.lt_of_succ_lt_succ short⟩

/-- The type behind a typedef is the end of the chain of typedefs that starts there. -/
theorem WellFormed.trueType_eq_some_iff (wellFormed : graph.WellFormed) {a b : TypeId} :
    graph.trueType a = some b ↔
      Relation.ReflTransGen graph.Alias a b ∧ graph.kind? b ≠ some .typedef := by
  rw [trueType, trueTypeWithin_eq_some_iff]
  constructor
  · rintro ⟨passed, path, last, _⟩
    exact ⟨path.reaches, last⟩
  · rintro ⟨reaches, last⟩
    obtain ⟨passed, path⟩ := AliasPath.exists_of_reaches reaches
    have bound := path.length_le wellFormed (path.nodup_of_last last)
    exact ⟨passed, path, last, Nat.lt_succ_of_le bound⟩

theorem trueType_of_kind?_ne {id : TypeId} (last : graph.kind? id ≠ some .typedef) :
    graph.trueType id = some id :=
  trueTypeWithin_eq_some_iff.mpr ⟨[], .stop id, last, Nat.succ_pos _⟩

theorem kind?_eq_none {a : TypeId} {shape : TypeShape} (found : graph.shape? a = some shape)
    (no_user : ∀ index, shape ≠ .user index) : graph.kind? a = none := by
  have absent : graph.user? a = none := by
    rw [user?, found]
    cases shape with
    | user index => exact absurd rfl (no_user index)
    | _ => rfl
  rw [kind?, absent, Option.map_none]

theorem parameters_of_kind? {a : TypeId} {kind : UserTypeKind} (found : graph.kind? a = some kind)
    {shape : TypeShape} (at_a : graph.shape? a = some shape) : shape.parameters = [] := by
  obtain ⟨user, found', _⟩ := Option.map_eq_some_iff.mp found
  obtain ⟨index, at_a', _⟩ := user?_eq_some_iff.mp found'
  rw [at_a'] at at_a
  cases at_a
  rfl

theorem trueType_of_shape? {a : TypeId} {shape : TypeShape}
    (found : graph.shape? a = some shape)
    (no_user : ∀ index, shape ≠ .user index) : graph.trueType a = some a := by
  refine trueType_of_kind?_ne ?_
  rw [kind?_eq_none found no_user]
  exact Option.some_ne_none _ |>.symm

theorem WellFormed.trueType_alias (wellFormed : graph.WellFormed) {a b : TypeId}
    (leads : graph.Alias a b) : graph.trueType a = graph.trueType b := by
  ext c
  rw [wellFormed.trueType_eq_some_iff, wellFormed.trueType_eq_some_iff]
  refine and_congr_left fun last => ⟨fun reaches => ?_, .head leads⟩
  rcases Relation.ReflTransGen.cases_head reaches with same | ⟨next, leads', reaches'⟩
  · exact absurd (same ▸ leads.kind?) last
  · rwa [leads.unique leads']

/-- The targets of typedefs are types of the graph. -/
def TargetsInside (graph : TypeGraph) : Prop :=
  ∀ a b, graph.Alias a b → b.index < graph.size

theorem WellFormed.lt_size_of_trueType (wellFormed : graph.WellFormed)
    (targets : graph.TargetsInside) {a b : TypeId} (inside : a.index < graph.size)
    (found : graph.trueType a = some b) : b.index < graph.size := by
  rcases Relation.ReflTransGen.cases_tail (wellFormed.trueType_eq_some_iff.mp found).1 with
    same | ⟨previous, _, leads⟩
  · exact same ▸ inside
  · exact targets previous b leads

/-- Where no type is found, the steps end at a typedef that stands for nothing, or too early. -/
theorem exists_path_of_trueTypeWithin {steps : Nat} {a : TypeId}
    (absent : graph.trueTypeWithin steps a = none) :
    ∃ passed b, graph.AliasPath a passed b ∧ (graph.Unlinked b ∨ passed.length = steps) := by
  induction steps generalizing a with
  | zero => exact ⟨[], a, .stop a, .inr rfl⟩
  | succ steps induction =>
      rw [trueTypeWithin] at absent
      split at absent
      · rename_i user at_a
        split at absent
        · rename_i is_typedef
          cases at_target : user.target? with
          | none => exact ⟨[], a, .stop a, .inl ⟨user, at_a, is_typedef, at_target⟩⟩
          | some target =>
              rw [at_target, Option.bind_some] at absent
              obtain ⟨passed, b, path, ends⟩ := induction absent
              exact ⟨a :: passed, b, .step ⟨user, at_a, is_typedef, at_target⟩ path,
                ends.imp_right (congrArg Nat.succ)⟩
        · cases absent
      · cases absent

/-- Where every typedef is linked and none leads back to itself, all chains end. -/
theorem WellFormed.exists_trueType (wellFormed : graph.WellFormed)
    (linked : ∀ id user, graph.user? id = some user → user.kind = .typedef →
      ∃ target, user.target? = some target)
    (acyclic : ∀ id, ¬ Relation.TransGen graph.Alias id id) (id : TypeId) :
    ∃ b, graph.trueType id = some b := by
  cases found : graph.trueType id with
  | some b => exact ⟨b, rfl⟩
  | none =>
      obtain ⟨passed, b, path, ⟨user, at_b, is_typedef, unlinked⟩ | length⟩ :=
        exists_path_of_trueTypeWithin found
      · obtain ⟨target, at_target⟩ := linked b user at_b is_typedef
        rw [unlinked] at at_target
        cases at_target
      · have bound := path.length_le wellFormed (path.nodup_of_acyclic acyclic)
        omega

end TypeGraph
end IdlSchema
