import IdlSchema.Proofs.Types.Consistency

/-!
# Chains of typedefs

The type behind a typedef is looked for in a bounded number of steps, one more than there are
declared types, and nothing notes which typedefs were passed.  Whatever was asked of a graph, no
chain that ends is cut off: a chain that ends passes no typedef twice, so it passes at most all of
them, and there are chains that do.  Where no type is found, the chain stops at a typedef that
stands for nothing or comes back to one that it has passed.
-/

namespace IdlSchema
namespace TypeGraph

variable {graph : TypeGraph} {a b c : TypeId} {passed passed' : List TypeId}

/-- The graph that some operations make of a new one, also where they are given types it lacks. -/
def ofOperations (operations : List Operation) : TypeGraph :=
  operations.foldl (fun graph operation => (operation.run graph).2) initial

/--
The type that is found behind a type is where its chain of typedefs first meets a type that is none.
None is found just where the chain meets a typedef without target or one that it has passed.  The
steps that a chain takes to its end are bounded by the number of typedefs.
-/
structure FollowsChains (graph : TypeGraph) : Prop where
  found : ∀ a b, graph.trueType a = some b ↔
    ∃ passed, graph.AliasPath a passed b ∧ graph.kind? b ≠ some .typedef
  missing : ∀ a, graph.trueType a = none ↔
    ∃ passed b, graph.AliasPath a passed b ∧ (graph.Unlinked b ∨ b ∈ passed)
  ends : ∀ a passed b, graph.AliasPath a passed b → graph.kind? b ≠ some .typedef →
    passed.Nodup ∧ passed.length ≤ graph.typedefs.length ∧
      ∀ steps, graph.trueTypeWithin steps a = some b ↔ passed.length < steps
  /-- More steps than are taken find nothing more. -/
  enough : ∀ steps a b, graph.trueTypeWithin steps a = some b → graph.trueType a = some b

/-! ## Where chains lead -/

namespace AliasPath

/-- A chain that ends goes on to its end from wherever it has come. -/
theorem exists_onward (path : graph.AliasPath a passed b) (whole : graph.AliasPath a passed' c)
    (last : graph.kind? c ≠ some .typedef) :
    ∃ onward, passed' = passed ++ onward ∧ graph.AliasPath b onward c := by
  induction path generalizing passed' with
  | stop a => exact ⟨passed', rfl, whole⟩
  | step leads path induction =>
      cases whole with
      | stop => exact absurd leads.kind? last
      | step leads' whole =>
          obtain rfl := leads.unique leads'
          obtain ⟨onward, rfl, rest⟩ := induction whole
          exact ⟨onward, rfl, rest⟩

theorem kind?_of_mem (path : graph.AliasPath a passed b) (member : c ∈ passed) :
    graph.kind? c = some .typedef := by
  induction path with
  | stop a => cases member
  | step leads _ induction =>
      rcases List.mem_cons.mp member with rfl | later
      · exact leads.kind?
      · exact induction later

/-- A chain that passes a typedef twice comes back to one that it has passed. -/
theorem exists_returns (path : graph.AliasPath a passed b) (again : ¬ passed.Nodup) :
    ∃ passed' b', graph.AliasPath a passed' b' ∧ b' ∈ passed' := by
  induction path with
  | stop a => exact absurd List.nodup_nil again
  | @step a b c passed leads path induction =>
      by_cases here : a ∈ passed
      · obtain ⟨_, _, _, reaches⟩ := path.rest here
        obtain ⟨round, back⟩ := exists_of_reaches reaches
        exact ⟨a :: round, a, .step leads back, List.mem_cons_self⟩
      · have later : ¬ passed.Nodup := fun nodup => again (List.nodup_cons.mpr ⟨here, nodup⟩)
        obtain ⟨passed', b', path', returns⟩ := induction later
        exact ⟨a :: passed', b', .step leads path', List.mem_cons_of_mem a returns⟩

end AliasPath

/-- Where a type is found, the chain goes on to it from wherever it has come. -/
theorem AliasPath.exists_rest (path : graph.AliasPath a passed b) (found : graph.trueType a ≠ none) :
    ∃ c onward, graph.AliasPath b onward c ∧ graph.kind? c ≠ some .typedef ∧
      (passed ++ onward).Nodup := by
  obtain ⟨c, found⟩ := Option.ne_none_iff_exists'.mp found
  obtain ⟨passed', whole, last, _⟩ := trueTypeWithin_eq_some_iff.mp found
  obtain ⟨onward, rfl, rest⟩ := path.exists_onward whole last
  exact ⟨c, onward, rest, last, whole.nodup_of_last last⟩

/-- No type is found where the chain meets a typedef without target. -/
theorem trueType_of_unlinked (path : graph.AliasPath a passed b) (unlinked : graph.Unlinked b) :
    graph.trueType a = none := by
  by_contra found
  obtain ⟨c, onward, rest, last, _⟩ := path.exists_rest found
  obtain ⟨user, at_b, is_typedef, no_target⟩ := unlinked
  cases rest with
  | stop => exact last (by rw [kind?, at_b, Option.map_some, is_typedef])
  | step leads _ =>
      obtain ⟨user', at_b', _, target⟩ := leads
      obtain rfl := Option.some.inj (at_b.symm.trans at_b')
      rw [no_target] at target
      cases target

/-- No type is found where the chain comes back to a typedef that it has passed. -/
theorem trueType_of_returns (path : graph.AliasPath a passed b) (returns : b ∈ passed) :
    graph.trueType a = none := by
  by_contra found
  obtain ⟨c, onward, rest, last, nodup⟩ := path.exists_rest found
  cases rest with
  | stop => exact last (path.kind?_of_mem returns)
  | step _ _ => exact (List.nodup_append.mp nodup).2.2 b returns b List.mem_cons_self rfl

/-- Where the entries of declared types know their places, the bound cuts off no chain that ends. -/
theorem followsChains (known : ∀ id user, graph.user? id = some user → user.id = id) :
    graph.FollowsChains := by
  have bounded {a b : TypeId} {passed : List TypeId} (path : graph.AliasPath a passed b)
      (nodup : passed.Nodup) : passed.length ≤ graph.typedefs.length ∧
        passed.length < graph.users.length + 1 := by
    have short := path.length_le_typedefs known nodup
    exact ⟨short, Nat.lt_succ_of_le (short.trans (List.length_filter_le ..))⟩
  have found {a b : TypeId} {passed : List TypeId} (path : graph.AliasPath a passed b)
      (last : graph.kind? b ≠ some .typedef) : graph.trueType a = some b :=
    trueTypeWithin_eq_some_iff.mpr ⟨passed, path, last, (bounded path (path.nodup_of_last last)).2⟩
  constructor
  case found =>
    intro a b
    constructor
    · intro same
      obtain ⟨passed, path, last, _⟩ := trueTypeWithin_eq_some_iff.mp same
      exact ⟨passed, path, last⟩
    · rintro ⟨passed, path, last⟩
      exact found path last
  case missing =>
    intro a
    constructor
    · intro absent
      obtain ⟨passed, b, path, unlinked | long⟩ := exists_path_of_trueTypeWithin absent
      · exact ⟨passed, b, path, .inl unlinked⟩
      · -- The steps ran out, so by their number some typedef was passed twice.
        have again : ¬ passed.Nodup := fun nodup => (bounded path nodup).2.ne long
        obtain ⟨passed', b', path', returns⟩ := path.exists_returns again
        exact ⟨passed', b', path', .inr returns⟩
    · rintro ⟨passed, b, path, unlinked | returns⟩
      · exact trueType_of_unlinked path unlinked
      · exact trueType_of_returns path returns
  case ends =>
    intro a passed b path last
    have nodup := path.nodup_of_last last
    refine ⟨nodup, (bounded path nodup).1, fun steps => ?_⟩
    rw [trueTypeWithin_eq_some_iff]
    constructor
    · rintro ⟨passed', path', _, short⟩
      rwa [path.unique path' last]
    · exact fun short => ⟨passed, path, last, short⟩
  case enough =>
    intro steps a b same
    obtain ⟨passed, path, last, _⟩ := trueTypeWithin_eq_some_iff.mp same
    exact found path last

/-! ## Graphs after operations of any sort -/

/-- No shape is kept twice, and each declared type stands at its shape. -/
structure Placed (graph : TypeGraph) : Prop where
  nodup : graph.shapes.Nodup
  user : ∀ (index : Nat) (user : UserType), graph.users[index]? = some user →
    graph.shape? user.id = some (.user index)

namespace Placed

theorem id_of_user? (placed : graph.Placed) (id : TypeId) (user : UserType)
    (found : graph.user? id = some user) : user.id = id := by
  obtain ⟨index, at_id, at_index⟩ := user?_eq_some_iff.mp found
  exact eq_of_shape? placed.nodup (placed.user index user at_index) at_id

theorem intern (placed : graph.Placed) (shape : TypeShape) :
    (TypeGraph.intern shape graph).2.Placed := by
  rcases intern_cases graph shape with ⟨id, same, _⟩ | ⟨fresh, same⟩
  · rwa [same]
  · have extension := extends_intern graph shape
    rw [same] at extension ⊢
    refine ⟨?_, fun index user found => extension.shape? (placed.user index user found)⟩
    exact placed.nodup.append (List.nodup_singleton shape) (List.disjoint_singleton.mpr fresh)

theorem declare (placed : graph.Placed) (name : QualifiedName) (kind : UserTypeKind)
    (location : Location) (deprecated : Bool) :
    (TypeGraph.declare name kind location deprecated graph).2.Placed := by
  rw [TypeGraph.declare]
  cases graph.lookup name.file name.name with
  | some existing => exact placed
  | none =>
      have extension := extends_intern graph (.user graph.users.length)
      have placed' := placed.intern (.user graph.users.length)
      have at_id := shape?_intern graph (.user graph.users.length)
      generalize TypeGraph.intern (.user graph.users.length) graph = interned
        at extension placed' at_id ⊢
      obtain ⟨id, grown⟩ := interned
      refine ⟨placed'.nodup, fun index user found => ?_⟩
      dsimp only at found
      rcases Nat.lt_or_ge index graph.users.length with old | new
      · rw [List.getElem?_append_left old] at found
        exact extension.shape? (placed.user index user found)
      · have inside := (List.getElem?_eq_some_iff.mp found).1
        rw [List.length_append, List.length_singleton] at inside
        obtain rfl : index = graph.users.length := by omega
        rw [List.getElem?_concat_length] at found
        rw [← Option.some.inj found]
        exact at_id

theorem modifyUser (placed : graph.Placed) (id : TypeId) {change : UserType → UserType}
    (keeps_id : ∀ user, (change user).id = user.id) : (graph.modifyUser id change).Placed := by
  have ids : (graph.modifyUser id change).users.map (·.id) = graph.users.map (·.id) :=
    map_users_modifyUser graph id keeps_id
  have same_shapes : (graph.modifyUser id change).shapes = graph.shapes := by
    rw [TypeGraph.modifyUser]
    split <;> rfl
  refine ⟨same_shapes ▸ placed.nodup, fun index user found => ?_⟩
  have at_index := congrArg (·[index]?) ids
  simp only [List.getElem?_map, found, Option.map_some] at at_index
  obtain ⟨user', found', same_id⟩ := Option.map_eq_some_iff.mp at_index.symm
  rw [shape?, same_shapes, ← same_id]
  exact placed.user index user' found'

/-- Every operation keeps declared types at their shapes, whatever it is given. -/
theorem run (placed : graph.Placed) (operation : Operation) : (operation.run graph).2.Placed := by
  cases operation with
  | intern shape => exact placed.intern shape
  | list element => exact placed.intern (.list element)
  | set element => exact placed.intern (.set element)
  | map key value => exact placed.intern (.map key value)
  | declare name kind location deprecated => exact placed.declare name kind location deprecated
  | setTarget typedef target => exact placed.modifyUser typedef fun _ => rfl
  | markResolved id => exact placed.modifyUser id fun _ => rfl
  | lookup file name => exact placed

end Placed

theorem placed_ofOperations (operations : List Operation) : (ofOperations operations).Placed := by
  have start : initial.Placed := ⟨wellFormed_initial.nodup, wellFormed_initial.user⟩
  exact List.foldlRecOn operations _ start fun graph placed operation _ => placed.run operation

/-! ## Chains through all typedefs -/

/-- A chain passes every declared type once, so it takes all steps that are allowed. -/
structure PassesAll (graph : TypeGraph) (a b : TypeId) : Prop where
  chain : ∃ passed, graph.AliasPath a passed b ∧ passed.Perm (graph.users.map (·.id))
  found : graph.trueType a = some b
  tight : graph.trueTypeWithin graph.users.length a = none

/-- A built-in type at the foot of a ladder, and the typedefs above it. -/
def rung : Nat → TypeId
  | 0 => .ofBuiltin .i32
  | place + 1 => ⟨11 + place⟩

/-- Each typedef of a ladder stands for the rung below it. -/
def rungUser (place : Nat) : UserType :=
  { name := { file := ⟨place⟩, qualifier := "", name := "Rung" }
    kind := .typedef
    location := .start "ladder"
    deprecated := false
    id := rung (place + 1)
    target? := some (rung place)
    resolved := false }

/-- The operations that build a ladder from the foot. -/
def ladder : Nat → List Operation
  | 0 => []
  | count + 1 => ladder count ++ [
      .declare (rungUser count).name .typedef (.start "ladder") false,
      .setTarget (rung (count + 1)) (rung count)]

theorem rung_lt {place count : Nat} (below : place ≤ count) : (rung place).index < 11 + count := by
  cases place with
  | zero => exact Nat.lt_of_lt_of_le (by decide : 4 < 11) (Nat.le_add_right 11 count)
  | succ place => exact Nat.add_lt_add_left below 11

theorem ofOperations_ladder_succ (count : Nat) : ofOperations (ladder (count + 1)) =
    (declare (rungUser count).name .typedef (.start "ladder") false
      (ofOperations (ladder count))).2.setTarget (rung (count + 1)) (rung count) := by
  rw [ofOperations, ladder, List.foldl_append]
  rfl

/-- A type that is declared under a new name gets its target. -/
theorem WellFormed.setTarget_declare (wellFormed : graph.WellFormed) (name : QualifiedName)
    (unused : graph.lookup name.file name.name = none) (kind : UserTypeKind) (location : Location)
    (deprecated : Bool) (target : TypeId) :
    (declare name kind location deprecated graph).2.setTarget ⟨graph.size⟩ target =
      { shapes := graph.shapes ++ [.user graph.users.length]
        users := graph.users ++
          [⟨name, kind, location, deprecated, ⟨graph.size⟩, some target, false⟩] } := by
  rcases declare_cases wellFormed name kind location deprecated with ⟨_, taken, _⟩ | ⟨_, same⟩
  · exact absurd (taken.symm.trans unused) (Option.some_ne_none _)
  · have at_end : shape? (declare name kind location deprecated graph).2 ⟨graph.size⟩ =
        some (.user graph.users.length) := by
      rw [same]
      exact List.getElem?_concat_length
    rw [setTarget, TypeGraph.modifyUser, at_end, same]
    simp [List.modify_eq_take_cons_drop]

theorem built_ladder (count : Nat) : (ofOperations (ladder count)).Built ∧
    (ofOperations (ladder count)).size = 11 + count ∧
      (ofOperations (ladder count)).users = (List.range count).map rungUser := by
  induction count with
  | zero => exact ⟨.initial, rfl, rfl⟩
  | succ count induction =>
      rw [ofOperations_ladder_succ]
      obtain ⟨built, size, users⟩ := induction
      generalize ofOperations (ladder count) = graph at built size users
      have unused : graph.lookup ⟨count⟩ "Rung" = none := by
        rw [lookup_eq_none_iff, users, List.map_map, List.mem_map]
        rintro ⟨place, inside, same⟩
        obtain rfl : place = count := congrArg (fun key : FileId × String => key.1.index) same
        exact List.not_mem_range_self inside
      have targeted := built.wellFormed.setTarget_declare (rungUser count).name unused .typedef
        (.start "ladder") false (rung count)
      have grows := built.wellFormed.extends_run
        (.declare (rungUser count).name .typedef (.start "ladder") false)
      have top : rung (count + 1) = ⟨graph.size⟩ := by rw [rung, size]
      refine ⟨.setTarget _ _ (built.declare ..) ?_, ?_, ?_⟩
      · exact (size ▸ rung_lt le_rfl : (rung count).index < graph.size).trans_le grows.size_le
      · rw [top, targeted, TypeGraph.size, List.length_append, List.length_singleton]
        exact congrArg (· + 1) size
      · rw [top, targeted, List.range_succ, List.map_append, ← users, ← top]
        rfl

/-- The rungs below a place are passed from the top to the foot. -/
theorem aliasPath_ladder {place count : Nat} (below : place ≤ count) :
    (ofOperations (ladder count)).AliasPath (rung place)
      ((List.range place).reverse.map fun lower => rung (lower + 1)) (rung 0) := by
  obtain ⟨built, _, users⟩ := built_ladder count
  induction place with
  | zero => exact .stop _
  | succ place induction =>
      have listed : rungUser place ∈ (ofOperations (ladder count)).users := by
        rw [users]
        exact List.mem_map_of_mem (List.mem_range.mpr below)
      rw [List.range_succ, List.reverse_append, List.reverse_singleton, List.singleton_append,
        List.map_cons]
      exact .step ⟨rungUser place, built.wellFormed.user?_of_mem listed, rfl, rfl⟩
        (induction (Nat.le_of_succ_le below))

/-- The chain from the top of a ladder passes every declared type. -/
theorem passesAll_ladder (count : Nat) :
    (ofOperations (ladder count)).PassesAll (rung count) (rung 0) := by
  obtain ⟨built, _, users⟩ := built_ladder count
  have path := aliasPath_ladder (le_refl count)
  have last : (ofOperations (ladder count)).kind? (rung 0) ≠ some .typedef := by
    rw [rung, kind?_eq_none (built.wellFormed.builtin .i32) (by simp)]
    exact (Option.some_ne_none _).symm
  have follows := followsChains (placed_ofOperations (ladder count)).id_of_user?
  obtain ⟨_, _, steps⟩ := follows.ends _ _ _ path last
  have length : (ofOperations (ladder count)).users.length = count := by
    rw [users, List.length_map, List.length_range]
  refine ⟨⟨_, path, ?_⟩, (follows.found _ _).mpr ⟨_, path, last⟩, ?_⟩
  · rw [users, List.map_map]
    exact (List.reverse_perm _).map _
  · -- A type that is found in fewer steps would be the end of the chain, which takes all of them.
    by_contra found
    obtain ⟨other, found⟩ := Option.ne_none_iff_exists'.mp found
    have whole := (follows.found _ _).mpr ⟨_, path, last⟩
    obtain rfl := Option.some.inj ((follows.enough _ _ _ found).symm.trans whole)
    have short := (steps _).mp found
    rw [length, List.length_map, List.length_reverse, List.length_range] at short
    exact Nat.lt_irrefl count short

/--
Whatever was asked of a graph, the bound on steps cuts off no chain of typedefs that ends, and it
could not be lower: there are graphs of every size with a chain through all that is declared.
-/
theorem followsChains_ofOperations :
    (∀ operations, (ofOperations operations).FollowsChains) ∧
      ∀ count, ∃ operations a b, (ofOperations operations).users.length = count ∧
        (ofOperations operations).PassesAll a b := by
  refine ⟨fun operations => followsChains (placed_ofOperations operations).id_of_user?,
    fun count => ⟨ladder count, rung count, rung 0, ?_, passesAll_ladder count⟩⟩
  rw [(built_ladder count).2.2, List.length_map, List.length_range]

end TypeGraph
end IdlSchema
