import IdlSchema.Proofs.StateRuns
import IdlSchema.Proofs.Types.Readings
import IdlSchema.Proofs.Types.SameType

/-!
# Types in another numbering

The places of types depend on the order in which they are declared and linked, and what they denote
does not.  Types of two graphs with the same declarations are alike if they read the same.  Each has
one type that is like it at most, and whatever is asked of types gives the same for types that are
alike.
-/

namespace IdlSchema

open Relation

namespace TypeGraph

variable {graph graph' : TypeGraph} {a b a' b' : TypeId}

/-! ## Types that are alike -/

/-- A type of a graph denotes what a type of another graph does. -/
structure Alike (graph graph' : TypeGraph) (a b : TypeId) : Prop where
  inside : a.index < graph.size
  inside' : b.index < graph'.size
  reading : graph'.reading b = graph.reading a

/-- The shapes of types that are alike. -/
inductive ShapesAlike (graph graph' : TypeGraph) : TypeShape → TypeShape → Prop where
  | builtin (builtin : Builtin) : ShapesAlike graph graph' (.builtin builtin) (.builtin builtin)
  | list {x y : TypeId} : graph.Alike graph' x y → ShapesAlike graph graph' (.list x) (.list y)
  | set {x y : TypeId} : graph.Alike graph' x y → ShapesAlike graph graph' (.set x) (.set y)
  | map {x y x' y' : TypeId} : graph.Alike graph' x y → graph.Alike graph' x' y' →
      ShapesAlike graph graph' (.map x x') (.map y y')
  | user (index index' : Nat) : ShapesAlike graph graph' (.user index) (.user index')
  | invalid : ShapesAlike graph graph' .invalid .invalid

/-- A declared type is the same as one of another graph, and stands for a type that is alike. -/
structure UsersAlike (graph graph' : TypeGraph) (user user' : UserType) : Prop where
  written : user'.written = user.written
  target? : Option.Rel (graph.Alike graph') user.target? user'.target?

/-- Two graphs declare the same, and their typedefs stand for types that are alike. -/
structure Renumbers (graph graph' : TypeGraph) : Prop where
  wellFormed : graph.WellFormed
  wellFormed' : graph'.WellFormed
  nodup : (graph.users.map (·.key)).Nodup
  nodup' : (graph'.users.map (·.key)).Nodup
  users : Corresponds (UsersAlike graph graph') graph.users graph'.users

theorem Alike.symm (alike : graph.Alike graph' a b) : graph'.Alike graph b a :=
  ⟨alike.inside', alike.inside, alike.reading.symm⟩

theorem Alike.eq_invalid_iff (alike : graph.Alike graph' a b) (wellFormed : graph.WellFormed)
    (wellFormed' : graph'.WellFormed) : b = .invalid ↔ a = .invalid := by
  rw [← wellFormed.reading_eq_invalid_iff alike.inside,
    ← wellFormed'.reading_eq_invalid_iff alike.inside', alike.reading]

theorem UsersAlike.symm {user user' : UserType} (alike : graph.UsersAlike graph' user user') :
    graph'.UsersAlike graph user' user where
  written := alike.written.symm
  target? := by
    have targets := alike.target?
    generalize user.target? = target?, user'.target? = target?' at targets ⊢
    cases targets with
    | some inner => exact .some inner.symm
    | none => exact .none

namespace Renumbers

theorem symm (renumbers : graph.Renumbers graph') : graph'.Renumbers graph where
  wellFormed := renumbers.wellFormed'
  wellFormed' := renumbers.wellFormed
  nodup := renumbers.nodup'
  nodup' := renumbers.nodup
  users := by
    obtain ⟨users, all, perm⟩ := renumbers.users.symm
    exact ⟨users, all.imp fun _ _ => UsersAlike.symm, perm⟩

section

variable (renumbers : graph.Renumbers graph')

include renumbers

theorem unique (alike : graph.Alike graph' a a') (alike' : graph.Alike graph' a b') : a' = b' :=
  renumbers.wellFormed'.reading_inj renumbers.nodup' alike.inside' alike'.inside'
    (alike.reading.trans alike'.reading.symm)

theorem unique_left (alike : graph.Alike graph' a a') (alike' : graph.Alike graph' b a') : a = b :=
  renumbers.symm.unique alike.symm alike'.symm

/-- Declared types with the same name in the same file are alike. -/
theorem alike_of_mem {user user' : UserType} (listed : user ∈ graph.users)
    (listed' : user' ∈ graph'.users) (same : user'.key = user.key) :
    graph.Alike graph' user.id user'.id := by
  obtain ⟨inside, reads⟩ := renumbers.wellFormed.reading_of_mem listed
  obtain ⟨inside', reads'⟩ := renumbers.wellFormed'.reading_of_mem listed'
  exact ⟨inside, inside', by rw [reads, reads', same]⟩

/-- Every declared type is like one of the other graph. -/
theorem exists_alike {user' : UserType} (found' : graph'.user? a' = some user') :
    ∃ a, graph.Alike graph' a a' := by
  obtain ⟨index', _, at_index'⟩ := user?_eq_some_iff.mp found'
  have listed' := List.mem_of_getElem? at_index'
  obtain ⟨user, listed, both⟩ := renumbers.users.exists_of_mem_right listed'
  rw [← renumbers.wellFormed'.id_of_user? found']
  exact ⟨user.id, renumbers.alike_of_mem listed listed' (UserType.key_eq_of_written both.written)⟩

theorem eq_iff (alike : graph.Alike graph' a a') (alike' : graph.Alike graph' b b') :
    a' = b' ↔ a = b := by
  constructor
  · rintro rfl
    exact renumbers.unique_left alike alike'
  · rintro rfl
    exact renumbers.unique alike alike'

/-- Types that are alike have the same form. -/
theorem shape?_alike (alike : graph.Alike graph' a b) {shape : TypeShape}
    (found : graph.shape? a = some shape) :
    ∃ shape', graph'.shape? b = some shape' ∧ graph.ShapesAlike graph' shape shape' := by
  obtain ⟨shape', found'⟩ := exists_shape? alike.inside'
  have same := alike.reading
  rw [renumbers.wellFormed.reading_eq found, renumbers.wellFormed'.reading_eq found'] at same
  have inside {parameter : TypeId} (member : parameter ∈ shape.parameters) :=
    renumbers.wellFormed.parameter_lt_size found member
  have inside' {parameter : TypeId} (member : parameter ∈ shape'.parameters) :=
    renumbers.wellFormed'.parameter_lt_size found' member
  refine ⟨shape', found', ?_⟩
  cases shape <;> cases shape' <;> simp only [shapeReading, reduceCtorEq] at same
  case builtin.builtin builtin builtin' =>
    obtain rfl := TypeExpression.builtin.inj same
    exact .builtin builtin'
  case list.list =>
    exact .list ⟨inside (by simp), inside' (by simp), TypeExpression.list.inj same⟩
  case set.set =>
    exact .set ⟨inside (by simp), inside' (by simp), TypeExpression.set.inj same⟩
  case map.map =>
    obtain ⟨same_key, same_value⟩ := TypeExpression.map.inj same
    exact .map ⟨inside (by simp), inside' (by simp), same_key⟩
      ⟨inside (by simp), inside' (by simp), same_value⟩
  case user.user => exact .user _ _
  case invalid.invalid => exact .invalid

/-- Types that are alike are declared alike, if they are declared. -/
theorem user?_rel (alike : graph.Alike graph' a b) :
    Option.Rel (graph.UsersAlike graph') (graph.user? a) (graph'.user? b) := by
  obtain ⟨shape, found⟩ := exists_shape? alike.inside
  obtain ⟨shape', found', both⟩ := renumbers.shape?_alike alike found
  cases both with
  | user index index' =>
      obtain ⟨user, at_a⟩ := renumbers.wellFormed.exists_user? found
      obtain ⟨user', at_b⟩ := renumbers.wellFormed'.exists_user? found'
      have same := alike.reading
      rw [renumbers.wellFormed.reading_eq found, renumbers.wellFormed'.reading_eq found',
        shapeReading, shapeReading, key_of_user? at_a, key_of_user? at_b] at same
      obtain ⟨_, _, at_index⟩ := user?_eq_some_iff.mp at_a
      obtain ⟨_, _, at_index'⟩ := user?_eq_some_iff.mp at_b
      obtain ⟨user'', listed, both⟩ :=
        renumbers.users.exists_of_mem_left (List.mem_of_getElem? at_index)
      have same_key := (UserType.key_eq_of_written both.written).trans (TypeExpression.user.inj same).symm
      obtain rfl := List.inj_on_of_nodup_map renumbers.nodup' listed
        (List.mem_of_getElem? at_index') same_key
      rw [at_a, at_b]
      exact .some both
  | _ =>
      simp only [user?, found, found']
      exact .none

theorem kind?_eq (alike : graph.Alike graph' a b) : graph'.kind? b = graph.kind? a := by
  have both := renumbers.user?_rel alike
  rw [kind?, kind?]
  generalize graph.user? a = user?, graph'.user? b = user?' at both ⊢
  cases both with
  | some users => rw [Option.map_some, Option.map_some, UserType.kind_eq_of_written users.written]
  | none => rfl

theorem builtin?_eq (alike : graph.Alike graph' a b) : graph'.builtin? b = graph.builtin? a := by
  obtain ⟨shape, found⟩ := exists_shape? alike.inside
  obtain ⟨shape', found', both⟩ := renumbers.shape?_alike alike found
  rw [builtin?, builtin?, found, found']
  cases both <;> rfl

theorem eq_ofBuiltin_iff (alike : graph.Alike graph' a b) (builtin : Builtin) :
    b = .ofBuiltin builtin ↔ a = .ofBuiltin builtin := by
  rw [← renumbers.wellFormed'.builtin?_eq_some_iff, ← renumbers.wellFormed.builtin?_eq_some_iff,
    renumbers.builtin?_eq alike]

theorem eq_invalid_iff (alike : graph.Alike graph' a b) : b = .invalid ↔ a = .invalid :=
  alike.eq_invalid_iff renumbers.wellFormed renumbers.wellFormed'

/-! ## What is behind typedefs -/

theorem exists_alias (alike : graph.Alike graph' a a') (leads : graph.Alias a b) :
    ∃ b', graph'.Alias a' b' ∧ graph.Alike graph' b b' := by
  obtain ⟨user, found, is_typedef, target⟩ := leads
  have both := renumbers.user?_rel alike
  rw [found] at both
  cases found' : graph'.user? a' with
  | none => rw [found'] at both; cases both
  | some user' =>
      rw [found'] at both
      obtain ⟨written, targets⟩ : graph.UsersAlike graph' user user' := by
        cases both
        assumption
      rw [target] at targets
      cases target' : user'.target? with
      | none => rw [target'] at targets; cases targets
      | some b' =>
          rw [target'] at targets
          refine ⟨b', ⟨user', found', ?_, target'⟩, ?_⟩
          · rw [UserType.kind_eq_of_written written, is_typedef]
          · cases targets
            assumption

theorem exists_trueType (alike : graph.Alike graph' a a') (found : graph.trueType a = some b) :
    ∃ b', graph'.trueType a' = some b' ∧ graph.Alike graph' b b' := by
  obtain ⟨chain, last⟩ := renumbers.wellFormed.trueType_eq_some_iff.mp found
  clear found
  induction chain using ReflTransGen.head_induction_on generalizing a' with
  | refl => exact ⟨a', trueType_of_kind?_ne (renumbers.kind?_eq alike ▸ last), alike⟩
  | head leads _ induction =>
      obtain ⟨c', leads', alike'⟩ := renumbers.exists_alias alike leads
      obtain ⟨b', found', alike''⟩ := induction alike'
      exact ⟨b', (renumbers.wellFormed'.trueType_alias leads').trans found', alike''⟩

theorem trueType_rel (alike : graph.Alike graph' a a') :
    Option.Rel (graph.Alike graph') (graph.trueType a) (graph'.trueType a') := by
  cases found : graph.trueType a with
  | some b =>
      obtain ⟨b', found', alike'⟩ := renumbers.exists_trueType alike found
      rw [found']
      exact .some alike'
  | none =>
      cases found' : graph'.trueType a' with
      | none => exact .none
      | some b' =>
          obtain ⟨b, again, _⟩ := renumbers.symm.exists_trueType alike.symm found'
          rw [found] at again
          cases again

theorem isVoid_eq (alike : graph.Alike graph' a a') : graph'.isVoid a' = graph.isVoid a := by
  have both := renumbers.trueType_rel alike
  rw [isVoid, isVoid]
  generalize graph.trueType a = actual?, graph'.trueType a' = actual?' at both ⊢
  cases both with
  | none => rfl
  | some alike' =>
      rw [Bool.eq_iff_iff, beq_iff_eq, beq_iff_eq, Option.some.injEq, Option.some.injEq]
      exact renumbers.eq_ofBuiltin_iff alike' .void

theorem isInvalid_eq (alike : graph.Alike graph' a a') :
    graph'.isInvalid a' = graph.isInvalid a := by
  have both := renumbers.trueType_rel alike
  rw [isInvalid, isInvalid]
  generalize graph.trueType a = actual?, graph'.trueType a' = actual?' at both ⊢
  cases both with
  | none => rfl
  | some alike' =>
      exact Bool.eq_iff_iff.mpr (by simpa using renumbers.eq_invalid_iff alike')

theorem trueKind?_eq (alike : graph.Alike graph' a a') :
    graph'.trueKind? a' = graph.trueKind? a := by
  have both := renumbers.trueType_rel alike
  rw [trueKind?, trueKind?]
  generalize graph.trueType a = actual?, graph'.trueType a' = actual?' at both ⊢
  cases both with
  | none => rfl
  | some alike' => exact renumbers.kind?_eq alike'

theorem isException_eq (alike : graph.Alike graph' a a') :
    graph'.isException a' = graph.isException a := by
  rw [isException, isException, renumbers.trueKind?_eq alike]

theorem isService_eq (alike : graph.Alike graph' a a') :
    graph'.isService a' = graph.isService a := by
  rw [isService, isService, renumbers.trueKind?_eq alike]

/-! ## Types that are the same -/

omit renumbers in
/-- Two types are like two others that are the same. -/
def LikeSame (graph graph' : TypeGraph) (a' b' : TypeId) : Prop :=
  ∃ a b, graph.Alike graph' a a' ∧ graph.Alike graph' b b' ∧ graph.Same a b

theorem agrees (alike : graph.Alike graph' a a') (alike' : graph.Alike graph' b b')
    (agree : graph.Agrees graph.Same a b) : graph'.Agrees (LikeSame graph graph') a' b' := by
  cases agree with
  | same =>
      obtain rfl := renumbers.unique alike alike'
      exact .same a'
  | invalidLeft at_a =>
      obtain ⟨_, at_a', both⟩ := renumbers.shape?_alike alike at_a
      cases both
      exact .invalidLeft at_a'
  | invalidRight at_b =>
      obtain ⟨_, at_b', both⟩ := renumbers.shape?_alike alike' at_b
      cases both
      exact .invalidRight at_b'
  | list at_a at_b inner =>
      obtain ⟨_, at_a', both⟩ := renumbers.shape?_alike alike at_a
      obtain ⟨_, at_b', both'⟩ := renumbers.shape?_alike alike' at_b
      cases both with
      | list below =>
          cases both' with
          | list below' => exact .list at_a' at_b' ⟨_, _, below, below', inner⟩
  | set at_a at_b inner =>
      obtain ⟨_, at_a', both⟩ := renumbers.shape?_alike alike at_a
      obtain ⟨_, at_b', both'⟩ := renumbers.shape?_alike alike' at_b
      cases both with
      | set below =>
          cases both' with
          | set below' => exact .set at_a' at_b' ⟨_, _, below, below', inner⟩
  | map at_a at_b key value =>
      obtain ⟨_, at_a', both⟩ := renumbers.shape?_alike alike at_a
      obtain ⟨_, at_b', both'⟩ := renumbers.shape?_alike alike' at_b
      cases both with
      | map below_key below_value =>
          cases both' with
          | map below_key' below_value' =>
              exact .map at_a' at_b' ⟨_, _, below_key, below_key', key⟩
                ⟨_, _, below_value, below_value', value⟩

theorem same (alike : graph.Alike graph' a a') (alike' : graph.Alike graph' b b')
    (same : graph.Same a b) : graph'.Same a' b' := by
  refine ⟨LikeSame graph graph', ?_, a, b, alike, alike', same⟩
  rintro x' y' ⟨x, y, alike, alike', same⟩
  rcases same.matches with rfl | ⟨c, d, behind, behind', agree⟩
  · exact .inl (renumbers.unique alike alike')
  · obtain ⟨c', found, below⟩ := renumbers.exists_trueType alike behind
    obtain ⟨d', found', below'⟩ := renumbers.exists_trueType alike' behind'
    exact .inr ⟨c', d', found, found', renumbers.agrees below below' agree⟩

theorem sameType_eq (alike : graph.Alike graph' a a') (alike' : graph.Alike graph' b b') :
    graph'.sameType a' b' = graph.sameType a b := by
  rw [Bool.eq_iff_iff, renumbers.wellFormed.sameType_eq_true_iff alike.inside alike'.inside,
    renumbers.wellFormed'.sameType_eq_true_iff alike.inside' alike'.inside']
  exact ⟨renumbers.symm.same alike.symm alike'.symm, renumbers.same alike alike'⟩

end

end Renumbers
end TypeGraph
end IdlSchema
