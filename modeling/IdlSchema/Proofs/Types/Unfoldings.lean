import IdlSchema.Proofs.StateRuns
import IdlSchema.Proofs.Types.Operations
import IdlSchema.Proofs.Types.Parts
import IdlSchema.Proofs.Types.SameType

/-!
# Types as trees without typedefs

Stripping the typedefs of a type, of its parameters, of theirs and so on unfolds the type into a
tree, which a typedef that mentions itself makes infinite.  Its leaves are built-in types and
declared types other than typedefs.  Where nothing in the tree is missing, types are the same
exactly when their trees are equal, so that it makes no difference whether a typedef or its target
is written.
-/

namespace IdlSchema

/-- What stands at the root of a type: its shape without the parameters. -/
inductive TypeRoot where
  | builtin (builtin : Builtin)
  | list
  | set
  | map
  | user (index : Nat)
  | invalid

/-- The root of a shape. -/
def TypeShape.root : TypeShape → TypeRoot
  | builtin b => .builtin b
  | list _ => .list
  | set _ => .set
  | map _ _ => .map
  | user index => .user index
  | invalid => .invalid

namespace TypeGraph

/-- The shape of what is behind a type. -/
def actualShape? (graph : TypeGraph) (id : TypeId) : Option TypeShape :=
  (graph.trueType id).bind graph.shape?

/--
The tree of a type without its typedefs: what stands at the end of each path down from the root.
A path tells at each collection which parameter it goes on with.
-/
def unfolding (graph : TypeGraph) : TypeId → List Nat → Option TypeRoot
  | id, [] => (graph.actualShape? id).map (·.root)
  | id, step :: path =>
      ((graph.actualShape? id).bind fun shape => shape.parameters[step]?).bind fun parameter =>
        graph.unfolding parameter path

/-- A typedef leads to its target, and a collection to its parameters. -/
def Leads (graph : TypeGraph) (a b : TypeId) : Prop :=
  graph.Alias a b ∨ graph.Parameter b a

/-- Wherever a type leads, no reference has failed and there is a type behind each typedef. -/
def Sound (graph : TypeGraph) (id : TypeId) : Prop :=
  ∀ other, Relation.ReflTransGen graph.Leads id other →
    other ≠ .invalid ∧ ∃ actual, graph.trueType other = some actual

/-- A type is another one in which some typedefs are replaced by their targets. -/
inductive Replaced (graph : TypeGraph) : TypeId → TypeId → Prop where
  | kept (a : TypeId) : Replaced graph a a
  | typedef {a b c : TypeId} : graph.Alias a b → Replaced graph b c → Replaced graph a c
  | list {a b x y : TypeId} : graph.shape? a = some (.list x) → graph.shape? b = some (.list y) →
      Replaced graph x y → Replaced graph a b
  | set {a b x y : TypeId} : graph.shape? a = some (.set x) → graph.shape? b = some (.set y) →
      Replaced graph x y → Replaced graph a b
  | map {a b x x' y y' : TypeId} : graph.shape? a = some (.map x x') →
      graph.shape? b = some (.map y y') → Replaced graph x y → Replaced graph x' y' →
      Replaced graph a b

variable {graph : TypeGraph} {a b c : TypeId}

/-! ## Trees -/

theorem unfolding_congr (same : graph.trueType a = graph.trueType b) :
    graph.unfolding a = graph.unfolding b := by
  funext path
  cases path <;> rw [unfolding, unfolding, actualShape?, actualShape?, same]

theorem unfolding_parameter {shape : TypeShape} (found : graph.actualShape? a = some shape)
    {step : Nat} {parameter : TypeId} (at_step : shape.parameters[step]? = some parameter)
    (path : List Nat) : graph.unfolding a (step :: path) = graph.unfolding parameter path := by
  rw [unfolding, found, Option.bind_some, at_step, Option.bind_some]

theorem unfolding_of_root {shape shape' : TypeShape} (found : graph.actualShape? a = some shape)
    (found' : graph.actualShape? b = some shape') (roots : shape'.root = shape.root)
    (parameters : List.Forall₂ (fun x y => graph.unfolding x = graph.unfolding y)
      shape.parameters shape'.parameters) :
    graph.unfolding a = graph.unfolding b := by
  funext path
  cases path with
  | nil => rw [unfolding, unfolding, found, found', Option.map_some, Option.map_some, roots]
  | cons step path =>
      cases at_step : shape.parameters[step]? with
      | some parameter =>
          obtain ⟨parameter', at_step', equal⟩ := parameters.getElem? at_step
          rw [unfolding_parameter found at_step, unfolding_parameter found' at_step', equal]
      | none =>
          have at_step' : shape'.parameters[step]? = none := by
            rwa [List.getElem?_eq_none_iff, ← parameters.length_eq, ← List.getElem?_eq_none_iff]
          rw [unfolding, unfolding, found, found', Option.bind_some, Option.bind_some, at_step,
            at_step']

theorem actualShape?_of_shape? {shape : TypeShape} (found : graph.shape? a = some shape)
    (no_user : ∀ index, shape ≠ .user index) : graph.actualShape? a = some shape := by
  rw [actualShape?, trueType_of_shape? found no_user, Option.bind_some, found]

/-! ## Sound types -/

theorem Sound.of_leads (sound : graph.Sound a) (leads : graph.Leads a b) : graph.Sound b :=
  fun other reaches => sound other (.head leads reaches)

theorem Sound.ne_invalid (sound : graph.Sound a) : a ≠ .invalid :=
  (sound a .refl).1

theorem Sound.exists_trueType (sound : graph.Sound a) :
    ∃ actual, graph.trueType a = some actual :=
  (sound a .refl).2

theorem Sound.of_trueType (sound : graph.Sound a) (wellFormed : graph.WellFormed)
    (behind : graph.trueType a = some b) : graph.Sound b := by
  intro other reaches
  refine sound other (Relation.ReflTransGen.trans ?_ reaches)
  exact Relation.ReflTransGen.mono (fun _ _ => Or.inl) _ _
    (wellFormed.trueType_eq_some_iff.mp behind).1

theorem Sound.of_collection (wellFormed : graph.WellFormed) {shape : TypeShape}
    (found : graph.shape? a = some shape) (collection : ∀ index, shape ≠ .user index)
    (valid : shape ≠ .invalid) (sound : ∀ parameter ∈ shape.parameters, graph.Sound parameter) :
    graph.Sound a := by
  intro other reaches
  rcases Relation.ReflTransGen.cases_head reaches with rfl | ⟨next, leads, reaches⟩
  · refine ⟨?_, a, trueType_of_shape? found collection⟩
    rintro rfl
    exact valid (Option.some.inj (found.symm.trans wellFormed.invalid))
  · rcases leads with aliased | ⟨shape', found', member⟩
    · have kind := kind?_eq_none found collection
      rw [aliased.kind?] at kind
      cases kind
    · obtain rfl := Option.some.inj (found.symm.trans found')
      exact sound next member other reaches

/-! ## Types that agree have the same root -/

/-- Types that agree, and are no placeholders, have the same root and parameters that are related. -/
theorem Agrees.parameters {related : TypeId → TypeId → Prop} (agrees : graph.Agrees related a b)
    (wellFormed : graph.WellFormed) (refl : ∀ id, related id id) (valid : a ≠ .invalid)
    (valid' : b ≠ .invalid) {shape : TypeShape} (found : graph.shape? a = some shape) :
    ∃ shape', graph.shape? b = some shape' ∧ shape'.root = shape.root ∧
      List.Forall₂ related shape.parameters shape'.parameters := by
  cases agrees with
  | same => exact ⟨shape, found, rfl, List.forall₂_same.mpr fun id _ => refl id⟩
  | invalidLeft at_a => exact absurd (wellFormed.shape?_inj at_a wellFormed.invalid) valid
  | invalidRight at_b => exact absurd (wellFormed.shape?_inj at_b wellFormed.invalid) valid'
  | list at_a at_b inner =>
      obtain rfl := Option.some.inj (at_a.symm.trans found)
      exact ⟨_, at_b, rfl, .cons inner .nil⟩
  | set at_a at_b inner =>
      obtain rfl := Option.some.inj (at_a.symm.trans found)
      exact ⟨_, at_b, rfl, .cons inner .nil⟩
  | map at_a at_b key value =>
      obtain rfl := Option.some.inj (at_a.symm.trans found)
      exact ⟨_, at_b, rfl, .cons key (.cons value .nil)⟩

/-- Types with the same root agree if their parameters are related. -/
theorem WellFormed.agrees_of_root (wellFormed : graph.WellFormed)
    {related : TypeId → TypeId → Prop} {shape shape' : TypeShape}
    (found : graph.shape? a = some shape) (found' : graph.shape? b = some shape')
    (roots : shape'.root = shape.root)
    (parameters : List.Forall₂ related shape.parameters shape'.parameters) :
    graph.Agrees related a b := by
  cases shape <;> cases shape' <;> cases roots
  case builtin => exact wellFormed.shape?_inj found found' ▸ .same a
  case user => exact wellFormed.shape?_inj found found' ▸ .same a
  case invalid => exact .invalidLeft found
  case list =>
      obtain ⟨inner, _⟩ := List.forall₂_cons.mp parameters
      exact .list found found' inner
  case set =>
      obtain ⟨inner, _⟩ := List.forall₂_cons.mp parameters
      exact .set found found' inner
  case map =>
      obtain ⟨key, rest⟩ := List.forall₂_cons.mp parameters
      exact .map found found' key (List.forall₂_cons.mp rest).1

theorem TypeShape.length_parameters {shape shape' : TypeShape} (roots : shape'.root = shape.root) :
    shape'.parameters.length = shape.parameters.length := by
  cases shape <;> cases shape' <;> cases roots <;> rfl

/-! ## Sound types that are the same -/

theorem Agrees.symm {related : TypeId → TypeId → Prop} (agrees : graph.Agrees related a b) :
    graph.Agrees (fun x y => related y x) b a := by
  cases agrees with
  | same => exact .same a
  | invalidLeft at_a => exact .invalidRight at_a
  | invalidRight at_b => exact .invalidLeft at_b
  | list at_a at_b inner => exact .list at_b at_a inner
  | set at_a at_b inner => exact .set at_b at_a inner
  | map at_a at_b key value => exact .map at_b at_a key value

theorem Same.symm (same : graph.Same a b) : graph.Same b a := by
  obtain ⟨related, closed, holds⟩ := same
  refine ⟨fun x y => related y x, fun x y inner => ?_, holds⟩
  rcases closed y x inner with equal | ⟨y', x', behind_y, behind_x, agrees⟩
  · exact .inl equal.symm
  · exact .inr ⟨x', y', behind_x, behind_y, agrees.symm⟩

theorem Same.exists_agrees (same : graph.Same a b) (sound : graph.Sound a) :
    ∃ a' b', graph.trueType a = some a' ∧ graph.trueType b = some b' ∧
      graph.Agrees graph.Same a' b' := by
  rcases same.matches with rfl | agree
  · obtain ⟨a', behind⟩ := sound.exists_trueType
    exact ⟨a', a', behind, behind, .same a'⟩
  · exact agree

theorem Sound.parameter (sound : graph.Sound a) (wellFormed : graph.WellFormed) {shape : TypeShape}
    (found : graph.actualShape? a = some shape) {parameter : TypeId}
    (member : parameter ∈ shape.parameters) : graph.Sound parameter := by
  obtain ⟨actual, behind, at_actual⟩ := Option.bind_eq_some_iff.mp found
  exact (sound.of_trueType wellFormed behind).of_leads (.inr ⟨shape, at_actual, member⟩)

/-- Sound types that are the same have the same root and parameters that are the same. -/
theorem Same.roots (same : graph.Same a b) (wellFormed : graph.WellFormed) (sound : graph.Sound a)
    (sound' : graph.Sound b) {shape : TypeShape} (found : graph.actualShape? a = some shape) :
    ∃ shape', graph.actualShape? b = some shape' ∧ shape'.root = shape.root ∧
      List.Forall₂ graph.Same shape.parameters shape'.parameters := by
  obtain ⟨a', b', behind, behind', agrees⟩ := same.exists_agrees sound
  rw [actualShape?, behind, Option.bind_some] at found
  rw [actualShape?, behind', Option.bind_some]
  exact agrees.parameters wellFormed (.refl graph) (sound.of_trueType wellFormed behind).ne_invalid
    (sound'.of_trueType wellFormed behind').ne_invalid found

theorem Same.actualShape?_eq_none (same : graph.Same a b) (wellFormed : graph.WellFormed)
    (sound : graph.Sound a) (sound' : graph.Sound b) (absent : graph.actualShape? a = none) :
    graph.actualShape? b = none := by
  cases found' : graph.actualShape? b with
  | none => rfl
  | some shape' =>
      obtain ⟨shape, found, _⟩ := same.symm.roots wellFormed sound' sound found'
      cases absent.symm.trans found

/-- Sound types that are the same have equal trees. -/
theorem Same.unfolding_eq (same : graph.Same a b) (wellFormed : graph.WellFormed)
    (sound : graph.Sound a) (sound' : graph.Sound b) : graph.unfolding a = graph.unfolding b := by
  funext path
  induction path generalizing a b with
  | nil =>
      rw [unfolding, unfolding]
      cases found : graph.actualShape? a with
      | some shape =>
          obtain ⟨shape', found', roots, _⟩ := same.roots wellFormed sound sound' found
          rw [found', Option.map_some, Option.map_some, roots]
      | none =>
          -- Only a type outside of the graph has no root, and all that are the same have none.
          rw [same.actualShape?_eq_none wellFormed sound sound' found]
  | cons step path induction =>
      rw [unfolding, unfolding]
      cases found : graph.actualShape? a with
      | some shape =>
          obtain ⟨shape', found', _, parameters⟩ := same.roots wellFormed sound sound' found
          rw [found', Option.bind_some, Option.bind_some]
          cases at_step : shape.parameters[step]? with
          | none =>
              rw [List.getElem?_eq_none_iff, parameters.length_eq] at at_step
              rw [List.getElem?_eq_none at_step]
          | some parameter =>
              obtain ⟨parameter', at_step', related⟩ := parameters.getElem? at_step
              rw [at_step', Option.bind_some, Option.bind_some]
              exact induction related
                (sound.parameter wellFormed found (List.mem_of_getElem? at_step))
                (sound'.parameter wellFormed found' (List.mem_of_getElem? at_step'))
      | none => rw [same.actualShape?_eq_none wellFormed sound sound' found]

/-- A sound type of the graph has a shape behind its typedefs. -/
theorem Sound.exists_actual (sound : graph.Sound a) (wellFormed : graph.WellFormed)
    (targets : graph.TargetsInside) (inside : a.index < graph.size) :
    ∃ actual shape, graph.trueType a = some actual ∧ graph.shape? actual = some shape ∧
      graph.actualShape? a = some shape := by
  obtain ⟨actual, behind⟩ := sound.exists_trueType
  obtain ⟨shape, found⟩ := exists_shape? (wellFormed.lt_size_of_trueType targets inside behind)
  exact ⟨actual, shape, behind, found, by rw [actualShape?, behind, Option.bind_some, found]⟩

/-- Sound types of the graph with equal trees are the same. -/
theorem same_of_unfolding_eq (wellFormed : graph.WellFormed) (targets : graph.TargetsInside)
    (inside : a.index < graph.size) (inside' : b.index < graph.size) (sound : graph.Sound a)
    (sound' : graph.Sound b) (equal : graph.unfolding a = graph.unfolding b) :
    graph.Same a b := by
  refine ⟨fun x y => (x.index < graph.size ∧ y.index < graph.size) ∧
    (graph.Sound x ∧ graph.Sound y) ∧ graph.unfolding x = graph.unfolding y, ?_,
    ⟨inside, inside'⟩, ⟨sound, sound'⟩, equal⟩
  rintro x y ⟨⟨x_inside, y_inside⟩, ⟨sound_x, sound_y⟩, equal⟩
  obtain ⟨x', shape, behind, at_x', found⟩ := sound_x.exists_actual wellFormed targets x_inside
  obtain ⟨y', shape', behind', at_y', found'⟩ := sound_y.exists_actual wellFormed targets y_inside
  have roots : shape'.root = shape.root := by
    have at_root := congrFun equal []
    rw [unfolding, unfolding, found, found', Option.map_some, Option.map_some] at at_root
    exact (Option.some.inj at_root).symm
  have length := TypeShape.length_parameters roots
  refine .inr ⟨x', y', behind, behind', wellFormed.agrees_of_root at_x' at_y' roots ?_⟩
  refine List.forall₂_iff_get.mpr ⟨length.symm, fun step inside inside' => ?_⟩
  have at_step := List.getElem?_eq_getElem inside
  have at_step' := List.getElem?_eq_getElem inside'
  refine ⟨⟨?_, ?_⟩, ⟨?_, ?_⟩, funext fun path => ?_⟩
  · exact wellFormed.parameter_lt_size at_x' (List.getElem_mem inside)
  · exact wellFormed.parameter_lt_size at_y' (List.getElem_mem inside')
  · exact sound_x.parameter wellFormed found (List.getElem_mem inside)
  · exact sound_y.parameter wellFormed found' (List.getElem_mem inside')
  · exact (unfolding_parameter found at_step path).symm.trans
      ((congrFun equal (step :: path)).trans (unfolding_parameter found' at_step' path))

/-- A sound type of the graph that is the same as a sound one is the same as all that one is. -/
theorem Same.trans_of_sound (first : graph.Same a b) (second : graph.Same b c)
    (wellFormed : graph.WellFormed) (targets : graph.TargetsInside)
    (inside : a.index < graph.size) (sound : graph.Sound a) (sound' : graph.Sound b) :
    graph.Same a c := by
  refine ⟨fun x z => ∃ y, x.index < graph.size ∧ graph.Sound x ∧ graph.Sound y ∧
    graph.Same x y ∧ graph.Same y z, ?_, b, inside, sound, sound', first, second⟩
  rintro x z ⟨y, x_inside, sound_x, sound_y, first, second⟩
  obtain ⟨x', shape, behind_x, at_x', found⟩ := sound_x.exists_actual wellFormed targets x_inside
  obtain ⟨shape', found', roots, parameters⟩ := first.roots wellFormed sound_x sound_y found
  obtain ⟨y', z', behind_y, behind_z, agrees⟩ := second.exists_agrees sound_y
  rw [actualShape?, behind_y, Option.bind_some] at found'
  refine .inr ⟨x', z', behind_x, behind_z, ?_⟩
  by_cases valid : z' = .invalid
  · exact .invalidRight (valid ▸ wellFormed.invalid)
  · obtain ⟨shape'', at_z', roots', parameters'⟩ := agrees.parameters wellFormed (.refl graph)
      (sound_y.of_trueType wellFormed behind_y).ne_invalid valid found'
    refine wellFormed.agrees_of_root at_x' at_z' (roots'.trans roots) ?_
    refine List.forall₂_iff_get.mpr
      ⟨parameters.length_eq.trans parameters'.length_eq, fun step inside inside'' => ?_⟩
    have inside' : step < shape'.parameters.length := parameters.length_eq ▸ inside
    refine ⟨shape'.parameters[step], ?_, ?_, ?_, ?_, ?_⟩
    · exact wellFormed.parameter_lt_size at_x' (List.getElem_mem inside)
    · exact sound_x.parameter wellFormed found (List.getElem_mem inside)
    · exact (sound_y.of_trueType wellFormed behind_y).of_leads
        (.inr ⟨shape', found', List.getElem_mem inside'⟩)
    · exact parameters.get inside inside'
    · exact parameters'.get inside' inside''

/-! ## Replacing typedefs by their targets -/

namespace Replaced

theorem lt_size (replaced : graph.Replaced a b) (targets : graph.TargetsInside)
    (inside : a.index < graph.size) : b.index < graph.size := by
  induction replaced with
  | kept => exact inside
  | typedef aliased _ induction => exact induction (targets _ _ aliased)
  | list _ at_b => exact lt_size_of_shape? at_b
  | set _ at_b => exact lt_size_of_shape? at_b
  | map _ at_b => exact lt_size_of_shape? at_b

theorem sound (replaced : graph.Replaced a b) (wellFormed : graph.WellFormed)
    (sound : graph.Sound a) : graph.Sound b := by
  induction replaced with
  | kept => exact sound
  | typedef aliased _ induction => exact induction (sound.of_leads (.inl aliased))
  | list at_a at_b _ induction =>
      refine .of_collection wellFormed at_b (by simp) (by simp) ?_
      simpa using induction (sound.of_leads (.inr ⟨_, at_a, by simp⟩))
  | set at_a at_b _ induction =>
      refine .of_collection wellFormed at_b (by simp) (by simp) ?_
      simpa using induction (sound.of_leads (.inr ⟨_, at_a, by simp⟩))
  | map at_a at_b _ _ induction induction' =>
      refine .of_collection wellFormed at_b (by simp) (by simp) ?_
      simpa using ⟨induction (sound.of_leads (.inr ⟨_, at_a, by simp⟩)),
        induction' (sound.of_leads (.inr ⟨_, at_a, by simp⟩))⟩

theorem unfolding_eq (replaced : graph.Replaced a b) (wellFormed : graph.WellFormed) :
    graph.unfolding a = graph.unfolding b := by
  induction replaced with
  | kept => rfl
  | typedef aliased _ induction =>
      exact (unfolding_congr (wellFormed.trueType_alias aliased)).trans induction
  | list at_a at_b _ induction =>
      exact unfolding_of_root (actualShape?_of_shape? at_a (by simp))
        (actualShape?_of_shape? at_b (by simp)) rfl (.cons induction .nil)
  | set at_a at_b _ induction =>
      exact unfolding_of_root (actualShape?_of_shape? at_a (by simp))
        (actualShape?_of_shape? at_b (by simp)) rfl (.cons induction .nil)
  | map at_a at_b _ _ induction induction' =>
      exact unfolding_of_root (actualShape?_of_shape? at_a (by simp))
        (actualShape?_of_shape? at_b (by simp)) rfl (.cons induction (.cons induction' .nil))

end Replaced

/-! ## The comparison of types -/

/--
The comparison of types always ends.  It is reflexive and symmetric, and for sound types it tells
whether their trees are equal, so that it is transitive there and does not see typedefs.
-/
structure ComparesUnfoldings (graph : TypeGraph) : Prop where
  ends : ∀ a b, a.index < graph.size → b.index < graph.size →
    ∃ result, graph.Compares a b [] result ∧ graph.sameType a b = result.isSome
  refl : ∀ a, a.index < graph.size → graph.sameType a a = true
  symm : ∀ a b, a.index < graph.size → b.index < graph.size →
    graph.sameType b a = graph.sameType a b
  unfolding : ∀ a b, a.index < graph.size → b.index < graph.size → graph.Sound a →
    graph.Sound b → (graph.sameType a b = true ↔ graph.unfolding a = graph.unfolding b)
  trans : ∀ a b c, a.index < graph.size → b.index < graph.size → c.index < graph.size →
    graph.Sound a → graph.Sound b → graph.sameType a b = true → graph.sameType b c = true →
    graph.sameType a c = true
  replaced : ∀ a b c, a.index < graph.size → c.index < graph.size → graph.Sound a →
    graph.Replaced a b →
    graph.sameType b c = graph.sameType a c ∧ graph.sameType c b = graph.sameType c a

theorem Built.comparesUnfoldings (built : graph.Built) : graph.ComparesUnfoldings := by
  have wellFormed := built.wellFormed
  have targets := built.targetsInside
  have symm {a b : TypeId} (a_inside : a.index < graph.size) (b_inside : b.index < graph.size) :
      graph.sameType b a = graph.sameType a b := by
    rw [Bool.eq_iff_iff, wellFormed.sameType_eq_true_iff b_inside a_inside,
      wellFormed.sameType_eq_true_iff a_inside b_inside]
    exact ⟨Same.symm, Same.symm⟩
  refine ⟨fun a b => wellFormed.compares, fun a inside => ?_, fun a b => symm, ?_, ?_, ?_⟩
  · exact (wellFormed.sameType_eq_true_iff inside inside).mpr (.refl graph a)
  · intro a b a_inside b_inside sound sound'
    rw [wellFormed.sameType_eq_true_iff a_inside b_inside]
    exact ⟨fun same => same.unfolding_eq wellFormed sound sound',
      same_of_unfolding_eq wellFormed targets a_inside b_inside sound sound'⟩
  · intro a b c a_inside b_inside c_inside sound sound'
    rw [wellFormed.sameType_eq_true_iff a_inside b_inside,
      wellFormed.sameType_eq_true_iff b_inside c_inside,
      wellFormed.sameType_eq_true_iff a_inside c_inside]
    exact fun first second =>
      first.trans_of_sound second wellFormed targets a_inside sound sound'
  · intro a b c a_inside c_inside sound replaced
    have b_inside := replaced.lt_size targets a_inside
    have sound' := replaced.sound wellFormed sound
    have same := same_of_unfolding_eq wellFormed targets a_inside b_inside sound sound'
      (replaced.unfolding_eq wellFormed)
    have answer : graph.sameType b c = graph.sameType a c := by
      rw [Bool.eq_iff_iff, wellFormed.sameType_eq_true_iff b_inside c_inside,
        wellFormed.sameType_eq_true_iff a_inside c_inside]
      exact ⟨fun same' => same.trans_of_sound same' wellFormed targets a_inside sound sound',
        fun same' => same.symm.trans_of_sound same' wellFormed targets b_inside sound' sound⟩
    exact ⟨answer, by rw [symm b_inside c_inside, answer, symm c_inside a_inside]⟩

/-- The graph of a typedef for lists of itself. -/
def nestedLists : TypeGraph :=
  let name : QualifiedName := { file := ⟨0⟩, qualifier := "", name := "Nested" }
  let declared := (declare name .typedef (.start "nested") false initial).2
  (intern (.list ⟨11⟩) declared).2.setTarget ⟨11⟩ ⟨12⟩

theorem built_nestedLists : nestedLists.Built :=
  .setTarget _ _ (.intern _ (.declare _ _ _ _ .initial) (by decide) (by simp)) (by decide)

theorem sound_nestedLists : nestedLists.Sound ⟨11⟩ := by
  intro other reaches
  have nested : other = ⟨11⟩ ∨ other = ⟨12⟩ := by
    induction reaches with
    | refl => exact .inl rfl
    | tail _ leads induction =>
        rcases leads with ⟨user, found, _, target⟩ | ⟨shape, found, member⟩
        · have aliased := (Option.bind_eq_some_iff (f := UserType.target?)).mpr ⟨user, found, target⟩
          rcases induction with rfl | rfl
          · exact .inr (Option.some.inj aliased).symm
          · cases aliased
        · rcases induction with rfl | rfl
          · obtain rfl := Option.some.inj found
            exact absurd member List.not_mem_nil
          · obtain rfl := Option.some.inj found
            exact .inl (List.mem_singleton.mp member)
  rcases nested with rfl | rfl
  · exact ⟨by decide, ⟨12⟩, by decide⟩
  · exact ⟨by decide, ⟨12⟩, by decide⟩

theorem comparesUnfoldings_nestedLists :
    nestedLists.Built ∧ nestedLists.Sound ⟨11⟩ ∧ nestedLists.ComparesUnfoldings :=
  ⟨built_nestedLists, sound_nestedLists, Built.comparesUnfoldings built_nestedLists⟩

end TypeGraph
end IdlSchema
