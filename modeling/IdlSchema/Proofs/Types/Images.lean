import IdlSchema.Proofs.Types.SameType

/-!
# Images of types in another graph

A graph mirrors another one if it has the same declared types and its typedefs stand for the same
types, save that some of what these are made of may have failed.  A type of the first graph has the
types with the same expression as its images, or with a weaker one.  What is behind typedefs and
which types are the same carries over to images: a failure never makes a difference.
-/

namespace IdlSchema

namespace TypeExpression

/-- An expression is another one, save that parts may have failed where this is allowed. -/
inductive Weakens {ι : Type} (loose : Prop) : TypeExpression ι → TypeExpression ι → Prop where
  | builtin (builtin : Builtin) : Weakens loose (.builtin builtin) (.builtin builtin)
  | list {x y : TypeExpression ι} : Weakens loose x y → Weakens loose (.list x) (.list y)
  | set {x y : TypeExpression ι} : Weakens loose x y → Weakens loose (.set x) (.set y)
  | map {x y x' y' : TypeExpression ι} : Weakens loose x y → Weakens loose x' y' →
      Weakens loose (.map x x') (.map y y')
  | user (identity : ι) : Weakens loose (.user identity) (.user identity)
  | invalid : Weakens loose .invalid .invalid
  | failed (x : TypeExpression ι) : loose → Weakens loose x .invalid

namespace Weakens

variable {ι : Type} {loose : Prop} {x y : TypeExpression ι}

theorem refl (loose : Prop) (x : TypeExpression ι) : Weakens loose x x := by
  induction x with
  | builtin b => exact .builtin b
  | list element induction => exact .list induction
  | set element induction => exact .set induction
  | map key value induction induction' => exact .map induction induction'
  | user identity => exact .user identity
  | invalid => exact .invalid

theorem eq (weakens : Weakens loose x y) (strict : ¬ loose) : x = y := by
  induction weakens with
  | builtin => rfl
  | list _ induction => rw [induction]
  | set _ induction => rw [induction]
  | map _ _ induction induction' => rw [induction, induction']
  | user => rfl
  | invalid => rfl
  | failed _ allowed => exact absurd allowed strict

/-- A weaker expression mentions no more declared types. -/
theorem users_subset (weakens : Weakens loose x y) : y.users ⊆ x.users := by
  induction weakens with
  | builtin => simp [users]
  | list _ induction => simpa [users] using induction
  | set _ induction => simpa [users] using induction
  | map _ _ induction induction' =>
      intro identity member
      simp only [users, List.mem_append] at member ⊢
      exact member.imp (fun inner => induction inner) fun inner => induction' inner
  | user => simp [users]
  | invalid => simp [users]
  | failed => simp [users]

end Weakens
end TypeExpression

namespace TypeGraph

open Relation

/-- A type of a graph is an image of a type of another: its expression is that one or weaker. -/
structure Image (loose : Prop) (graph mirror : TypeGraph) (a b : TypeId) : Prop where
  inside : a.index < graph.size
  inside' : b.index < mirror.size
  weakens : (graph.expression a).Weakens loose (mirror.expression b)

/-- A type and an image of it that has not failed have the same form. -/
inductive Counterpart (loose : Prop) (graph mirror : TypeGraph) : TypeId → TypeId → Prop where
  | builtin (builtin : Builtin) :
      Counterpart loose graph mirror (.ofBuiltin builtin) (.ofBuiltin builtin)
  | list {a b x y : TypeId} : graph.shape? a = some (.list x) → mirror.shape? b = some (.list y) →
      Image loose graph mirror x y → Counterpart loose graph mirror a b
  | set {a b x y : TypeId} : graph.shape? a = some (.set x) → mirror.shape? b = some (.set y) →
      Image loose graph mirror x y → Counterpart loose graph mirror a b
  | map {a b x y x' y' : TypeId} : graph.shape? a = some (.map x x') →
      mirror.shape? b = some (.map y y') → Image loose graph mirror x y →
      Image loose graph mirror x' y' → Counterpart loose graph mirror a b
  | user {a : TypeId} {index index' : Nat} : graph.shape? a = some (.user index) →
      mirror.shape? a = some (.user index') → Counterpart loose graph mirror a a

/-- A graph has the declared types of another, and typedefs stand for images of their targets. -/
structure Mirrors (loose : Prop) (graph mirror : TypeGraph) : Prop where
  wellFormed : graph.WellFormed
  wellFormed' : mirror.WellFormed
  kind? : ∀ id, mirror.kind? id = graph.kind? id
  target : ∀ a b, graph.Alias a b → ∃ b', mirror.Alias a b' ∧ Image loose graph mirror b b'
  target_back : ∀ a b', mirror.Alias a b' → ∃ b, graph.Alias a b ∧ Image loose graph mirror b b'
  behind : loose → ∀ id, ∃ actual, graph.trueType id = some actual

variable {loose : Prop} {graph mirror : TypeGraph} {a b a' b' : TypeId}

theorem Image.symm (image : Image loose graph mirror a b) (strict : ¬ loose) :
    Image loose mirror graph b a where
  inside := image.inside'
  inside' := image.inside
  weakens := image.weakens.eq strict ▸ .refl loose _

namespace Mirrors

theorem symm (mirrors : Mirrors loose graph mirror) (strict : ¬ loose) :
    Mirrors loose mirror graph where
  wellFormed := mirrors.wellFormed'
  wellFormed' := mirrors.wellFormed
  kind? id := (mirrors.kind? id).symm
  target a b leads := by
    obtain ⟨b', leads', image⟩ := mirrors.target_back a b leads
    exact ⟨b', leads', image.symm strict⟩
  target_back a b leads := by
    obtain ⟨b', leads', image⟩ := mirrors.target a b leads
    exact ⟨b', leads', image.symm strict⟩
  behind allowed := absurd allowed strict

/-! ## The shapes of images -/

section

variable (mirrors : Mirrors loose graph mirror) (image : Image loose graph mirror a b)

include mirrors image

omit image in
/-- A parameter of one type that weakens to a parameter of another has it as its image. -/
theorem image_parameter {shape shape' : TypeShape} {x y : TypeId}
    (found : graph.shape? a = some shape) (found' : mirror.shape? b = some shape')
    (member : x ∈ shape.parameters) (member' : y ∈ shape'.parameters)
    (weakens : (graph.expression x).Weakens loose (mirror.expression y)) :
    Image loose graph mirror x y where
  inside := mirrors.wellFormed.parameter_lt_size found member
  inside' := mirrors.wellFormed'.parameter_lt_size found' member'
  weakens := weakens

theorem image_builtin {builtin : Builtin} (found : graph.shape? a = some (.builtin builtin)) :
    (loose ∧ b = .invalid) ∨ b = .ofBuiltin builtin := by
  have weakens := image.weakens
  rw [expression_builtin found] at weakens
  generalize at_b : mirror.expression b = expression at weakens
  cases weakens with
  | builtin => exact .inr (mirrors.wellFormed'.eq_of_expression_builtin image.inside' at_b)
  | failed _ allowed =>
      exact .inl ⟨allowed, mirrors.wellFormed'.eq_of_expression_invalid image.inside' at_b⟩

theorem image_list {x : TypeId} (found : graph.shape? a = some (.list x)) :
    (loose ∧ b = .invalid) ∨
      ∃ y, mirror.shape? b = some (.list y) ∧ Image loose graph mirror x y := by
  have weakens := image.weakens
  rw [mirrors.wellFormed.expression_list found] at weakens
  generalize at_b : mirror.expression b = expression at weakens
  cases weakens with
  | list inner =>
      obtain ⟨y, found', rfl⟩ :=
        mirrors.wellFormed'.shape?_of_expression_list image.inside' at_b
      exact .inr ⟨y, found', mirrors.image_parameter found found' (by simp) (by simp) inner⟩
  | failed _ allowed =>
      exact .inl ⟨allowed, mirrors.wellFormed'.eq_of_expression_invalid image.inside' at_b⟩

theorem image_set {x : TypeId} (found : graph.shape? a = some (.set x)) :
    (loose ∧ b = .invalid) ∨
      ∃ y, mirror.shape? b = some (.set y) ∧ Image loose graph mirror x y := by
  have weakens := image.weakens
  rw [mirrors.wellFormed.expression_set found] at weakens
  generalize at_b : mirror.expression b = expression at weakens
  cases weakens with
  | set inner =>
      obtain ⟨y, found', rfl⟩ :=
        mirrors.wellFormed'.shape?_of_expression_set image.inside' at_b
      exact .inr ⟨y, found', mirrors.image_parameter found found' (by simp) (by simp) inner⟩
  | failed _ allowed =>
      exact .inl ⟨allowed, mirrors.wellFormed'.eq_of_expression_invalid image.inside' at_b⟩

theorem image_map {x x' : TypeId} (found : graph.shape? a = some (.map x x')) :
    (loose ∧ b = .invalid) ∨ ∃ y y', mirror.shape? b = some (.map y y') ∧
      Image loose graph mirror x y ∧ Image loose graph mirror x' y' := by
  have weakens := image.weakens
  rw [mirrors.wellFormed.expression_map found] at weakens
  generalize at_b : mirror.expression b = expression at weakens
  cases weakens with
  | map inner inner' =>
      obtain ⟨y, y', found', rfl, rfl⟩ :=
        mirrors.wellFormed'.shape?_of_expression_map image.inside' at_b
      exact .inr ⟨y, y', found',
        mirrors.image_parameter found found' (by simp) (by simp) inner,
        mirrors.image_parameter found found' (by simp) (by simp) inner'⟩
  | failed _ allowed =>
      exact .inl ⟨allowed, mirrors.wellFormed'.eq_of_expression_invalid image.inside' at_b⟩

theorem image_user {index : Nat} (found : graph.shape? a = some (.user index)) :
    (loose ∧ b = .invalid) ∨ b = a := by
  have weakens := image.weakens
  rw [expression_user found] at weakens
  generalize at_b : mirror.expression b = expression at weakens
  cases weakens with
  | user => exact .inr (mirrors.wellFormed'.eq_of_expression_user image.inside' at_b).1
  | failed _ allowed =>
      exact .inl ⟨allowed, mirrors.wellFormed'.eq_of_expression_invalid image.inside' at_b⟩

theorem image_invalid (found : graph.shape? a = some .invalid) : b = .invalid := by
  have weakens := image.weakens
  rw [expression_invalid found] at weakens
  generalize at_b : mirror.expression b = expression at weakens
  cases weakens with
  | invalid => exact mirrors.wellFormed'.eq_of_expression_invalid image.inside' at_b
  | failed => exact mirrors.wellFormed'.eq_of_expression_invalid image.inside' at_b

theorem counterpart (valid : b ≠ .invalid) : Counterpart loose graph mirror a b := by
  obtain ⟨shape, found⟩ := exists_shape? image.inside
  cases shape with
  | builtin builtin =>
      obtain rfl := mirrors.wellFormed.shape?_inj (mirrors.wellFormed.builtin builtin) found
      rcases mirrors.image_builtin image found with ⟨_, failed⟩ | rfl
      · exact absurd failed valid
      · exact .builtin builtin
  | list x =>
      rcases mirrors.image_list image found with ⟨_, failed⟩ | ⟨y, found', inner⟩
      · exact absurd failed valid
      · exact .list found found' inner
  | set x =>
      rcases mirrors.image_set image found with ⟨_, failed⟩ | ⟨y, found', inner⟩
      · exact absurd failed valid
      · exact .set found found' inner
  | map x x' =>
      rcases mirrors.image_map image found with ⟨_, failed⟩ | ⟨y, y', found', key, value⟩
      · exact absurd failed valid
      · exact .map found found' key value
  | user index =>
      rcases mirrors.image_user image found with ⟨_, failed⟩ | rfl
      · exact absurd failed valid
      · obtain ⟨user, at_user⟩ := mirrors.wellFormed.exists_user? found
        have kind := mirrors.kind? b
        simp only [TypeGraph.kind?, at_user, Option.map_some, Option.map_eq_some_iff] at kind
        obtain ⟨user', at_user', _⟩ := kind
        obtain ⟨index', found', _⟩ := user?_eq_some_iff.mp at_user'
        exact .user found found'
  | invalid => exact absurd (mirrors.image_invalid image found) valid

/-- Images of types without typedefs in front have none in front either. -/
theorem kind?_image_ne_typedef (last : graph.kind? a ≠ some .typedef) :
    mirror.kind? b ≠ some .typedef := by
  have no_typedef {shape : TypeShape} (found : mirror.shape? b = some shape)
      (no_user : ∀ index, shape ≠ .user index) : mirror.kind? b ≠ some .typedef := by
    rw [kind?_eq_none found no_user]
    exact nofun
  by_cases failed : b = .invalid
  · exact no_typedef (failed ▸ mirrors.wellFormed'.invalid) (by simp)
  · cases mirrors.counterpart image failed with
    | builtin builtin => exact no_typedef (mirrors.wellFormed'.builtin builtin) (by simp)
    | list _ found' _ => exact no_typedef found' (by simp)
    | set _ found' _ => exact no_typedef found' (by simp)
    | map _ found' _ _ => exact no_typedef found' (by simp)
    | user => rwa [mirrors.kind?]

end

/-! ## What is behind typedefs -/

/-- What is behind an image is an image of what is behind the type. -/
theorem trueType (mirrors : Mirrors loose graph mirror) (image : Image loose graph mirror a a')
    (found : graph.trueType a = some b) :
    ∃ b', mirror.trueType a' = some b' ∧ Image loose graph mirror b b' := by
  obtain ⟨chain, last⟩ := mirrors.wellFormed.trueType_eq_some_iff.mp found
  clear found
  induction chain using ReflTransGen.head_induction_on generalizing a' with
  | refl => exact ⟨a', trueType_of_kind?_ne (mirrors.kind?_image_ne_typedef image last), image⟩
  | @head a c leads chain induction =>
      have ⟨user, at_user, _, _⟩ := leads
      obtain ⟨index, found, _⟩ := user?_eq_some_iff.mp at_user
      rcases mirrors.image_user image found with ⟨allowed, rfl⟩ | rfl
      · have invalid_shape := mirrors.wellFormed'.invalid
        have inside : b.index < graph.size := by
          rcases ReflTransGen.cases_tail (ReflTransGen.head leads chain) with rfl | ⟨c', _, leads'⟩
          · exact image.inside
          · obtain ⟨_, _, image'⟩ := mirrors.target c' b leads'
            exact image'.inside
        refine ⟨.invalid, trueType_of_shape? invalid_shape (by simp), inside,
          lt_size_of_shape? invalid_shape, ?_⟩
        rw [expression_invalid invalid_shape]
        exact .failed _ allowed
      · obtain ⟨c', leads', image'⟩ := mirrors.target _ c leads
        obtain ⟨b', found', image''⟩ := induction image'
        exact ⟨b', (mirrors.wellFormed'.trueType_alias leads').trans found', image''⟩

theorem trueType_eq_none (mirrors : Mirrors loose graph mirror)
    (image : Image loose graph mirror a a') (absent : graph.trueType a = none) :
    mirror.trueType a' = none := by
  have strict : ¬ loose := fun allowed => by
    obtain ⟨actual, behind⟩ := mirrors.behind allowed a
    rw [absent] at behind
    cases behind
  cases found : mirror.trueType a' with
  | none => rfl
  | some b' =>
      obtain ⟨b, found', _⟩ := (mirrors.symm strict).trueType (image.symm strict) found
      rw [absent] at found'
      cases found'

/-! ## Types that are the same -/

/-- Some types with images are the same. -/
def RelatedImages (loose : Prop) (graph mirror : TypeGraph) (a' b' : TypeId) : Prop :=
  ∃ a b, Image loose graph mirror a a' ∧ Image loose graph mirror b b' ∧ graph.Same a b

theorem agrees_invalidLeft (mirrors : Mirrors loose graph mirror)
    (related : TypeId → TypeId → Prop) (b : TypeId) : mirror.Agrees related .invalid b :=
  .invalidLeft mirrors.wellFormed'.invalid

theorem agrees_invalidRight (mirrors : Mirrors loose graph mirror)
    (related : TypeId → TypeId → Prop) (a : TypeId) : mirror.Agrees related a .invalid :=
  .invalidRight mirrors.wellFormed'.invalid

/-- Two images of one type agree. -/
theorem agrees_of_image (mirrors : Mirrors loose graph mirror)
    (image : Image loose graph mirror a a') (image' : Image loose graph mirror a b') :
    mirror.Agrees (RelatedImages loose graph mirror) a' b' := by
  have related {x y y' : TypeId} (image : Image loose graph mirror x y)
      (image' : Image loose graph mirror x y') : RelatedImages loose graph mirror y y' :=
    ⟨x, x, image, image', .refl graph x⟩
  obtain ⟨shape, found⟩ := exists_shape? image.inside
  cases shape with
  | builtin builtin =>
      rcases mirrors.image_builtin image found with ⟨_, rfl⟩ | rfl
      · exact mirrors.agrees_invalidLeft _ _
      · rcases mirrors.image_builtin image' found with ⟨_, rfl⟩ | rfl
        · exact mirrors.agrees_invalidRight _ _
        · exact .same _
  | list x =>
      rcases mirrors.image_list image found with ⟨_, rfl⟩ | ⟨y, at_a', inner⟩
      · exact mirrors.agrees_invalidLeft _ _
      · rcases mirrors.image_list image' found with ⟨_, rfl⟩ | ⟨y', at_b', inner'⟩
        · exact mirrors.agrees_invalidRight _ _
        · exact .list at_a' at_b' (related inner inner')
  | set x =>
      rcases mirrors.image_set image found with ⟨_, rfl⟩ | ⟨y, at_a', inner⟩
      · exact mirrors.agrees_invalidLeft _ _
      · rcases mirrors.image_set image' found with ⟨_, rfl⟩ | ⟨y', at_b', inner'⟩
        · exact mirrors.agrees_invalidRight _ _
        · exact .set at_a' at_b' (related inner inner')
  | map x x' =>
      rcases mirrors.image_map image found with ⟨_, rfl⟩ | ⟨y, z, at_a', key, value⟩
      · exact mirrors.agrees_invalidLeft _ _
      · rcases mirrors.image_map image' found with ⟨_, rfl⟩ | ⟨y', z', at_b', key', value'⟩
        · exact mirrors.agrees_invalidRight _ _
        · exact .map at_a' at_b' (related key key') (related value value')
  | user index =>
      rcases mirrors.image_user image found with ⟨_, rfl⟩ | rfl
      · exact mirrors.agrees_invalidLeft _ _
      · rcases mirrors.image_user image' found with ⟨_, rfl⟩ | rfl
        · exact mirrors.agrees_invalidRight _ _
        · exact .same _
  | invalid =>
      obtain rfl := mirrors.image_invalid image found
      exact mirrors.agrees_invalidLeft _ _

/-- Images of types that agree agree. -/
theorem agrees (mirrors : Mirrors loose graph mirror) (image : Image loose graph mirror a a')
    (image' : Image loose graph mirror b b') (agree : graph.Agrees graph.Same a b) :
    mirror.Agrees (RelatedImages loose graph mirror) a' b' := by
  cases agree with
  | same => exact mirrors.agrees_of_image image image'
  | invalidLeft at_a =>
      obtain rfl := mirrors.image_invalid image at_a
      exact mirrors.agrees_invalidLeft _ _
  | invalidRight at_b =>
      obtain rfl := mirrors.image_invalid image' at_b
      exact mirrors.agrees_invalidRight _ _
  | list at_a at_b inner =>
      rcases mirrors.image_list image at_a with ⟨_, rfl⟩ | ⟨x', at_a', below⟩
      · exact mirrors.agrees_invalidLeft _ _
      · rcases mirrors.image_list image' at_b with ⟨_, rfl⟩ | ⟨y', at_b', below'⟩
        · exact mirrors.agrees_invalidRight _ _
        · exact .list at_a' at_b' ⟨_, _, below, below', inner⟩
  | set at_a at_b inner =>
      rcases mirrors.image_set image at_a with ⟨_, rfl⟩ | ⟨x', at_a', below⟩
      · exact mirrors.agrees_invalidLeft _ _
      · rcases mirrors.image_set image' at_b with ⟨_, rfl⟩ | ⟨y', at_b', below'⟩
        · exact mirrors.agrees_invalidRight _ _
        · exact .set at_a' at_b' ⟨_, _, below, below', inner⟩
  | map at_a at_b key value =>
      rcases mirrors.image_map image at_a with ⟨_, rfl⟩ | ⟨x', z', at_a', below_key, below_value⟩
      · exact mirrors.agrees_invalidLeft _ _
      · rcases mirrors.image_map image' at_b with ⟨_, rfl⟩ | ⟨y', w', at_b', below_key', below_value'⟩
        · exact mirrors.agrees_invalidRight _ _
        · exact .map at_a' at_b' ⟨_, _, below_key, below_key', key⟩
            ⟨_, _, below_value, below_value', value⟩

/-- Images of types that are the same are the same. -/
theorem same (mirrors : Mirrors loose graph mirror) (image : Image loose graph mirror a a')
    (image' : Image loose graph mirror b b') (same : graph.Same a b) : mirror.Same a' b' := by
  refine ⟨RelatedImages loose graph mirror, ?_, a, b, image, image', same⟩
  rintro x' y' ⟨x, y, image, image', same⟩
  rcases same.matches with rfl | ⟨c, d, behind, behind', agree⟩
  · cases found : graph.trueType x with
    | some c =>
        obtain ⟨c', found', below⟩ := mirrors.trueType image found
        obtain ⟨d', found'', below'⟩ := mirrors.trueType image' found
        exact .inr ⟨c', d', found', found'', mirrors.agrees_of_image below below'⟩
    | none =>
        have strict : ¬ loose := fun allowed => by
          obtain ⟨actual, behind⟩ := mirrors.behind allowed x
          rw [found] at behind
          cases behind
        have equal := (image.weakens.eq strict).symm.trans (image'.weakens.eq strict)
        exact .inl (mirrors.wellFormed'.expression_inj image.inside' image'.inside' equal)
  · obtain ⟨c', found, below⟩ := mirrors.trueType image behind
    obtain ⟨d', found', below'⟩ := mirrors.trueType image' behind'
    exact .inr ⟨c', d', found, found', mirrors.agrees below below' agree⟩

theorem sameType (mirrors : Mirrors loose graph mirror) (image : Image loose graph mirror a a')
    (image' : Image loose graph mirror b b') (same : graph.sameType a b = true) :
    mirror.sameType a' b' = true := by
  rw [mirrors.wellFormed.sameType_eq_true_iff image.inside image'.inside] at same
  rw [mirrors.wellFormed'.sameType_eq_true_iff image.inside' image'.inside']
  exact mirrors.same image image' same

end Mirrors
end TypeGraph
end IdlSchema
