import IdlSchema.Proofs.Rules.Inheritance
import IdlSchema.Proofs.Types.Images

/-!
# Rules in a mirror

A model is weaker than another if it has the same declarations, save that types may have failed and
bases and defaults may be missing.  What is asked of types is not asked of failed ones, and what may
not be repeated is not repeated when less is there, so a weaker model keeps to all rules too.
-/

namespace IdlSchema

open Diagnostics Relation TypeGraph

/-! ## What rules ask of types -/

namespace TypeGraph.Mirrors

variable {loose : Prop} {graph mirror : TypeGraph} {a a' : TypeId}

/-- A type that has not failed has the declared type of which it is an image, if any. -/
theorem kind?_image (mirrors : Mirrors loose graph mirror) (image : Image loose graph mirror a a')
    (valid : a' ≠ .invalid) : mirror.kind? a' = graph.kind? a := by
  cases mirrors.counterpart image valid with
  | builtin builtin =>
      rw [kind?_eq_none (mirrors.wellFormed.builtin builtin) (by simp),
        kind?_eq_none (mirrors.wellFormed'.builtin builtin) (by simp)]
  | list found found' _ => rw [kind?_eq_none found (by simp), kind?_eq_none found' (by simp)]
  | set found found' _ => rw [kind?_eq_none found (by simp), kind?_eq_none found' (by simp)]
  | map found found' _ _ => rw [kind?_eq_none found (by simp), kind?_eq_none found' (by simp)]
  | user => exact mirrors.kind? a

/-- A declared type is the image of itself alone. -/
theorem eq_of_kind?_image (mirrors : Mirrors loose graph mirror)
    (image : Image loose graph mirror a a') {kind : UserTypeKind}
    (found : mirror.kind? a' = some kind) : a' = a := by
  have valid : a' ≠ .invalid := by
    rintro rfl
    rw [kind?_eq_none mirrors.wellFormed'.invalid (by simp)] at found
    cases found
  have no_collection {b : TypeId} {shape : TypeShape} (at_b : mirror.shape? b = some shape)
      (no_user : ∀ index, shape ≠ .user index) : mirror.kind? b ≠ some kind := by
    rw [kind?_eq_none at_b no_user]
    exact Option.some_ne_none kind |>.symm
  cases mirrors.counterpart image valid with
  | builtin => rfl
  | list _ at_b _ => exact absurd found (no_collection at_b (by simp))
  | set _ at_b _ => exact absurd found (no_collection at_b (by simp))
  | map _ at_b _ _ => exact absurd found (no_collection at_b (by simp))
  | user => rfl

variable (mirrors : Mirrors loose graph mirror) (image : Image loose graph mirror a a')

include mirrors image

/-- What is behind an image has failed, or it is an image of what is behind the type. -/
theorem trueType_cases {b : TypeId} (found : graph.trueType a = some b) :
    mirror.isInvalid a' = true ∨
      ∃ b', mirror.trueType a' = some b' ∧ b' ≠ .invalid ∧ Image loose graph mirror b b' := by
  obtain ⟨b', found', image'⟩ := mirrors.trueType image found
  by_cases failed : b' = .invalid
  · refine .inl ?_
    rw [isInvalid, found', failed]
    exact beq_self_eq_true _
  · exact .inr ⟨b', found', failed, image'⟩

theorem isInvalid_image (failed : graph.isInvalid a = true) : mirror.isInvalid a' = true := by
  rw [isInvalid] at failed
  cases found : graph.trueType a with
  | none => rw [isInvalid, mirrors.trueType_eq_none image found]
  | some b =>
      rw [found, beq_iff_eq] at failed
      subst failed
      rcases mirrors.trueType_cases image found with done | ⟨b', _, valid, image'⟩
      · exact done
      · exact absurd (mirrors.image_invalid image' mirrors.wellFormed.invalid) valid

theorem trueKind?_image {kind : UserTypeKind} (found : graph.trueKind? a = some kind) :
    mirror.isInvalid a' = true ∨ mirror.trueKind? a' = some kind := by
  obtain ⟨b, behind, at_b⟩ := Option.bind_eq_some_iff.mp found
  rcases mirrors.trueType_cases image behind with failed | ⟨b', behind', valid, image'⟩
  · exact .inl failed
  · exact .inr (Option.bind_eq_some_iff.mpr ⟨b', behind', (mirrors.kind?_image image' valid).trans at_b⟩)

theorem isException_image (holds : graph.isInvalid a = true ∨ graph.isException a = true) :
    mirror.isInvalid a' = true ∨ mirror.isException a' = true := by
  rcases holds with failed | is_exception
  · exact .inl (mirrors.isInvalid_image image failed)
  · exact (mirrors.trueKind?_image image (eq_of_beq is_exception)).imp_right beq_iff_eq.mpr

theorem isService_image (holds : graph.isService a = true ∨ graph.isInvalid a = true) :
    mirror.isService a' = true ∨ mirror.isInvalid a' = true := by
  rcases holds with is_service | failed
  · exact (mirrors.trueKind?_image image (eq_of_beq is_service)).symm.imp_left beq_iff_eq.mpr
  · exact .inr (mirrors.isInvalid_image image failed)

theorem isVoid_image (holds : graph.isVoid a = true ∨ graph.isInvalid a = true) :
    mirror.isVoid a' = true ∨ mirror.isInvalid a' = true := by
  rcases holds with is_void | failed
  · rcases mirrors.trueType_cases image (eq_of_beq is_void) with failed | ⟨b', behind', valid, image'⟩
    · exact .inr failed
    · refine .inl (beq_iff_eq.mpr ?_)
      rcases mirrors.image_builtin image' (mirrors.wellFormed.builtin .void) with ⟨_, failed⟩ | rfl
      · exact absurd failed valid
      · exact behind'
  · exact .inr (mirrors.isInvalid_image image failed)

end TypeGraph.Mirrors

/-! ## Weaker models -/

section

variable {ν : Type} (loose : Prop) (graph mirror : TypeGraph)

/-- A field is the same as another with an image of its type, and may lack a default. -/
structure Field.Weakens (field field' : Field ν) : Prop where
  header : field'.header = field.header
  id : field'.id = field.id
  requiredness : field'.requiredness = field.requiredness
  type : Image loose graph mirror field.type field'.type
  default? : field'.default?.isSome = true → field.default?.isSome = true

/-- A struct is the same as another but for its fields, which are weaker. -/
structure StructType.Weakens (struct struct' : StructType ν) : Prop where
  kind : struct'.kind = struct.kind
  fields : List.Forall₂ (Field.Weakens loose graph mirror) struct.fields struct'.fields

/-- A method is the same as another with images of its types, and may lack defaults. -/
structure Method.Weakens (method method' : Method ν) : Prop where
  header : method'.header = method.header
  oneWay : method'.oneWay = method.oneWay
  returnType : Image loose graph mirror method.returnType method'.returnType
  parameters : List.Forall₂ (Field.Weakens loose graph mirror) method.parameters method'.parameters
  exceptions : List.Forall₂ (Field.Weakens loose graph mirror) method.exceptions method'.exceptions

/-- A service is the same as another but for its methods, which are weaker, and may lack a base. -/
structure ServiceType.Weakens (service service' : ServiceType ν) : Prop where
  id : service'.id = service.id
  base? : ∀ base', service'.base? = some base' →
    ∃ base, service.base? = some base ∧ Image loose graph mirror base base'
  methods : List.Forall₂ (Method.Weakens loose graph mirror) service.methods service'.methods

/-- A model has the declarations of another, which are weaker. -/
structure Model.Weakens (model model' : Model ν) : Prop where
  enums : model'.enums = model.enums
  structs : List.Forall₂ (StructType.Weakens loose graph mirror) model.structs model'.structs
  services : List.Forall₂ (ServiceType.Weakens loose graph mirror) model.services model'.services
  serviceKind : ∀ service ∈ model.services, graph.kind? service.id = some .service

end

variable {ν : Type} {loose : Prop} {graph mirror : TypeGraph}

/-! ## Fields, structs and methods -/

theorem nodup_of_weakens {fields fields' : List (Field ν)}
    (weakens : List.Forall₂ (Field.Weakens loose graph mirror) fields fields')
    (nodup : (fields.map (·.id)).Nodup ∧ (fields.map (·.name)).Nodup) :
    (fields'.map (·.id)).Nodup ∧ (fields'.map (·.name)).Nodup := by
  have same_ids : fields'.map (·.id) = fields.map (·.id) :=
    weakens.map_eq fun _ _ weaker => weaker.id
  have same_names : fields'.map (·.name) = fields.map (·.name) :=
    weakens.map_eq fun _ _ weaker => congrArg Header.name weaker.header
  rwa [same_ids, same_names]

theorem countP_default?_le {fields fields' : List (Field ν)}
    (weakens : List.Forall₂ (Field.Weakens loose graph mirror) fields fields') :
    fields'.countP (·.default?.isSome) ≤ fields.countP (·.default?.isSome) := by
  induction weakens with
  | nil => exact Nat.le_refl 0
  | @cons field field' _ _ first _ induction =>
      rw [List.countP_cons, List.countP_cons]
      refine Nat.add_le_add induction ?_
      by_cases given : field'.default?.isSome = true
      · rw [if_pos given, if_pos (first.default? given)]
      · rw [if_neg given]
        exact Nat.zero_le _

theorem StructType.Weakens.clear_problems {struct struct' : StructType ν}
    (weakens : struct.Weakens loose graph mirror struct') (clear : Clear struct.problems) :
    Clear struct'.problems := by
  rw [clear_problems_iff] at clear ⊢
  refine ⟨nodup_of_weakens weakens.fields clear.1, fun is_union => ?_⟩
  obtain ⟨optional, few⟩ := clear.2 (weakens.kind ▸ is_union)
  refine ⟨fun field' member' => ?_, (countP_default?_le weakens.fields).trans few⟩
  obtain ⟨field, member, weaker⟩ := weakens.fields.exists_of_mem_right member'
  rw [Field.isRequired, weaker.requiredness]
  exact optional field member

theorem Method.Weakens.clear_problems (mirrors : TypeGraph.Mirrors loose graph mirror)
    {method method' : Method ν} (weakens : method.Weakens loose graph mirror method')
    (clear : Clear (method.problems graph)) : Clear (method'.problems mirror) := by
  rw [clear_problems_iff] at clear ⊢
  obtain ⟨⟨parameters, exceptions⟩, thrown, oneWay⟩ := clear
  refine ⟨⟨?_, ?_⟩, fun exception' member' => ?_, fun is_oneWay => ?_⟩
  · exact nodup_of_weakens weakens.parameters parameters
  · exact nodup_of_weakens weakens.exceptions exceptions
  · obtain ⟨exception, member, weaker⟩ := weakens.exceptions.exists_of_mem_right member'
    exact mirrors.isException_image weaker.type (thrown exception member)
  · obtain ⟨returns, throws_nothing⟩ := oneWay (weakens.oneWay ▸ is_oneWay)
    refine ⟨mirrors.isVoid_image weakens.returnType returns, ?_⟩
    have none_thrown := weakens.exceptions
    rw [throws_nothing] at none_thrown
    exact List.forall₂_nil_left_iff.mp none_thrown

/-! ## Services -/

namespace ServiceType

variable {services services' : List (ServiceType ν)}

theorem Weakens.methodNames_eq {service service' : ServiceType ν}
    (weakens : service.Weakens loose graph mirror service') :
    service'.methodNames = service.methodNames :=
  weakens.methods.map_eq fun _ _ weaker => congrArg Header.name weaker.header

theorem Weakens.clear_baseProblems (mirrors : TypeGraph.Mirrors loose graph mirror)
    {service service' : ServiceType ν} (weakens : service.Weakens loose graph mirror service')
    (clear : Clear (baseProblems graph service)) : Clear (baseProblems mirror service') := by
  rw [clear_baseProblems_iff] at clear ⊢
  intro base' given'
  obtain ⟨base, given, image⟩ := weakens.base? base' given'
  exact mirrors.isService_image image (clear base given)

/-- The service that a weaker service builds on, the service builds on. -/
theorem points_of_weakens (mirrors : TypeGraph.Mirrors loose graph mirror)
    (kinds : ∀ service ∈ services, graph.kind? service.id = some .service)
    (behind : ∀ id, ∃ actual, graph.trueType id = some actual)
    (weakens : List.Forall₂ (Weakens loose graph mirror) services services') {place other : Nat}
    (points : (baseGraph mirror services').Points place other) :
    (baseGraph graph services).Points place other := by
  have places (id : TypeId) : services'.findIdx? (·.id == id) = services.findIdx? (·.id == id) :=
    weakens.findIdx?_eq fun _ _ weaker => congrArg (· == id) weaker.id
  have inside := Digraph.lt_size_of_points points
  rw [Digraph.size, baseGraph, List.length_map] at inside
  have found' := List.getElem?_eq_getElem inside
  obtain ⟨service, found, weaker⟩ := weakens.flip.getElem? found'
  rw [Digraph.Points, successors_baseGraph found', Option.mem_toList, basePlace?_eq] at points
  rw [Digraph.Points, successors_baseGraph found, Option.mem_toList, basePlace?_eq]
  obtain ⟨actual', at_base', at_place⟩ := Option.bind_eq_some_iff.mp points
  obtain ⟨base', given', behind'⟩ := Option.bind_eq_some_iff.mp at_base'
  obtain ⟨base, given, image⟩ := weaker.base? base' given'
  obtain ⟨actual, at_base⟩ := behind base
  obtain ⟨actual'', again, image'⟩ := mirrors.trueType image at_base
  obtain rfl := Option.some.inj (behind'.symm.trans again)
  -- A place is that of a declared type, which has not failed and is what is behind the base.
  rw [places] at at_place
  obtain ⟨listed, same, _⟩ := List.findIdx?_eq_some_iff_getElem.mp at_place
  have kind := kinds _ (List.getElem_mem listed)
  rw [eq_of_beq same, ← mirrors.kind?] at kind
  obtain rfl := mirrors.eq_of_kind?_image image' kind
  rw [given, Option.bind_some, at_base, Option.bind_some]
  exact at_place

/-- Weaker services keep to the rules for services. -/
theorem clear_problems_of_weakens (mirrors : TypeGraph.Mirrors loose graph mirror)
    (kinds : ∀ service ∈ services, graph.kind? service.id = some .service)
    (behind : ∀ id, ∃ actual, graph.trueType id = some actual)
    (weakens : List.Forall₂ (Weakens loose graph mirror) services services')
    (clear : Clear (problems graph services)) : Clear (problems mirror services') := by
  have points {place other : Nat} := @points_of_weakens _ _ _ _ _ _ mirrors kinds behind weakens
    place other
  rw [problems, clear_append, clear_append, clear_flatMap, clear_flatMap,
    clear_cycleProblems_iff] at clear ⊢
  obtain ⟨⟨bases, acyclic⟩, methods⟩ := clear
  have leads {place other : Nat} (path : TransGen (baseGraph mirror services').Points place other) :
      TransGen (baseGraph graph services).Points place other :=
    TransGen.mono (fun _ _ => points) _ _ path
  have acyclic' : ∀ place, ¬ (baseGraph mirror services').OnCycle place :=
    fun place cycle => acyclic place (leads cycle)
  refine ⟨⟨fun service' listed' => ?_, acyclic'⟩, fun placed' listed' => ?_⟩
  · obtain ⟨service, listed, weaker⟩ := weakens.exists_of_mem_right listed'
    exact weaker.clear_baseProblems mirrors (bases service listed)
  · obtain ⟨service, found, weaker⟩ :=
      weakens.flip.getElem? (List.mem_zipIdx_iff_getElem?.mp listed')
    have at_service := clear_methodProblems_iff.mp
      (methods (service, placed'.2) (List.mem_zipIdx_iff_getElem?.mpr found))
    refine clear_methodProblems_iff.mpr ?_
    rw [weaker.methodNames_eq]
    refine ⟨at_service.1, fun other ancestor base' found_base' => ?_⟩
    obtain ⟨base, found_base, weaker_base⟩ := weakens.flip.getElem? found_base'
    rw [weaker_base.methodNames_eq]
    rw [mem_ancestors_iff (single_baseGraph mirror services') acyclic'] at ancestor
    exact at_service.2 other ((mem_ancestors_iff (single_baseGraph graph services) acyclic).mpr
      (leads ancestor)) base found_base

end ServiceType

/-- A weaker model keeps to all rules. -/
theorem Model.Weakens.clear_problems {model model' : Model ν}
    (weakens : model.Weakens loose graph mirror model')
    (mirrors : TypeGraph.Mirrors loose graph mirror)
    (behind : ∀ id, ∃ actual, graph.trueType id = some actual)
    (clear : Clear (model.problems graph)) : Clear (model'.problems mirror) := by
  rw [clear_problems_iff] at clear ⊢
  obtain ⟨structs, enums, methods, services⟩ := clear
  refine ⟨fun struct' listed' => ?_, ?_, fun service' listed' method' member' => ?_, ?_⟩
  · obtain ⟨struct, listed, weaker⟩ := weakens.structs.exists_of_mem_right listed'
    exact weaker.clear_problems (structs struct listed)
  · rw [weakens.enums]
    exact enums
  · obtain ⟨service, listed, weaker⟩ := weakens.services.exists_of_mem_right listed'
    obtain ⟨method, member, weaker_method⟩ := weaker.methods.exists_of_mem_right member'
    exact weaker_method.clear_problems mirrors (methods service listed method member)
  · exact ServiceType.clear_problems_of_weakens mirrors weakens.serviceKind behind weakens.services
      services

end IdlSchema
