import IdlSchema.Proofs.Constants.ClearChecks
import IdlSchema.Proofs.Types.Images

/-!
# Images of plans in another scope

A scope mirrors another one if its graph does and it has the same declarations, of images of the same
types, with the same literals.  The plan of a literal at an image of a type is the same plan with
twins for the constants, except that it is silent where the type has failed.
-/

namespace IdlSchema

open TypeGraph

/-- A field is the same as another with an image of its type. -/
structure FieldImage (loose : Prop) (graph mirror : TypeGraph) (field field' : Field Literal) :
    Prop where
  header : field'.header = field.header
  id : field'.id = field.id
  requiredness : field'.requiredness = field.requiredness
  type : Image loose graph mirror field.type field'.type
  default? : field'.default? = field.default?

/-- A typedef stands for an image of what another stands for. -/
structure TypedefImage (loose : Prop) (graph mirror : TypeGraph) (typedef typedef' : TypedefType) :
    Prop where
  header : typedef'.header = typedef.header
  id : typedef'.id = typedef.id
  target : Image loose graph mirror typedef.target typedef'.target

/-- A struct is the same as another with images of the types of its fields. -/
structure StructImage (loose : Prop) (graph mirror : TypeGraph)
    (struct struct' : StructType Literal) : Prop where
  header : struct'.header = struct.header
  file : struct'.file = struct.file
  id : struct'.id = struct.id
  kind : struct'.kind = struct.kind
  fields : List.Forall₂ (FieldImage loose graph mirror) struct.fields struct'.fields

/-- A constant is the same as another with an image of its type. -/
structure ConstantImage (loose : Prop) (graph mirror : TypeGraph)
    (constant constant' : Constant Literal) : Prop where
  header : constant'.header = constant.header
  file : constant'.file = constant.file
  type : Image loose graph mirror constant.type constant'.type
  value : constant'.value = constant.value

namespace ConstantScope

/-- The constants at two places of two scopes are the same but for their types. -/
def Twins (loose : Prop) (scope mirror : ConstantScope) (index index' : Nat) : Prop :=
  ∃ constant constant', scope.model.constants[index]? = some constant ∧
    mirror.model.constants[index']? = some constant' ∧
    ConstantImage loose scope.graph mirror.graph constant constant'

/-- A scope has the declarations of another, of images of the same types. -/
structure Mirrors (loose : Prop) (scope mirror : ConstantScope) : Prop where
  graph : TypeGraph.Mirrors loose scope.graph mirror.graph
  includes : ∀ file, mirror.files.includes file = scope.files.includes file
  qualifier : ∀ file, mirror.files.qualifier file = scope.files.qualifier file
  enums : mirror.model.enums = scope.model.enums
  enumKind : ∀ enum ∈ scope.model.enums, scope.graph.kind? enum.id = some .enum
  structs : List.Forall₂ (StructImage loose scope.graph mirror.graph) scope.model.structs
    mirror.model.structs
  structKind : ∀ struct ∈ scope.model.structs, ∃ kind,
    scope.graph.kind? struct.id = some (.struct kind)
  constantIn? : ∀ file name, Option.Rel (Twins loose scope mirror) (scope.constantIn? file name)
    (mirror.constantIn? file name)

/-- A use of a constant is the same as another at an image of its type and of a twin. -/
structure UseImage (loose : Prop) (scope mirror : ConstantScope) (use use' : Reference) :
    Prop where
  expected : Image loose scope.graph mirror.graph use.expected use'.expected
  location : use'.location = use.location
  name : use'.name = use.name
  twins : Twins loose scope mirror use.index use'.index

end ConstantScope

/-- A plan is the same as another with related uses, or silent where something may have failed. -/
inductive Plan.Image (loose : Prop) (related : Reference → Reference → Prop) :
    {α : Type} → Plan α → Plan α → Prop where
  | value {α : Type} (a : α) : Image loose related (.value a) (.value a)
  | silent {α : Type} : Image loose related (.silent : Plan α) .silent
  | failed {α : Type} (plan : Plan α) : loose → Image loose related plan .silent
  | refuse {α : Type} (problem problem' : Diagnostic) :
      Image loose related (.refuse problem : Plan α) (.refuse problem')
  | refer {use use' : Reference} : related use use' →
      Image loose related (.refer use) (.refer use')
  | both {α β γ : Type} (combine : β → γ → α) {first first' : Plan β} {second second' : Plan γ} :
      Image loose related first first' → Image loose related second second' →
      Image loose related (.both combine first second) (.both combine first' second')

namespace ConstantScope

variable {loose : Prop} {scope mirror : ConstantScope} {expected expected' actual actual' : TypeId}

namespace Mirrors

/-! ## What is read off types -/

section

variable (mirrors : Mirrors loose scope mirror)

include mirrors

theorem checkedType?_eq_none
    (image : Image loose scope.graph mirror.graph expected expected')
    (absent : scope.checkedType? expected = none) : mirror.checkedType? expected' = none := by
  rw [checkedType?, Option.filter_eq_none_iff] at absent ⊢
  intro actual' found'
  cases found : scope.graph.trueType expected with
  | none =>
      rw [mirrors.graph.trueType_eq_none image found] at found'
      cases found'
  | some actual =>
      have invalid := absent actual found
      rw [bne_iff_ne, not_not] at invalid
      subst invalid
      obtain ⟨actual'', found'', image'⟩ := mirrors.graph.trueType image found
      obtain rfl := Option.some.inj (found'.symm.trans found'')
      rw [mirrors.graph.image_invalid image' mirrors.graph.wellFormed.invalid]
      simp

theorem checkedType?_eq_some
    (image : Image loose scope.graph mirror.graph expected expected')
    (found : scope.checkedType? expected = some actual) :
    (loose ∧ mirror.checkedType? expected' = none) ∨
      ∃ actual', mirror.checkedType? expected' = some actual' ∧ actual' ≠ .invalid ∧
        Image loose scope.graph mirror.graph actual actual' := by
  obtain ⟨behind, valid⟩ := checkedType?_eq_some_iff.mp found
  obtain ⟨actual', behind', image'⟩ := mirrors.graph.trueType image behind
  by_cases failed : actual' = .invalid
  · subst failed
    have allowed : loose := by
      by_contra strict
      have same := image'.weakens.eq strict
      rw [expression_invalid mirrors.graph.wellFormed'.invalid] at same
      exact valid (mirrors.graph.wellFormed.eq_of_expression_invalid image'.inside same)
    refine .inl ⟨allowed, ?_⟩
    rw [checkedType?, behind']
    simp
  · exact .inr ⟨actual', checkedType?_eq_some_iff.mpr ⟨behind', failed⟩, failed, image'⟩

end

section

variable (mirrors : Mirrors loose scope mirror)
  (image : Image loose scope.graph mirror.graph actual actual') (valid : actual' ≠ .invalid)

include mirrors image valid

theorem builtin?_eq : mirror.graph.builtin? actual' = scope.graph.builtin? actual := by
  cases mirrors.graph.counterpart image valid with
  | builtin builtin =>
      simp [TypeGraph.builtin?, mirrors.graph.wellFormed.builtin, mirrors.graph.wellFormed'.builtin]
  | list found found' _ => simp [TypeGraph.builtin?, found, found']
  | set found found' _ => simp [TypeGraph.builtin?, found, found']
  | map found found' _ _ => simp [TypeGraph.builtin?, found, found']
  | user found found' => simp [TypeGraph.builtin?, found, found']

theorem eq_ofBuiltin_iff (builtin : Builtin) :
    actual' = .ofBuiltin builtin ↔ actual = .ofBuiltin builtin := by
  rw [← mirrors.graph.wellFormed'.builtin?_eq_some_iff,
    ← mirrors.graph.wellFormed.builtin?_eq_some_iff, mirrors.builtin?_eq image valid]

/-- A type that has not failed is its own image, unless it is a collection. -/
theorem eq_or_kind?_eq_none : actual' = actual ∨
    (scope.graph.kind? actual = none ∧ mirror.graph.kind? actual' = none) := by
  cases mirrors.graph.counterpart image valid with
  | builtin => exact .inl rfl
  | list found found' _ =>
      exact .inr ⟨kind?_eq_none found (by simp), kind?_eq_none found' (by simp)⟩
  | set found found' _ =>
      exact .inr ⟨kind?_eq_none found (by simp), kind?_eq_none found' (by simp)⟩
  | map found found' _ _ =>
      exact .inr ⟨kind?_eq_none found (by simp), kind?_eq_none found' (by simp)⟩
  | user => exact .inl rfl

theorem enum?_eq : mirror.model.enum? actual' = scope.model.enum? actual := by
  rw [Model.enum?, Model.enum?, mirrors.enums]
  rcases mirrors.eq_or_kind?_eq_none image valid with rfl | ⟨no_kind, no_kind'⟩
  · rfl
  · have absent {id : TypeId} (no_kind : scope.graph.kind? id = none) :
        scope.model.enums.find? (·.id == id) = none := by
      refine List.find?_eq_none.mpr fun enum member same => ?_
      rw [← eq_of_beq same, mirrors.enumKind enum member] at no_kind
      cases no_kind
    rw [absent no_kind, absent (mirrors.graph.kind? actual' ▸ no_kind')]

theorem struct?_rel : Option.Rel (StructImage loose scope.graph mirror.graph)
    (scope.model.struct? actual) (mirror.model.struct? actual') := by
  rw [Model.struct?, Model.struct?]
  rcases mirrors.eq_or_kind?_eq_none image valid with rfl | ⟨no_kind, no_kind'⟩
  · exact mirrors.structs.find?_rel fun _ _ both => congrArg (· == actual') both.id
  · have absent : scope.model.structs.find? (·.id == actual) = none := by
      refine List.find?_eq_none.mpr fun struct member same => ?_
      obtain ⟨kind, at_struct⟩ := mirrors.structKind struct member
      rw [← eq_of_beq same, at_struct] at no_kind
      cases no_kind
    have absent' : mirror.model.structs.find? (·.id == actual') = none := by
      refine List.find?_eq_none.mpr fun struct' member same => ?_
      obtain ⟨struct, struct_mem, image'⟩ := mirrors.structs.exists_of_mem_right member
      obtain ⟨kind, at_struct⟩ := mirrors.structKind struct struct_mem
      rw [← eq_of_beq same, image'.id, mirrors.graph.kind?, at_struct] at no_kind'
      cases no_kind'
    rw [absent, absent']
    exact .none

theorem structAt?_rel : Option.Rel (StructImage loose scope.graph mirror.graph)
    (scope.structAt? actual) (mirror.structAt? actual') := by
  rw [structAt?, structAt?, mirrors.enum?_eq image valid]
  cases scope.model.enum? actual with
  | none => exact mirrors.struct?_rel image valid
  | some enum => exact .none

theorem elementType?_rel : Option.Rel (Image loose scope.graph mirror.graph)
    (scope.elementType? actual) (mirror.elementType? actual') := by
  cases mirrors.graph.counterpart image valid with
  | builtin builtin =>
      simp only [elementType?, mirrors.graph.wellFormed.builtin, mirrors.graph.wellFormed'.builtin]
      exact .none
  | list found found' inner =>
      simp only [elementType?, found, found']
      exact .some inner
  | set found found' inner =>
      simp only [elementType?, found, found']
      exact .some inner
  | map found found' _ _ =>
      simp only [elementType?, found, found']
      exact .none
  | user found found' =>
      simp only [elementType?, found, found']
      exact .none

theorem entryTypes?_rel : Option.Rel (fun types types' =>
      Image loose scope.graph mirror.graph types.1 types'.1 ∧
        Image loose scope.graph mirror.graph types.2 types'.2)
    (scope.entryTypes? actual) (mirror.entryTypes? actual') := by
  cases mirrors.graph.counterpart image valid with
  | builtin builtin =>
      simp only [entryTypes?, mirrors.graph.wellFormed.builtin, mirrors.graph.wellFormed'.builtin]
      exact .none
  | list found found' _ =>
      simp only [entryTypes?, found, found']
      exact .none
  | set found found' _ =>
      simp only [entryTypes?, found, found']
      exact .none
  | map found found' key value =>
      simp only [entryTypes?, found, found']
      exact .some ⟨key, value⟩
  | user found found' =>
      simp only [entryTypes?, found, found']
      exact .none

theorem wordValue?_eq (name : String) :
    mirror.wordValue? actual' name = scope.wordValue? actual name := by
  have member (enum : EnumType) : mirror.memberName? enum name = scope.memberName? enum name := by
    rw [memberName?, memberName?]
    simp only [mirrors.qualifier]
  simp only [wordValue?, mirrors.eq_ofBuiltin_iff image valid, mirrors.enum?_eq image valid, member]

theorem scalarAt_eq (literal : Literal) :
    (mirror.scalarAt expected' actual' literal).toOption =
      (scope.scalarAt expected actual literal).toOption := by
  have integer (builtin : Builtin) (location : Location) (i : Int64) :
      (mirror.integerAt expected' builtin location i).toOption =
        (scope.integerAt expected builtin location i).toOption := by
    rw [integerAt, integerAt]
    split_ifs
    · rfl
    · rfl
    · rfl
    · cases builtin.integerRange? with
      | none => rfl
      | some range =>
          dsimp only
          split_ifs <;> rfl
  have enumerated (enum : EnumType) (location : Location) (i : Int64) :
      (mirror.memberAt expected' enum location i).toOption =
        (scope.memberAt expected enum location i).toOption := by
    rw [memberAt, memberAt]
    cases enum.memberByValue? i.toInt <;> rfl
  rw [scalarAt.eq_def, scalarAt.eq_def, mirrors.builtin?_eq image valid,
    mirrors.enum?_eq image valid]
  split
  · exact integer _ _ _
  · rfl
  · rfl
  · rfl
  · exact enumerated _ _ _
  · rfl

end

/-! ## What is looked up -/

theorem rel_findSome? {α β γ : Type} {related : β → γ → Prop} {f : α → Option β} {g : α → Option γ}
    (each : ∀ a, Option.Rel related (f a) (g a)) (list : List α) :
    Option.Rel related (list.findSome? f) (list.findSome? g) := by
  induction list with
  | nil => exact .none
  | cons a list induction =>
      rw [List.findSome?_cons, List.findSome?_cons]
      have at_a := each a
      generalize f a = result, g a = result' at at_a
      cases at_a with
      | some holds => exact .some holds
      | none => exact induction

section

variable (mirrors : Mirrors loose scope mirror)

include mirrors

theorem lookup_rel (file : FileId) (name : String) :
    Option.Rel (Twins loose scope mirror) (scope.lookup file name) (mirror.lookup file name) := by
  rw [lookup, lookup]
  simp only [mirrors.includes, mirrors.qualifier]
  split
  · exact rel_findSome? (fun included => mirrors.constantIn? included _) _
  · have here := mirrors.constantIn? file name
    have included := rel_findSome? (fun included => mirrors.constantIn? included name)
      (scope.files.includes file)
    generalize scope.constantIn? file name = found, mirror.constantIn? file name = found' at here
    cases here with
    | some twins => exact .some twins
    | none => exact included

omit mirrors

theorem field?_rel {struct struct' : StructType Literal}
    (image : StructImage loose scope.graph mirror.graph struct struct') (name : String) :
    Option.Rel (FieldImage loose scope.graph mirror.graph) (struct.field? name)
      (struct'.field? name) := by
  rw [StructType.field?, StructType.field?]
  exact image.fields.find?_rel fun field field' both =>
    congrArg (· == name) (congrArg Header.name both.header)

theorem fieldAt_cases {struct struct' : StructType Literal}
    (image : StructImage loose scope.graph mirror.graph struct struct') (key : Literal) :
    (∃ field field', scope.fieldAt expected struct key = .ok field ∧
      mirror.fieldAt expected' struct' key = .ok field' ∧
      FieldImage loose scope.graph mirror.graph field field') ∨
    ∃ problem problem', scope.fieldAt expected struct key = .error problem ∧
      mirror.fieldAt expected' struct' key = .error problem' := by
  cases key with
  | string location name =>
      have found := field?_rel image name
      simp only [fieldAt]
      generalize struct.field? name = field?, struct'.field? name = field?' at found
      cases found with
      | some image' => exact .inl ⟨_, _, rfl, rfl, image'⟩
      | none => exact .inr ⟨_, _, rfl, rfl⟩
  | _ => exact .inr ⟨_, _, rfl, rfl⟩

end

/-! ## Plans -/

theorem ofExcept_image {related : Reference → Reference → Prop}
    {result result' : Except Diagnostic ConstantValue} (same : result'.toOption = result.toOption) :
    (Plan.ofExcept result).Image loose related (Plan.ofExcept result') := by
  cases result with
  | error problem =>
      cases result' with
      | error problem' => exact .refuse problem problem'
      | ok value => cases same
  | ok value =>
      cases result' with
      | error problem' => cases same
      | ok value' =>
          obtain rfl := Option.some.inj same
          exact .value value'

theorem map_image {α β : Type} {related : Reference → Reference → Prop} (change : β → α)
    {plan plan' : Plan β} (image : plan.Image loose related plan') :
    (plan.map change).Image loose related (plan'.map change) :=
  .both _ image (.value ())

mutual

/-- The plan of a literal at an image of a type is an image of its plan at the type. -/
theorem plan (mirrors : Mirrors loose scope mirror) (file : FileId) {expected expected' : TypeId}
    (image : Image loose scope.graph mirror.graph expected expected') (literal : Literal) :
    (scope.plan file expected literal).Image loose (UseImage loose scope mirror)
      (mirror.plan file expected' literal) := by
  rw [plan.eq_def, plan.eq_def mirror]
  cases at_expected : scope.checkedType? expected with
  | none =>
      rw [mirrors.checkedType?_eq_none image at_expected]
      exact .silent
  | some actual =>
      rcases mirrors.checkedType?_eq_some image at_expected with
        ⟨allowed, failed⟩ | ⟨actual', found, valid, image'⟩
      · rw [failed]
        exact .failed _ allowed
      · rw [found]
        dsimp only
        cases literal with
        | integer location i => exact ofExcept_image (mirrors.scalarAt_eq image' valid _)
        | double location x => exact ofExcept_image (mirrors.scalarAt_eq image' valid _)
        | string location text => exact ofExcept_image (mirrors.scalarAt_eq image' valid _)
        | identifier location name =>
            dsimp only
            rw [mirrors.wordValue?_eq image' valid]
            cases scope.wordValue? actual name with
            | some value => exact .value value
            | none =>
                have looked_up := mirrors.lookup_rel file name
                generalize scope.lookup file name = found, mirror.lookup file name = found' at *
                cases looked_up with
                | some twins => exact .refer ⟨image, rfl, rfl, twins⟩
                | none => exact .refuse _ _
        | list location items =>
            dsimp only
            have elements := mirrors.elementType?_rel image' valid
            generalize scope.elementType? actual = found, mirror.elementType? actual' = found' at *
            cases elements with
            | some inner => exact map_image _ (planItems mirrors file inner items)
            | none => exact .refuse _ _
        | map location entries =>
            dsimp only
            have types := mirrors.entryTypes?_rel image' valid
            have structs := mirrors.structAt?_rel image' valid
            generalize scope.entryTypes? actual = found, mirror.entryTypes? actual' = found' at *
            cases types with
            | some inner => exact map_image _ (planEntries mirrors file inner.1 inner.2 entries)
            | none =>
                generalize scope.structAt? actual = struct?, mirror.structAt? actual' = struct?' at *
                cases structs with
                | some at_struct => exact map_image _ (planFields mirrors file at_struct entries)
                | none => exact .refuse _ _

theorem planItems (mirrors : Mirrors loose scope mirror) (file : FileId) {element element' : TypeId}
    (image : Image loose scope.graph mirror.graph element element') (items : List Literal) :
    (scope.planItems file element items).Image loose (UseImage loose scope mirror)
      (mirror.planItems file element' items) := by
  cases items with
  | nil =>
      rw [planItems.eq_def, planItems.eq_def mirror]
      exact .value []
  | cons item items =>
      rw [planItems.eq_def, planItems.eq_def mirror]
      exact .both _ (plan mirrors file image item) (planItems mirrors file image items)

theorem planEntries (mirrors : Mirrors loose scope mirror) (file : FileId)
    {key key' value value' : TypeId}
    (key_image : Image loose scope.graph mirror.graph key key')
    (value_image : Image loose scope.graph mirror.graph value value')
    (entries : List (Literal × Literal)) :
    (scope.planEntries file key value entries).Image loose (UseImage loose scope mirror)
      (mirror.planEntries file key' value' entries) := by
  match entries with
  | [] =>
      rw [planEntries.eq_def, planEntries.eq_def mirror]
      exact .value []
  | (first, second) :: entries =>
      rw [planEntries.eq_def, planEntries.eq_def mirror]
      exact .both _ (.both _ (plan mirrors file key_image first) (plan mirrors file value_image second))
        (planEntries mirrors file key_image value_image entries)

theorem planFields (mirrors : Mirrors loose scope mirror) (file : FileId)
    {expected expected' : TypeId} {struct struct' : StructType Literal}
    (image : StructImage loose scope.graph mirror.graph struct struct')
    (entries : List (Literal × Literal)) :
    (scope.planFields file expected struct entries).Image loose (UseImage loose scope mirror)
      (mirror.planFields file expected' struct' entries) := by
  match entries with
  | [] =>
      rw [planFields.eq_def, planFields.eq_def mirror]
      exact .value []
  | (key, value) :: entries =>
      rw [planFields.eq_def, planFields.eq_def mirror]
      refine .both _ ?_ (planFields mirrors file image entries)
      rcases fieldAt_cases image key with
        ⟨field, field', found, found', image'⟩ | ⟨problem, problem', refused, refused'⟩
      · have same : field'.name = field.name := congrArg Header.name image'.header
        rw [found, found']
        dsimp only
        rw [same]
        exact map_image _ (plan mirrors file image'.type value)
      · rw [refused, refused']
        exact .refuse problem problem'

end

end Mirrors
end ConstantScope
end IdlSchema
