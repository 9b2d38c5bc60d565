import IdlSchema.Proofs.Constants.MirroredValues
import IdlSchema.Proofs.Link.AlikeModels
import IdlSchema.Proofs.Link.ParallelLinks
import IdlSchema.Proofs.Types.Renumbering

/-!
# Plans in another numbering

A scope renumbers another one if its graph does and it has the same declarations in any order.
Constants have other places there, so a name is looked up to a twin.  The plan of a literal at types
that are alike is the same plan with twins for the constants and types that are alike in its values.
-/

namespace IdlSchema

open TypeGraph

/--
A plan is the same as another with related uses and related values; what is refused may be refused
in other words.
-/
inductive Plan.Alike (uses : Reference → Reference → Prop)
    (values : ConstantValue → ConstantValue → Prop) :
    {α : Type} → (α → α → Prop) → Plan α → Plan α → Prop where
  | value {α : Type} {related : α → α → Prop} {a a' : α} : related a a' →
      Alike uses values related (.value a) (.value a')
  | silent {α : Type} {related : α → α → Prop} : Alike uses values related .silent .silent
  | refuse {α : Type} {related : α → α → Prop} (problem problem' : Diagnostic) :
      Alike uses values related (.refuse problem) (.refuse problem')
  | refer {use use' : Reference} : uses use use' →
      Alike uses values values (.refer use) (.refer use')
  | both {α β γ : Type} {related : α → α → Prop} {left : β → β → Prop} {right : γ → γ → Prop}
      {combine : β → γ → α} {first first' : Plan β} {second second' : Plan γ} :
      (∀ b b' c c', left b b' → right c c' → related (combine b c) (combine b' c')) →
      Alike uses values left first first' → Alike uses values right second second' →
      Alike uses values related (.both combine first second) (.both combine first' second')

namespace ConstantScope

variable {scope scope' : ConstantScope}

/-- Types of two scopes are alike. -/
abbrev TypesAlike (scope scope' : ConstantScope) : TypeId → TypeId → Prop :=
  scope.graph.Alike scope'.graph

/-- Values are the same but for the places of the types of enum members. -/
abbrev ValuesAlike (scope scope' : ConstantScope) : ConstantValue → ConstantValue → Prop :=
  ConstantValue.Alike (scope.TypesAlike scope')

/-- The constants at two places of two scopes are the same but for the places of their types. -/
def SameAt (scope scope' : ConstantScope) (index index' : Nat) : Prop :=
  ∃ constant constant', scope.model.constants[index]? = some constant ∧
    scope'.model.constants[index']? = some constant' ∧
    Constant.Alike (scope.TypesAlike scope') Eq constant constant'

/-- The declared types of a scope have places of their own, and its constants names of their own. -/
structure Apart (scope : ConstantScope) : Prop where
  ids : ((scope.model.declaredTypes scope.files).map (·.id)).Nodup
  distinct : scope.Distinct

/-- A scope has the declarations of another, in any order and numbering. -/
structure Renumbers (scope scope' : ConstantScope) : Prop where
  graph : scope.graph.Renumbers scope'.graph
  includes : ∀ file, scope'.files.includes file = scope.files.includes file
  qualifier : ∀ file, scope'.files.qualifier file = scope.files.qualifier file
  model : scope.model.Alike (scope.TypesAlike scope') Eq scope'.model
  apart : scope.Apart
  apart' : scope'.Apart

/-- A use of a constant is the same as another, at types that are alike. -/
structure UsesAlike (scope scope' : ConstantScope) (use use' : Reference) : Prop where
  expected : scope.TypesAlike scope' use.expected use'.expected
  twins : SameAt scope scope' use.index use'.index

theorem Apart.enums (apart : scope.Apart) : (scope.model.enums.map (·.id)).Nodup := by
  have nodup := apart.ids
  simp only [Model.declaredTypes, List.map_append, List.map_map, List.append_assoc] at nodup
  exact (List.nodup_append.mp (List.nodup_append.mp nodup).2.1).1

theorem Apart.structs (apart : scope.Apart) : (scope.model.structs.map (·.id)).Nodup := by
  have nodup := apart.ids
  simp only [Model.declaredTypes, List.map_append, List.map_map, List.append_assoc] at nodup
  exact (List.nodup_append.mp (List.nodup_append.mp (List.nodup_append.mp nodup).2.1).2.1).1

namespace Renumbers

variable {expected expected' actual actual' : TypeId}

/-! ## What is read off types -/

section

variable (renumbers : scope.Renumbers scope')

include renumbers

theorem checkedType?_rel (alike : scope.TypesAlike scope' expected expected') :
    Option.Rel (scope.TypesAlike scope') (scope.checkedType? expected)
      (scope'.checkedType? expected') := by
  have both := renumbers.graph.trueType_rel alike
  rw [checkedType?, checkedType?]
  generalize scope.graph.trueType expected = found, scope'.graph.trueType expected' = found' at both
  cases both with
  | none => exact .none
  | @some a b alike' =>
      have same : (b != TypeId.invalid) = (a != TypeId.invalid) := by
        rw [Bool.eq_iff_iff, bne_iff_ne, bne_iff_ne, ne_eq, ne_eq, renumbers.graph.eq_invalid_iff alike']
      rw [Option.filter_some, Option.filter_some, same]
      split
      · exact .some alike'
      · exact .none

variable (alike : scope.TypesAlike scope' actual actual')

include alike

theorem enum?_rel : Option.Rel (EnumType.Alike (scope.TypesAlike scope'))
    (scope.model.enum? actual) (scope'.model.enum? actual') := by
  refine renumbers.model.enums.find?_rel renumbers.apart'.enums (fun _ => eq_of_beq)
    fun enum enum' both => ?_
  rw [Bool.eq_iff_iff, beq_iff_eq, beq_iff_eq, renumbers.graph.eq_iff both.id alike]

theorem struct?_rel : Option.Rel (StructType.Alike (scope.TypesAlike scope') Eq)
    (scope.model.struct? actual) (scope'.model.struct? actual') := by
  refine renumbers.model.structs.find?_rel renumbers.apart'.structs (fun _ => eq_of_beq)
    fun struct struct' both => ?_
  rw [Bool.eq_iff_iff, beq_iff_eq, beq_iff_eq, renumbers.graph.eq_iff both.id alike]

theorem structAt?_rel : Option.Rel (StructType.Alike (scope.TypesAlike scope') Eq)
    (scope.structAt? actual) (scope'.structAt? actual') := by
  have enums := renumbers.enum?_rel alike
  rw [structAt?, structAt?]
  generalize scope.model.enum? actual = enum?, scope'.model.enum? actual' = enum?' at enums
  cases enums with
  | none => exact renumbers.struct?_rel alike
  | some => exact .none

theorem elementType?_rel : Option.Rel (scope.TypesAlike scope') (scope.elementType? actual)
    (scope'.elementType? actual') := by
  obtain ⟨shape, found⟩ := exists_shape? alike.inside
  obtain ⟨shape', found', both⟩ := renumbers.graph.shape?_alike alike found
  rw [elementType?, elementType?, found, found']
  cases both with
  | list inner => exact .some inner
  | set inner => exact .some inner
  | _ => exact .none

theorem entryTypes?_rel : Option.Rel (fun types types' =>
      scope.TypesAlike scope' types.1 types'.1 ∧ scope.TypesAlike scope' types.2 types'.2)
    (scope.entryTypes? actual) (scope'.entryTypes? actual') := by
  obtain ⟨shape, found⟩ := exists_shape? alike.inside
  obtain ⟨shape', found', both⟩ := renumbers.graph.shape?_alike alike found
  rw [entryTypes?, entryTypes?, found, found']
  cases both with
  | map key value => exact .some ⟨key, value⟩
  | _ => exact .none

/-- An identifier stands for the same truth value or member. -/
theorem wordValue?_rel (name : String) : Option.Rel (scope.ValuesAlike scope')
    (scope.wordValue? actual name) (scope'.wordValue? actual' name) := by
  have enums := renumbers.enum?_rel alike
  rw [wordValue?, wordValue?]
  simp only [renumbers.graph.eq_ofBuiltin_iff alike]
  split_ifs
  · exact .some (.bool true)
  · exact .some (.bool false)
  · generalize scope.model.enum? actual = enum?, scope'.model.enum? actual' = enum?' at enums
    cases enums with
    | none => exact .none
    | @some enum enum' both =>
        have same_member : scope'.memberName? enum' name = scope.memberName? enum name := by
          rw [memberName?, memberName?, EnumType.name, both.header, both.file, renumbers.qualifier]
          rfl
        simp only [Option.bind_eq_bind, Option.bind_some, same_member, EnumType.member?, both.members]
        cases scope.memberName? enum name with
        | none => exact .none
        | some member =>
            rw [Option.bind_some, Option.bind_some]
            cases enum.members.find? (·.name == member) with
            | none => exact .none
            | some found => exact .some (.enumMember _ _ both.id)

/-- A literal without parts has the same value, if it has one. -/
theorem scalarAt_rel (literal : Literal) : Option.Rel (scope.ValuesAlike scope')
    (scope.scalarAt expected actual literal).toOption
    (scope'.scalarAt expected' actual' literal).toOption := by
  have integer (builtin : Builtin) (location : Location) (i : Int64) :
      Option.Rel (scope.ValuesAlike scope') (scope.integerAt expected builtin location i).toOption
        (scope'.integerAt expected' builtin location i).toOption := by
    rw [integerAt, integerAt]
    split_ifs
    · exact .some (.bool false)
    · exact .some (.bool true)
    · exact .some (.double _)
    · cases builtin.integerRange? with
      | none => exact .none
      | some range =>
          dsimp only
          split_ifs
          · exact .some (.integer i)
          · exact .none
  have enumerated {enum enum' : EnumType} (both : enum.Alike (scope.TypesAlike scope') enum')
      (location : Location) (i : Int64) :
      Option.Rel (scope.ValuesAlike scope') (scope.memberAt expected enum location i).toOption
        (scope'.memberAt expected' enum' location i).toOption := by
    rw [memberAt, memberAt, EnumType.memberByValue?, EnumType.memberByValue?, both.members]
    cases enum.members.find? (·.value.toInt == i.toInt) with
    | none => exact .none
    | some member => exact .some (.enumMember _ _ both.id)
  have enums := renumbers.enum?_rel alike
  rw [scalarAt.eq_def, scalarAt.eq_def, renumbers.graph.builtin?_eq alike]
  generalize scope.model.enum? actual = enum?, scope'.model.enum? actual' = enum?' at enums
  cases scope.graph.builtin? actual with
  | some builtin =>
      cases enums <;> cases literal with
      | integer location i => exact integer builtin location i
      | double _ x => cases builtin <;> first | exact .none | exact .some (.double x)
      | string _ text => cases builtin <;> first | exact .none | exact .some (.string text)
      | _ => cases builtin <;> exact .none
  | none =>
      cases enums with
      | none => cases literal <;> exact .none
      | some both =>
          cases literal with
          | integer location i => exact enumerated both location i
          | _ => exact .none

end

/-! ## What is looked up -/

section

variable (renumbers : scope.Renumbers scope')

include renumbers

theorem constantIn?_rel (file : FileId) (name : String) :
    Option.Rel (SameAt scope scope') (scope.constantIn? file name)
      (scope'.constantIn? file name) := by
  cases found : scope.constantIn? file name with
  | some index =>
      obtain ⟨constant, at_index, rfl, rfl⟩ :=
        (constantIn?_eq_some_iff renumbers.apart.distinct).mp found
      obtain ⟨constant', listed, both⟩ :=
        renumbers.model.constants.exists_of_mem_left (List.mem_of_getElem? at_index)
      obtain ⟨index', at_index'⟩ := List.getElem?_of_mem listed
      rw [(constantIn?_eq_some_iff renumbers.apart'.distinct).mpr
        ⟨constant', at_index', both.file, both.name⟩]
      exact .some ⟨constant, constant', at_index, at_index', both⟩
  | none =>
      cases found' : scope'.constantIn? file name with
      | none => exact .none
      | some index' =>
          obtain ⟨constant', at_index', rfl, rfl⟩ :=
            (constantIn?_eq_some_iff renumbers.apart'.distinct).mp found'
          obtain ⟨constant, listed, both⟩ :=
            renumbers.model.constants.exists_of_mem_right (List.mem_of_getElem? at_index')
          obtain ⟨index, at_index⟩ := List.getElem?_of_mem listed
          have again := (constantIn?_eq_some_iff renumbers.apart.distinct).mpr
            ⟨constant, at_index, both.file.symm, both.name.symm⟩
          rw [found] at again
          cases again

theorem lookup_rel (file : FileId) (name : String) :
    Option.Rel (SameAt scope scope') (scope.lookup file name) (scope'.lookup file name) := by
  rw [lookup, lookup]
  simp only [renumbers.includes, renumbers.qualifier]
  split
  · exact Mirrors.rel_findSome? (fun included => renumbers.constantIn?_rel included _) _
  · have here := renumbers.constantIn?_rel file name
    have included := Mirrors.rel_findSome? (fun included => renumbers.constantIn?_rel included name)
      (scope.files.includes file)
    generalize scope.constantIn? file name = found, scope'.constantIn? file name = found' at here
    cases here with
    | some twins => exact .some twins
    | none => exact included

end

theorem fieldAt_cases {struct struct' : StructType Literal}
    (alike : struct.Alike (scope.TypesAlike scope') Eq struct') (key : Literal) :
    (∃ field field', scope.fieldAt expected struct key = .ok field ∧
      scope'.fieldAt expected' struct' key = .ok field' ∧
      field.Alike (scope.TypesAlike scope') Eq field') ∨
    ∃ problem problem', scope.fieldAt expected struct key = .error problem ∧
      scope'.fieldAt expected' struct' key = .error problem' := by
  cases key with
  | string location name =>
      have found : Option.Rel (Field.Alike (scope.TypesAlike scope') Eq) (struct.field? name)
          (struct'.field? name) :=
        alike.fields.find?_rel fun field field' both => congrArg (· == name) both.name
      simp only [fieldAt]
      generalize struct.field? name = field?, struct'.field? name = field?' at found
      cases found with
      | some both => exact .inl ⟨_, _, rfl, rfl, both⟩
      | none => exact .inr ⟨_, _, rfl, rfl⟩
  | _ => exact .inr ⟨_, _, rfl, rfl⟩

/-! ## Plans -/

theorem alike_ofExcept {uses : Reference → Reference → Prop}
    {values : ConstantValue → ConstantValue → Prop} {result result' : Except Diagnostic ConstantValue}
    (both : Option.Rel values result.toOption result'.toOption) :
    (Plan.ofExcept result).Alike uses values values (Plan.ofExcept result') := by
  cases result with
  | error problem =>
      cases result' with
      | error problem' => exact .refuse problem problem'
      | ok value => cases both
  | ok value =>
      cases result' with
      | error problem' => cases both
      | ok value' =>
          cases both with
          | some holds => exact .value holds

theorem alike_map {α β : Type} {uses : Reference → Reference → Prop}
    {values : ConstantValue → ConstantValue → Prop} {inner : β → β → Prop} {outer : α → α → Prop}
    {change : β → α} {plan plan' : Plan β} (keeps : ∀ b b', inner b b' → outer (change b) (change b'))
    (alike : plan.Alike uses values inner plan') :
    (plan.map change).Alike uses values outer (plan'.map change) := by
  have nothing : Plan.Alike uses values (fun _ _ => True) (.value ()) (.value ()) := .value trivial
  exact .both (fun b b' _ _ holds _ => keeps b b' holds) alike nothing

/-- The entries of maps are alike if their keys and their values are. -/
def EntriesAlike (values : ConstantValue → ConstantValue → Prop)
    (entry entry' : ConstantValue × ConstantValue) : Prop :=
  values entry.1 entry'.1 ∧ values entry.2 entry'.2

/-- The fields of struct values are alike if they have the same name and values that are alike. -/
def NamedAlike (values : ConstantValue → ConstantValue → Prop)
    (field field' : String × ConstantValue) : Prop :=
  field'.1 = field.1 ∧ values field.2 field'.2

mutual

/-- A literal has plans that are alike at types that are alike. -/
theorem plan (renumbers : scope.Renumbers scope') (file : FileId) {expected expected' : TypeId}
    (alike : scope.TypesAlike scope' expected expected') (literal : Literal) :
    (scope.plan file expected literal).Alike (scope.UsesAlike scope') (scope.ValuesAlike scope')
      (scope.ValuesAlike scope') (scope'.plan file expected' literal) := by
  rw [plan.eq_def, plan.eq_def scope']
  have checked := renumbers.checkedType?_rel alike
  generalize scope.checkedType? expected = found, scope'.checkedType? expected' = found' at checked
  cases checked with
  | none => exact .silent
  | @some actual actual' alike' =>
      dsimp only
      cases literal with
      | integer location i => exact alike_ofExcept (renumbers.scalarAt_rel alike' _)
      | double location x => exact alike_ofExcept (renumbers.scalarAt_rel alike' _)
      | string location text => exact alike_ofExcept (renumbers.scalarAt_rel alike' _)
      | identifier location name =>
          dsimp only
          have words := renumbers.wordValue?_rel alike' name
          generalize scope.wordValue? actual name = word, scope'.wordValue? actual' name = word' at *
          cases words with
          | some holds => exact .value holds
          | none =>
              have looked_up := renumbers.lookup_rel file name
              generalize scope.lookup file name = found, scope'.lookup file name = found' at *
              cases looked_up with
              | some twins => exact .refer ⟨alike, twins⟩
              | none => exact .refuse _ _
      | list location items =>
          dsimp only
          have elements := renumbers.elementType?_rel alike'
          generalize scope.elementType? actual = found, scope'.elementType? actual' = found' at *
          cases elements with
          | some inner =>
              exact alike_map (fun _ _ => .list) (planItems renumbers file inner items)
          | none => exact .refuse _ _
      | map location entries =>
          dsimp only
          have types := renumbers.entryTypes?_rel alike'
          have structs := renumbers.structAt?_rel alike'
          generalize scope.entryTypes? actual = found, scope'.entryTypes? actual' = found' at *
          cases types with
          | some inner =>
              refine alike_map (fun _ _ all => ?_) (planEntries renumbers file inner.1 inner.2 entries)
              refine .map ?_ ?_
              · rw [List.forall₂_map_left_iff, List.forall₂_map_right_iff]
                exact all.imp fun _ _ => And.left
              · rw [List.forall₂_map_left_iff, List.forall₂_map_right_iff]
                exact all.imp fun _ _ => And.right
          | none =>
              generalize scope.structAt? actual = struct?, scope'.structAt? actual' = struct?' at *
              cases structs with
              | some both =>
                  refine alike_map (fun _ _ all => ?_) (planFields renumbers file both entries)
                  refine .struct (all.map_eq fun _ _ => And.left) ?_
                  rw [List.forall₂_map_left_iff, List.forall₂_map_right_iff]
                  exact all.imp fun _ _ => And.right
              | none => exact .refuse _ _

theorem planItems (renumbers : scope.Renumbers scope') (file : FileId) {element element' : TypeId}
    (alike : scope.TypesAlike scope' element element') (items : List Literal) :
    (scope.planItems file element items).Alike (scope.UsesAlike scope') (scope.ValuesAlike scope')
      (List.Forall₂ (scope.ValuesAlike scope')) (scope'.planItems file element' items) := by
  cases items with
  | nil =>
      rw [planItems.eq_def, planItems.eq_def scope']
      exact .value .nil
  | cons item items =>
      rw [planItems.eq_def, planItems.eq_def scope']
      exact .both (fun _ _ _ _ => .cons) (plan renumbers file alike item)
        (planItems renumbers file alike items)

theorem planEntries (renumbers : scope.Renumbers scope') (file : FileId)
    {key key' value value' : TypeId} (key_alike : scope.TypesAlike scope' key key')
    (value_alike : scope.TypesAlike scope' value value') (entries : List (Literal × Literal)) :
    (scope.planEntries file key value entries).Alike (scope.UsesAlike scope')
      (scope.ValuesAlike scope') (List.Forall₂ (EntriesAlike (scope.ValuesAlike scope')))
      (scope'.planEntries file key' value' entries) := by
  match entries with
  | [] =>
      rw [planEntries.eq_def, planEntries.eq_def scope']
      exact .value .nil
  | (first, second) :: entries =>
      rw [planEntries.eq_def, planEntries.eq_def scope']
      exact .both (fun _ _ _ _ => .cons)
        (.both (fun _ _ _ _ => And.intro) (plan renumbers file key_alike first)
          (plan renumbers file value_alike second))
        (planEntries renumbers file key_alike value_alike entries)

theorem planFields (renumbers : scope.Renumbers scope') (file : FileId)
    {expected expected' : TypeId} {struct struct' : StructType Literal}
    (alike : struct.Alike (scope.TypesAlike scope') Eq struct') (entries : List (Literal × Literal)) :
    (scope.planFields file expected struct entries).Alike (scope.UsesAlike scope')
      (scope.ValuesAlike scope') (List.Forall₂ (NamedAlike (scope.ValuesAlike scope')))
      (scope'.planFields file expected' struct' entries) := by
  match entries with
  | [] =>
      rw [planFields.eq_def, planFields.eq_def scope']
      exact .value .nil
  | (key, value) :: entries =>
      rw [planFields.eq_def, planFields.eq_def scope']
      refine .both (fun _ _ _ _ => .cons) ?_ (planFields renumbers file alike entries)
      rcases fieldAt_cases alike key with
        ⟨field, field', found, found', both⟩ | ⟨problem, problem', refused, refused'⟩
      · rw [found, found']
        dsimp only
        rw [both.name]
        exact alike_map (fun _ _ holds => ⟨rfl, holds⟩) (plan renumbers file both.type value)
      · rw [refused, refused']
        exact .refuse problem problem'

end

end Renumbers
end ConstantScope
end IdlSchema
