import IdlSchema.Proofs.Link.UnplacedModels

/-!
# Checking constants without positions

A literal has the same value wherever it stands, and it is refused for the same reasons: checking
does the same without positions.
-/

namespace IdlSchema

/-- What is known of all constants, with the problems so far without positions. -/
def CheckState.unplaced (state : CheckState) : CheckState :=
  { state with reported := state.reported.map Diagnostic.unplaced }

namespace ConstantScope

/-- All that values are checked against, without positions. -/
def unplaced (scope : ConstantScope) : ConstantScope :=
  { files := scope.files.unplaced
    graph := scope.graph.unplaced
    model := scope.model.unplaced Literal.unplaced }

/-! ## What values are checked against -/

section

variable (scope : ConstantScope)

@[simp]
theorem files_unplaced : scope.unplaced.files = scope.files.unplaced :=
  rfl

@[simp]
theorem graph_unplaced : scope.unplaced.graph = scope.graph.unplaced :=
  rfl

@[simp]
theorem enum?_unplaced (id : TypeId) :
    scope.unplaced.model.enum? id = (scope.model.enum? id).map EnumType.unplaced := by
  rw [Model.enum?, Model.enum?, unplaced, Model.unplaced, List.find?_map]
  rfl

@[simp]
theorem struct?_unplaced (id : TypeId) : scope.unplaced.model.struct? id =
    (scope.model.struct? id).map (StructType.unplaced Literal.unplaced) := by
  rw [Model.struct?, Model.struct?, unplaced, Model.unplaced, List.find?_map]
  rfl

@[simp]
theorem constants_unplaced (index : Nat) : scope.unplaced.model.constants[index]? =
    (scope.model.constants[index]?).map (Constant.unplaced Literal.unplaced) :=
  List.getElem?_map

@[simp]
theorem lookup_unplaced (file : FileId) (name : String) :
    scope.unplaced.lookup file name = scope.lookup file name := by
  have constantIn (file : FileId) (name : String) :
      scope.unplaced.constantIn? file name = scope.constantIn? file name := by
    rw [constantIn?, constantIn?, unplaced, Model.unplaced, List.findIdx?_map]
    rfl
  simp only [lookup, files_unplaced, FileTable.includes_unplaced, FileTable.qualifier_unplaced,
    constantIn]

@[simp]
theorem mismatch_unplaced (expected : TypeId) (literal : Literal) :
    scope.unplaced.mismatch expected literal.unplaced =
      (scope.mismatch expected literal).unplaced := by
  simp [mismatch]

theorem integerAt_unplaced (expected : TypeId) (builtin : Builtin) (location : Location)
    (i : Int64) : scope.unplaced.integerAt expected builtin .nowhere i =
      (scope.integerAt expected builtin location i).mapError Diagnostic.unplaced := by
  have mismatch := scope.mismatch_unplaced expected (.integer location i)
  rw [Literal.unplaced] at mismatch
  simp only [integerAt, mismatch, graph_unplaced, TypeGraph.typeName_unplaced]
  repeat' split
  all_goals rfl

theorem memberAt_unplaced (expected : TypeId) (enum : EnumType) (location : Location) (i : Int64) :
    scope.unplaced.memberAt expected enum.unplaced .nowhere i =
      (scope.memberAt expected enum location i).mapError Diagnostic.unplaced := by
  have member : enum.unplaced.memberByValue? i.toInt =
      (enum.memberByValue? i.toInt).map EnumMember.unplaced := by
    rw [EnumType.memberByValue?, EnumType.memberByValue?, EnumType.unplaced, List.find?_map]
    rfl
  rw [memberAt, memberAt, member, graph_unplaced, TypeGraph.typeName_unplaced]
  cases enum.memberByValue? i.toInt <;> rfl

theorem scalarAt_unplaced (expected actual : TypeId) (literal : Literal) :
    scope.unplaced.scalarAt expected actual literal.unplaced =
      (scope.scalarAt expected actual literal).mapError Diagnostic.unplaced := by
  have mismatch := scope.mismatch_unplaced expected literal
  have builtin : scope.unplaced.graph.builtin? actual = scope.graph.builtin? actual := rfl
  rw [scalarAt.eq_def, scalarAt.eq_def, builtin, enum?_unplaced]
  cases literal with
  | integer location i =>
      rw [Literal.unplaced] at mismatch ⊢
      cases scope.graph.builtin? actual with
      | some builtin => exact scope.integerAt_unplaced expected builtin location i
      | none =>
          cases scope.model.enum? actual with
          | some enum => exact scope.memberAt_unplaced expected enum location i
          | none => exact congrArg Except.error mismatch
  | double _ _ | string _ _ =>
      rw [Literal.unplaced] at mismatch ⊢
      cases scope.graph.builtin? actual with
      | some builtin => cases builtin <;> first | rfl | exact congrArg Except.error mismatch
      | none => cases scope.model.enum? actual <;> exact congrArg Except.error mismatch
  | identifier _ _ | list _ _ | map _ _ =>
      rw [Literal.unplaced] at mismatch ⊢
      cases scope.graph.builtin? actual with
      | some builtin => cases builtin <;> exact congrArg Except.error mismatch
      | none => cases scope.model.enum? actual <;> exact congrArg Except.error mismatch

theorem member?_unplaced (enum : EnumType) (word : String) :
    enum.unplaced.member? word = (enum.member? word).map EnumMember.unplaced := by
  rw [EnumType.member?, EnumType.member?, EnumType.unplaced, List.find?_map]
  rfl

theorem memberName?_unplaced (enum : EnumType) (name : String) :
    scope.unplaced.memberName? enum.unplaced name = scope.memberName? enum name := by
  have qualifier : scope.unplaced.files.qualifier enum.unplaced.file =
      scope.files.qualifier enum.file := scope.files.qualifier_unplaced enum.file
  rw [memberName?, memberName?, qualifier]
  rfl

theorem wordValue?_unplaced (actual : TypeId) (name : String) :
    scope.unplaced.wordValue? actual name = scope.wordValue? actual name := by
  simp only [wordValue?, enum?_unplaced, Option.bind_eq_bind, Option.bind_map, Function.comp_def,
    memberName?_unplaced, member?_unplaced]
  rfl

theorem unknownIdentifier_unplaced (expected actual : TypeId) (location : Location)
    (name : String) : scope.unplaced.unknownIdentifier expected actual .nowhere name =
      (scope.unknownIdentifier expected actual location name).unplaced := by
  rw [unknownIdentifier, unknownIdentifier, enum?_unplaced, graph_unplaced,
    TypeGraph.typeName_unplaced]
  cases scope.model.enum? actual <;> rfl

theorem wrongConstant_unplaced (expected declared : TypeId) (location : Location) (name : String) :
    scope.unplaced.wrongConstant expected declared .nowhere name =
      (scope.wrongConstant expected declared location name).unplaced := by
  simp [wrongConstant]

theorem structAt?_unplaced (actual : TypeId) : scope.unplaced.structAt? actual =
    (scope.structAt? actual).map (StructType.unplaced Literal.unplaced) := by
  rw [structAt?, structAt?, enum?_unplaced, struct?_unplaced]
  cases scope.model.enum? actual <;> rfl

theorem fieldAt_unplaced (expected : TypeId) (struct : StructType Literal) (key : Literal) :
    scope.unplaced.fieldAt expected (struct.unplaced Literal.unplaced) key.unplaced =
      ((scope.fieldAt expected struct key).mapError Diagnostic.unplaced).map
        (Field.unplaced Literal.unplaced) := by
  have field (name : String) : (struct.unplaced Literal.unplaced).field? name =
      (struct.field? name).map (Field.unplaced Literal.unplaced) := by
    rw [StructType.field?, StructType.field?, StructType.unplaced, List.find?_map]
    rfl
  have name := scope.graph.typeName_unplaced expected
  cases key with
  | string location name =>
      rw [Literal.unplaced, fieldAt, fieldAt, field, graph_unplaced, TypeGraph.typeName_unplaced]
      cases struct.field? name <;> rfl
  | _ => rw [Literal.unplaced]; rfl

@[simp]
theorem checkedType?_unplaced (expected : TypeId) :
    scope.unplaced.checkedType? expected = scope.checkedType? expected := by
  rw [checkedType?, checkedType?, graph_unplaced, TypeGraph.trueType_unplaced]

end

/-! ## Checking -/

variable {scope : ConstantScope} {demand demand' : Nat → Checking (Option ConstantValue)}

theorem follows_refuse {α : Type} (problem : Diagnostic) :
    Follows CheckState.unplaced id (Checking.refuse problem : Checking (Option α))
      (Checking.refuse problem.unplaced) := by
  refine .bind (.ofModify fun state => ?_) fun _ => .ofPure none
  simp [CheckState.unplaced]

theorem follows_settle (result : Except Diagnostic ConstantValue) :
    Follows CheckState.unplaced id (settle result)
      (settle (result.mapError Diagnostic.unplaced)) := by
  cases result with
  | ok value => exact .ofPure (some value)
  | error problem => exact follows_refuse problem

theorem follows_scalarAt (scope : ConstantScope) (expected actual : TypeId) (literal : Literal) :
    Follows CheckState.unplaced id (settle (scope.scalarAt expected actual literal))
      (settle (scope.unplaced.scalarAt expected actual literal.unplaced)) := by
  rw [scalarAt_unplaced]
  exact follows_settle _

theorem follows_stateOf (index : Nat) :
    Follows CheckState.unplaced id (Checking.stateOf index) (Checking.stateOf index) :=
  .bind .ofGet fun _ => .ofPure _

theorem follows_inline
    (demands : ∀ index, Follows CheckState.unplaced id (demand index) (demand' index))
    (expected : TypeId) (location : Location) (name : String) (index : Nat) :
    Follows CheckState.unplaced id (scope.inline demand expected location name index)
      (scope.unplaced.inline demand' expected .nowhere name index) := by
  refine .bind (follows_stateOf index) fun known => ?_
  cases known with
  | inProgress => exact follows_refuse _
  | pending | done _ =>
      refine .bind (demands index) fun value? => ?_
      rw [constants_unplaced]
      cases value? with
      | none => exact .ofPure none
      | some value =>
          cases scope.model.constants[index]? with
          | none => exact .ofPure none
          | some constant =>
              have same : scope.unplaced.graph.sameType constant.type expected =
                  scope.graph.sameType constant.type expected :=
                scope.graph.sameType_unplaced constant.type expected
              simp only [id, Option.map_some, Constant.unplaced, same,
                wrongConstant_unplaced _ _ _ location]
              split
              · exact .ofPure (some value)
              · exact follows_refuse _

theorem follows_identifierAt
    (demands : ∀ index, Follows CheckState.unplaced id (demand index) (demand' index))
    (file : FileId) (expected actual : TypeId) (location : Location) (name : String) :
    Follows CheckState.unplaced id (scope.identifierAt demand file expected actual location name)
      (scope.unplaced.identifierAt demand' file expected actual .nowhere name) := by
  rw [identifierAt, identifierAt, wordValue?_unplaced, lookup_unplaced,
    unknownIdentifier_unplaced _ _ _ location]
  cases scope.wordValue? actual name with
  | some value => exact .ofPure (some value)
  | none =>
      cases scope.lookup file name with
      | some index => exact follows_inline demands expected location name index
      | none => exact follows_refuse _

mutual

theorem follows_check
    (demands : ∀ index, Follows CheckState.unplaced id (demand index) (demand' index))
    (file : FileId) (expected : TypeId) (literal : Literal) :
    Follows CheckState.unplaced id (scope.check demand file expected literal)
      (scope.unplaced.check demand' file expected literal.unplaced) := by
  rw [check.eq_def, check.eq_def, checkedType?_unplaced]
  have mismatch := scope.mismatch_unplaced expected literal
  cases scope.checkedType? expected with
  | none => exact .ofPure none
  | some actual =>
      have scalar := scope.follows_scalarAt expected actual literal
      cases literal with
      | integer _ _ | double _ _ | string _ _ =>
          rw [Literal.unplaced] at scalar ⊢
          exact scalar
      | identifier location name =>
          rw [Literal.unplaced]
          exact follows_identifierAt demands file expected actual location name
      | list location items =>
          rw [Literal.unplaced] at mismatch ⊢
          have element : scope.unplaced.elementType? actual = scope.elementType? actual := rfl
          dsimp only
          rw [element, mismatch]
          cases scope.elementType? actual with
          | some element =>
              exact .bind (follows_checkItems demands file element items) fun _ => .ofPure _
          | none => exact follows_refuse _
      | map location entries =>
          rw [Literal.unplaced] at mismatch ⊢
          have types : scope.unplaced.entryTypes? actual = scope.entryTypes? actual := rfl
          dsimp only
          rw [types, structAt?_unplaced, mismatch]
          cases scope.entryTypes? actual with
          | some types =>
              exact .bind (follows_checkEntries demands file types.1 types.2 entries)
                fun _ => .ofPure _
          | none =>
              cases scope.structAt? actual with
              | some struct =>
                  exact .bind (follows_checkFields demands file expected struct entries)
                    fun _ => .ofPure _
              | none => exact follows_refuse _

theorem follows_checkItems
    (demands : ∀ index, Follows CheckState.unplaced id (demand index) (demand' index))
    (file : FileId) (element : TypeId) (items : List Literal) :
    Follows CheckState.unplaced id (scope.checkItems demand file element items)
      (scope.unplaced.checkItems demand' file element (Literal.itemsUnplaced items)) := by
  match items with
  | [] =>
      rw [Literal.itemsUnplaced, checkItems.eq_def, checkItems.eq_def]
      exact .ofPure (some [])
  | item :: items =>
      rw [Literal.itemsUnplaced, checkItems.eq_def, checkItems.eq_def]
      refine .bind (follows_check demands file element item) fun item? => ?_
      exact .bind (follows_checkItems demands file element items) fun items? => .ofPure _

theorem follows_checkEntries
    (demands : ∀ index, Follows CheckState.unplaced id (demand index) (demand' index))
    (file : FileId) (keyType valueType : TypeId) (entries : List (Literal × Literal)) :
    Follows CheckState.unplaced id (scope.checkEntries demand file keyType valueType entries)
      (scope.unplaced.checkEntries demand' file keyType valueType
        (Literal.entriesUnplaced entries)) := by
  match entries with
  | [] =>
      rw [Literal.entriesUnplaced, checkEntries.eq_def, checkEntries.eq_def]
      exact .ofPure (some [])
  | (key, value) :: entries =>
      rw [Literal.entriesUnplaced, checkEntries.eq_def, checkEntries.eq_def]
      refine .bind (follows_check demands file keyType key) fun key? => ?_
      refine .bind (follows_check demands file valueType value) fun value? => ?_
      exact .bind (follows_checkEntries demands file keyType valueType entries) fun entries? => .ofPure _

theorem follows_checkFields
    (demands : ∀ index, Follows CheckState.unplaced id (demand index) (demand' index))
    (file : FileId) (expected : TypeId) (struct : StructType Literal)
    (entries : List (Literal × Literal)) :
    Follows CheckState.unplaced id (scope.checkFields demand file expected struct entries)
      (scope.unplaced.checkFields demand' file expected (struct.unplaced Literal.unplaced)
        (Literal.entriesUnplaced entries)) := by
  match entries with
  | [] =>
      rw [Literal.entriesUnplaced, checkFields.eq_def, checkFields.eq_def]
      exact .ofPure (some [])
  | (key, value) :: entries =>
      rw [Literal.entriesUnplaced, checkFields.eq_def, checkFields.eq_def]
      dsimp only
      rw [fieldAt_unplaced]
      have others := follows_checkFields demands file expected struct entries
      cases scope.fieldAt expected struct key with
      | ok field =>
          refine .bind (follows_check demands file field.type value) fun value? => ?_
          exact .bind (.ofPure _) fun field? => .bind others fun fields? => .ofPure _
      | error problem =>
          refine .bind (follows_refuse problem) fun field? => ?_
          exact .bind others fun fields? => .ofPure _

end

theorem follows_valueOf (fuel index : Nat) :
    Follows CheckState.unplaced id (scope.valueOf fuel index) (scope.unplaced.valueOf fuel index) := by
  induction fuel generalizing index with
  | zero =>
      rw [valueOf.eq_def, valueOf.eq_def]
      refine .bind (follows_stateOf index) fun known => ?_
      cases known with
      | pending => exact .ofPure none
      | inProgress => exact .ofPure none
      | done value? => exact .ofPure value?
  | succ fuel induction =>
      rw [valueOf.eq_def, valueOf.eq_def]
      refine .bind (follows_stateOf index) fun known => ?_
      cases known with
      | inProgress => exact .ofPure none
      | done value? => exact .ofPure value?
      | pending =>
          dsimp only [id]
          rw [constants_unplaced]
          cases scope.model.constants[index]? with
          | none => exact .ofPure none
          | some constant =>
              refine .bind (.ofModify fun _ => rfl) fun _ => ?_
              refine .bind (follows_check induction constant.file constant.type constant.value)
                fun value? => ?_
              exact .bind (.ofModify fun _ => rfl) fun _ => .ofPure value?

/-! ## Checking a model -/

section

variable (scope : ConstantScope)

theorem fuel_unplaced : scope.unplaced.fuel = scope.fuel :=
  List.length_map ..

theorem initialState_unplaced :
    scope.unplaced.initialState = scope.initialState.unplaced := by
  rw [initialState, initialState, unplaced, Model.unplaced, List.map_map]
  rfl

theorem follows_checkDefault (file : FileId) (field : Field Literal) :
    Follows CheckState.unplaced (Field.unplaced id) (scope.checkDefault file field)
      (scope.unplaced.checkDefault file (field.unplaced Literal.unplaced)) := by
  have default : (field.unplaced Literal.unplaced).default? =
      field.default?.map Literal.unplaced := rfl
  rw [checkDefault, checkDefault, default, fuel_unplaced]
  cases field.default? with
  | none => exact .bind (.ofPure none) fun _ => .ofPure _
  | some literal =>
      refine .bind (follows_check (follows_valueOf scope.fuel) file field.type literal)
        fun value? => ?_
      have same : value?.map id = value? := Option.map_id_apply
      have follows : Follows CheckState.unplaced (Field.unplaced id) (pure
            ⟨field.header, field.id, field.requiredness, field.type, value?⟩ : Checking _)
          (pure ⟨field.header.unplaced, field.id, field.requiredness, field.type, value?.map id⟩) :=
        .ofPure _
      rw [same] at follows
      exact follows

theorem follows_checkStruct (struct : StructType Literal) :
    Follows CheckState.unplaced (StructType.unplaced id) (scope.checkStruct struct)
      (scope.unplaced.checkStruct (struct.unplaced Literal.unplaced)) :=
  .bind (.mapM fun field _ => scope.follows_checkDefault struct.file field) fun _ => .ofPure _

theorem follows_checkMethod (file : FileId) (method : Method Literal) :
    Follows CheckState.unplaced (Method.unplaced id) (scope.checkMethod file method)
      (scope.unplaced.checkMethod file (method.unplaced Literal.unplaced)) :=
  .bind (.mapM fun field _ => scope.follows_checkDefault file field) fun _ =>
    .bind (.mapM fun field _ => scope.follows_checkDefault file field) fun _ => .ofPure _

theorem follows_checkService (service : ServiceType Literal) :
    Follows CheckState.unplaced (ServiceType.unplaced id) (scope.checkService service)
      (scope.unplaced.checkService (service.unplaced Literal.unplaced)) :=
  .bind (.mapM fun method _ => scope.follows_checkMethod service.file method) fun _ => .ofPure _

theorem follows_checkConstant (constant : Constant Literal) (index : Nat) :
    Follows CheckState.unplaced (Option.map (Constant.unplaced id))
      (scope.checkConstant constant index)
      (scope.unplaced.checkConstant (constant.unplaced Literal.unplaced) index) := by
  rw [checkConstant, checkConstant, fuel_unplaced]
  refine .bind (follows_valueOf scope.fuel index) fun value? => ?_
  cases value? with
  | none => exact .ofPure none
  | some value => exact .ofPure (some _)

theorem follows_checkModel :
    Follows CheckState.unplaced (Model.unplaced id) scope.checkModel scope.unplaced.checkModel := by
  have placed : scope.unplaced.model.constants.zipIdx =
      scope.model.constants.zipIdx.map (Prod.map (Constant.unplaced Literal.unplaced) id) := by
    rw [unplaced, Model.unplaced, List.zipIdx_map]
  rw [checkModel, checkModel, placed]
  refine .bind (.mapM fun struct _ => scope.follows_checkStruct struct) fun structs => ?_
  refine .bind (.mapM fun service _ => scope.follows_checkService service) fun services => ?_
  refine .bind (.mapM fun entry _ => scope.follows_checkConstant entry.1 entry.2)
    fun constants => ?_
  have kept : (constants.map (Option.map (Constant.unplaced id))).filterMap id =
      (constants.filterMap id).map (Constant.unplaced id) := by
    rw [List.filterMap_map, List.map_filterMap]
    rfl
  rw [kept]
  exact .ofPure (⟨scope.model.typedefs, scope.model.enums, structs, services,
    constants.filterMap id⟩ : Model ConstantValue)

end

end ConstantScope
end IdlSchema
