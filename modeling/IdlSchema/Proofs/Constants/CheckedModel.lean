import IdlSchema.Proofs.Constants.Memo
import IdlSchema.Proofs.StateRuns

/-!
# Checking a model

All defaults and constants of a model are checked one after the other with one memo.  What results
is the model with each value as it is given by the values of the constants in the end, whatever
was known of them when the value was checked.
-/

namespace IdlSchema

open Diagnostics Relation

namespace ConstantScope

variable (scope : ConstantScope) (values : Nat → Option ConstantValue)

/-- A field with its default, given the values of all constants. -/
def elaborateField (file : FileId) (field : Field Literal) : Field ConstantValue :=
  { header := field.header, id := field.id, requiredness := field.requiredness
    type := field.type
    default? := field.default?.bind (scope.elaborate values file field.type) }

/-- A struct with its defaults, given the values of all constants. -/
def elaborateStruct (struct : StructType Literal) : StructType ConstantValue :=
  { header := struct.header, file := struct.file, id := struct.id, kind := struct.kind
    fields := struct.fields.map (scope.elaborateField values struct.file) }

/-- A method with its defaults, given the values of all constants. -/
def elaborateMethod (file : FileId) (method : Method Literal) : Method ConstantValue :=
  { header := method.header, oneWay := method.oneWay, returnType := method.returnType
    parameters := method.parameters.map (scope.elaborateField values file)
    exceptions := method.exceptions.map (scope.elaborateField values file) }

/-- A service with its defaults, given the values of all constants. -/
def elaborateService (service : ServiceType Literal) : ServiceType ConstantValue :=
  { header := service.header, file := service.file, id := service.id, base? := service.base?
    methods := service.methods.map (scope.elaborateMethod values service.file) }

/-- The constant at a place with its value, given the values of all constants. -/
def valuedConstant? (constant : Constant Literal) (index : Nat) :
    Option (Constant ConstantValue) :=
  (values index).map fun value =>
    { header := constant.header, file := constant.file, type := constant.type, value }

/-- A model with its defaults and constants, given the values of all constants. -/
def elaborateModel : Model ConstantValue :=
  { typedefs := scope.model.typedefs
    enums := scope.model.enums
    structs := scope.model.structs.map (scope.elaborateStruct values)
    services := scope.model.services.map (scope.elaborateService values)
    constants := scope.model.constants.zipIdx.filterMap fun (constant, index) =>
      valuedConstant? values constant index }

/-- The problems of the default of a field, given the values of all constants. -/
def fieldProblems (file : FileId) (field : Field Literal) : Diagnostics :=
  match field.default? with
  | some literal => (scope.plan file field.type literal).problems (scope.useProblems [] values)
  | none => []

/-- The problems of the defaults of a struct. -/
def structProblems (struct : StructType Literal) : Diagnostics :=
  struct.fields.flatMap (scope.fieldProblems values struct.file)

/-- The problems of the defaults of a method. -/
def methodProblems (file : FileId) (method : Method Literal) : Diagnostics :=
  method.parameters.flatMap (scope.fieldProblems values file) ++
    method.exceptions.flatMap (scope.fieldProblems values file)

/-- The problems of the defaults of a service. -/
def serviceProblems (service : ServiceType Literal) : Diagnostics :=
  service.methods.flatMap (scope.methodProblems values service.file)

/-- The problems of all defaults. -/
def defaultProblems : Diagnostics :=
  scope.model.structs.flatMap (scope.structProblems values) ++
    scope.model.services.flatMap (scope.serviceProblems values)

/-- A step of checking: what it comes to, and which problems it has of its own, in the end. -/
structure Yields {α : Type} (result : (Nat → Option ConstantValue) → α)
    (own : (Nat → Option ConstantValue) → Diagnostics) (before : CheckState)
    (outcome : α × CheckState) : Prop where
  progresses : scope.Progresses [] before (own outcome.2.value?) outcome.2
  value : ∀ later, outcome.2.Advances later → outcome.1 = result later.value?
  problems : ∀ later, outcome.2.Advances later → own outcome.2.value? = own later.value?

variable {scope} {before : CheckState} {α β : Type}

namespace Yields

theorem pure (sound : scope.Sound [] before) (a : α) :
    scope.Yields (fun _ => a) (fun _ => []) before (a, before) :=
  ⟨.refl sound, fun _ _ => rfl, fun _ _ => rfl⟩

theorem bind {result : (Nat → Option ConstantValue) → α}
    {result' : α → (Nat → Option ConstantValue) → β}
    {own own' : (Nat → Option ConstantValue) → Diagnostics} {step : Checking α}
    {next : α → Checking β} (sound : scope.Sound [] before)
    (first : scope.Yields result own before (step before))
    (second : ∀ a between, scope.Sound [] between →
      scope.Yields (result' a) own' between (next a between)) :
    scope.Yields (fun values => result' (result values) values)
      (fun values => own values ++ own' values) before ((step >>= next) before) := by
  have behind := second (step before).1 (step before).2 first.progresses.sound
  have advances := behind.progresses.advances
  refine ⟨?_, fun later further => ?_, fun later further => ?_⟩
  · have progresses := first.progresses.trans sound behind.progresses
    rwa [first.problems _ advances] at progresses
  · rw [← first.value later (advances.trans further)]
    exact behind.value later further
  · have problems : own (next (step before).1 (step before).2).2.value? = own later.value? :=
      (first.problems _ advances).symm.trans (first.problems later (advances.trans further))
    exact congrArg₂ (· ++ ·) problems (behind.problems later further)

theorem mapM {result : α → (Nat → Option ConstantValue) → β}
    {own : α → (Nat → Option ConstantValue) → Diagnostics} {step : α → Checking β}
    {list : List α} (sound : scope.Sound [] before)
    (each : ∀ a ∈ list, ∀ between, scope.Sound [] between →
      scope.Yields (result a) (own a) between (step a between)) :
    scope.Yields (fun values => list.map (result · values))
      (fun values => list.flatMap (own · values)) before (List.mapM step list before) := by
  induction list generalizing before with
  | nil => exact pure sound []
  | cons a rest induction =>
      have first := each a List.mem_cons_self before sound
      have others (between : CheckState) (sound' : scope.Sound [] between) :=
        induction sound' fun other member => each other (List.mem_cons_of_mem a member)
      have same : (fun values => (a :: rest).flatMap (own · values)) =
          fun values => own a values ++ (rest.flatMap (own · values) ++ []) := by
        funext values
        rw [List.flatMap_cons, List.append_nil]
      rw [List.mapM_cons, same]
      exact bind sound first fun b between sound' =>
        bind sound' (others between sound') fun bs further sound'' => pure sound'' (b :: bs)

end Yields

theorem yields_check (sound : scope.Sound [] before) (file : FileId) (expected : TypeId)
    (literal : Literal) :
    scope.Yields (fun values => scope.elaborate values file expected literal)
      (fun values => (scope.plan file expected literal).problems (scope.useProblems [] values))
      before (scope.check (scope.valueOf scope.fuel) file expected literal before) := by
  have runs := runs_check sound file expected literal
  refine ⟨runs.progresses, fun later further => ?_, fun later further => ?_⟩
  · rw [runs.value, elaborate_eq]
    refine Plan.evaluate_congr fun reference member => ?_
    obtain ⟨value?, found⟩ := (runs.settled reference member).resolve_left List.not_mem_nil
    rw [answer, answer, CheckState.value?_of_done found,
      CheckState.value?_of_done (further _ _ found)]
  · exact Plan.problems_congr fun reference member =>
      useProblems_congr further (runs.settled reference member)

theorem yields_checkDefault (sound : scope.Sound [] before) (file : FileId)
    (field : Field Literal) :
    scope.Yields (fun values => scope.elaborateField values file field)
      (fun values => scope.fieldProblems values file field) before
      (scope.checkDefault file field before) := by
  rw [checkDefault]
  cases default : field.default? with
  | none =>
      have same : (fun values => scope.fieldProblems values file field) = fun _ => [] ++ [] := by
        funext values
        simp [fieldProblems, default]
      have same' : (fun values => scope.elaborateField values file field) = fun _ =>
          ⟨field.header, field.id, field.requiredness, field.type, none⟩ := by
        funext values
        simp [elaborateField, default]
      rw [same, same']
      exact .bind sound (.pure sound none) fun _ between sound' => .pure sound' _
  | some literal =>
      have same : (fun values => scope.fieldProblems values file field) = fun values =>
          (scope.plan file field.type literal).problems (scope.useProblems [] values) ++ [] := by
        funext values
        simp [fieldProblems, default]
      have same' : (fun values => scope.elaborateField values file field) = fun values =>
          ⟨field.header, field.id, field.requiredness, field.type,
            scope.elaborate values file field.type literal⟩ := by
        funext values
        simp [elaborateField, default]
      rw [same, same']
      exact .bind sound (yields_check sound file field.type literal) fun default? between sound' =>
        .pure sound' _

theorem yields_checkStruct (sound : scope.Sound [] before) (struct : StructType Literal) :
    scope.Yields (fun values => scope.elaborateStruct values struct)
      (fun values => scope.structProblems values struct) before
      (scope.checkStruct struct before) := by
  have same : (fun values => scope.structProblems values struct) = fun values =>
      struct.fields.flatMap (scope.fieldProblems values struct.file) ++ [] := by
    funext values
    rw [structProblems, List.append_nil]
  rw [checkStruct, same]
  exact .bind sound (.mapM sound fun field _ between sound' =>
    yields_checkDefault sound' struct.file field) fun _ between sound' =>
      .pure sound' _

theorem yields_checkMethod (sound : scope.Sound [] before) (file : FileId)
    (method : Method Literal) :
    scope.Yields (fun values => scope.elaborateMethod values file method)
      (fun values => scope.methodProblems values file method) before
      (scope.checkMethod file method before) := by
  have same : (fun values => scope.methodProblems values file method) = fun values =>
      method.parameters.flatMap (scope.fieldProblems values file) ++
        (method.exceptions.flatMap (scope.fieldProblems values file) ++ []) := by
    funext values
    rw [methodProblems, List.append_nil]
  rw [checkMethod, same]
  exact .bind sound (.mapM sound fun field _ between sound' => yields_checkDefault sound' file field)
    fun parameters between sound' => .bind sound' (.mapM sound' fun field _ further sound'' =>
      yields_checkDefault sound'' file field) fun _ further sound'' => .pure sound'' _

theorem yields_checkService (sound : scope.Sound [] before) (service : ServiceType Literal) :
    scope.Yields (fun values => scope.elaborateService values service)
      (fun values => scope.serviceProblems values service) before
      (scope.checkService service before) := by
  have same : (fun values => scope.serviceProblems values service) = fun values =>
      service.methods.flatMap (scope.methodProblems values service.file) ++ [] := by
    funext values
    rw [serviceProblems, List.append_nil]
  rw [checkService, same]
  exact .bind sound (.mapM sound fun method _ between sound' =>
    yields_checkMethod sound' service.file method) fun _ between sound' => .pure sound' _

theorem yields_checkConstant (sound : scope.Sound [] before) (constant : Constant Literal)
    (index : Nat) :
    scope.Yields (fun values => valuedConstant? values constant index) (fun _ => []) before
      (scope.checkConstant constant index before) := by
  have demanded := demanded_valueOf sound index
  have same : scope.checkConstant constant index before =
      ((scope.valueOf scope.fuel index before).1.map fun value =>
          { header := constant.header, file := constant.file, type := constant.type, value },
        (scope.valueOf scope.fuel index before).2) :=
    rfl
  rw [same]
  refine ⟨demanded.progresses, fun later further => ?_, fun _ _ => rfl⟩
  rw [valuedConstant?, CheckState.value?_of_done (further _ _ demanded.done)]

/-- Checks constants, each with its place. -/
def checkPlaced (scope : ConstantScope) (placed : List (Constant Literal × Nat)) :
    Checking (List (Option (Constant ConstantValue))) :=
  placed.mapM fun (constant, index) => scope.checkConstant constant index

theorem yields_checkPlaced (sound : scope.Sound [] before)
    (placed : List (Constant Literal × Nat)) :
    scope.Yields
      (fun values => placed.map fun (constant, index) => valuedConstant? values constant index)
      (fun _ => []) before (scope.checkPlaced placed before) := by
  have same : (fun _ : Nat → Option ConstantValue => ([] : Diagnostics)) = fun _ =>
      placed.flatMap fun _ => [] := by
    funext values
    simp
  rw [checkPlaced, same]
  exact .mapM sound fun entry _ between sound' => yields_checkConstant sound' entry.1 entry.2

theorem done_checkPlaced (sound : scope.Sound [] before)
    (placed : List (Constant Literal × Nat)) :
    ∀ entry ∈ placed, ∃ value?,
      (scope.checkPlaced placed before).2.known entry.2 = .done value? := by
  induction placed generalizing before with
  | nil => simp
  | cons first rest induction =>
      have demanded := demanded_valueOf sound first.2
      have later := yields_checkPlaced demanded.progresses.sound rest
      rw [checkPlaced, mapM_cons_apply]
      refine List.forall_mem_cons.mpr ⟨?_, induction demanded.progresses.sound⟩
      exact ⟨_, later.progresses.advances _ _ demanded.done⟩

/-- Checks all constants in order. -/
def checkConstants (scope : ConstantScope) : Checking (List (Option (Constant ConstantValue))) :=
  scope.checkPlaced scope.model.constants.zipIdx

/-- What checking a model comes to. -/
theorem yields_checkModel (sound : scope.Sound [] before) :
    scope.Yields scope.elaborateModel scope.defaultProblems before (scope.checkModel before) := by
  have same : scope.defaultProblems = fun values =>
      scope.model.structs.flatMap (scope.structProblems values) ++
        (scope.model.services.flatMap (scope.serviceProblems values) ++ ([] ++ [])) := by
    funext values
    rw [defaultProblems, List.append_nil, List.append_nil]
  have same' : scope.elaborateModel = fun values =>
      { typedefs := scope.model.typedefs
        enums := scope.model.enums
        structs := scope.model.structs.map (scope.elaborateStruct values)
        services := scope.model.services.map (scope.elaborateService values)
        constants := (scope.model.constants.zipIdx.map fun (constant, index) =>
          valuedConstant? values constant index).filterMap id } := by
    funext values
    simp only [elaborateModel, List.filterMap_map]
    rfl
  have steps := Yields.bind sound
    (.mapM sound fun struct (_ : struct ∈ scope.model.structs) _ sound' =>
      yields_checkStruct sound' struct)
    fun structs _ sound' => .bind sound'
      (.mapM sound' fun service (_ : service ∈ scope.model.services) _ sound'' =>
        yields_checkService sound'' service)
      fun services _ sound'' => .bind sound'' (yields_checkPlaced sound'' scope.model.constants.zipIdx)
        fun constants _ sound''' => .pure sound'''
          ({ typedefs := scope.model.typedefs
             enums := scope.model.enums
             structs
             services
             constants := constants.filterMap id } : Model ConstantValue)
  rw [checkModel, same, same']
  exact steps

/-! ## When all constants are checked -/

theorem done_checkConstants (sound : scope.Sound [] before) {index : Nat}
    (inside : index < scope.model.constants.length) :
    ∃ value?, (scope.checkConstants before).2.known index = .done value? :=
  done_checkPlaced sound scope.model.constants.zipIdx (scope.model.constants[index], index)
    (List.mem_zipIdx_iff_getElem?.mpr (List.getElem?_eq_getElem inside))

theorem done_checkModel (sound : scope.Sound [] before) {index : Nat}
    (inside : index < scope.model.constants.length) :
    ∃ value?, (scope.checkModel before).2.known index = .done value? := by
  have structs : scope.Yields _ _ before (scope.model.structs.mapM scope.checkStruct before) :=
    .mapM sound fun struct _ _ sound' => yields_checkStruct sound' struct
  have services : scope.Yields _ _ (scope.model.structs.mapM scope.checkStruct before).2
      (scope.model.services.mapM scope.checkService
        (scope.model.structs.mapM scope.checkStruct before).2) :=
    .mapM structs.progresses.sound fun service _ _ sound' => yields_checkService sound' service
  exact done_checkConstants services.progresses.sound inside

/-- What is used while it is not in progress comes first in the log, unless it was known. -/
theorem InOrder.idxOf_lt {known : Nat → Prop} {log : List CheckRecord}
    (inOrder : scope.InOrder known log) (nodup : (log.map (·.index)).Nodup) {record : CheckRecord}
    (member : record ∈ log) {reference : Reference}
    (used : reference ∈ (scope.planAt record.index).references) :
    reference.index ∈ record.stack ∨ known reference.index ∨
      (log.map (·.index)).idxOf reference.index < (log.map (·.index)).idxOf record.index := by
  induction log generalizing known with
  | nil => exact absurd member List.not_mem_nil
  | cons first later induction =>
      obtain ⟨fresh, nodup'⟩ := List.nodup_cons.mp nodup
      rcases List.mem_cons.mp member with rfl | inside
      · exact (inOrder.1 reference used).imp_right .inl
      · have differ : first.index ≠ record.index := fun same =>
          fresh (List.mem_map.mpr ⟨record, inside, same.symm⟩)
        rw [List.map_cons, List.idxOf_cons_ne _ differ]
        by_cases same : first.index = reference.index
        · rw [same, List.idxOf_cons_self]
          exact .inr (.inr (Nat.succ_pos _))
        · rw [List.idxOf_cons_ne _ same]
          rcases induction inOrder.2 nodup' inside with busy | (equal | early) | before
          · exact .inl busy
          · exact absurd equal.symm same
          · exact .inr (.inl early)
          · exact .inr (.inr (Nat.succ_lt_succ before))

/--
What is in progress when each constant is checked: the constant and others that lead to it.  What a
constant uses is in progress, or else it is done before.
-/
structure Stacked (scope : ConstantScope) (stack : Nat → List Nat) : Prop where
  inProgress : ∀ index < scope.model.constants.length, index ∈ stack index ∧
    ∀ other ∈ stack index, ReflTransGen scope.Refers other index
  ranked : ∃ rank : Nat → Nat, ∀ index, ∀ reference ∈ (scope.planAt index).references,
    reference.index < scope.model.constants.length →
      reference.index ∈ stack index ∨ rank reference.index < rank index

/-- Once all constants are checked, each of them has been checked once. -/
theorem Logs.exists_stacks {after : CheckState} {log : List CheckRecord}
    (logs : scope.Logs scope.initialState after log)
    (done : ∀ index < scope.model.constants.length, ∃ value?, after.known index = .done value?)
    (values : Nat → Option ConstantValue) :
    ∃ stack : Nat → List Nat, scope.Stacked stack ∧
      (log.flatMap (scope.recordProblems values)).Perm
        ((List.range scope.model.constants.length).flatMap fun index =>
          scope.recordProblems values ⟨index, stack index⟩) := by
  have sound := sound_initialState scope
  have pending {index : Nat} (inside : index < scope.model.constants.length) :
      scope.initialState.known index = .pending := by
    rw [CheckState.known, initialState, List.getD_eq_getElem?_getD, List.getElem?_map,
      List.getElem?_eq_getElem inside]
    rfl
  have all : (log.map (·.index)).Perm (List.range scope.model.constants.length) := by
    rw [List.perm_ext_iff_of_nodup logs.nodup List.nodup_range]
    intro index
    rw [List.mem_range]
    constructor
    · intro member
      obtain ⟨record, record_mem, rfl⟩ := List.mem_map.mp member
      exact sound.lt_length (logs.fresh record record_mem)
    · intro inside
      obtain ⟨value?, found⟩ := done index inside
      refine (logs.complete index value? found).resolve_left fun early => ?_
      rw [pending inside] at early
      cases early
  let stack (index : Nat) : List Nat := ((log.find? (·.index == index)).map (·.stack)).getD []
  have stack_eq (record : CheckRecord) (member : record ∈ log) :
      stack record.index = record.stack := by
    dsimp only [stack]
    rw [List.find?_of_nodup logs.nodup member]
    rfl
  have exists_record {index : Nat} (inside : index < scope.model.constants.length) :
      ∃ record ∈ log, record.index = index :=
    List.mem_map.mp (all.mem_iff.mpr (List.mem_range.mpr inside))
  refine ⟨stack, ⟨fun index inside => ?_, (log.map (·.index)).idxOf, ?_⟩, ?_⟩
  · obtain ⟨record, member, rfl⟩ := exists_record inside
    rw [stack_eq record member]
    exact logs.inProgress record member
  · intro index reference used reference_inside
    have inside : index < scope.model.constants.length := by
      by_contra outside
      rw [planAt_of_none (List.getElem?_eq_none (Nat.le_of_not_lt outside))] at used
      exact List.not_mem_nil used
    obtain ⟨record, member, rfl⟩ := exists_record inside
    rw [stack_eq record member]
    refine (logs.inOrder.idxOf_lt logs.nodup member used).imp_right fun early => ?_
    refine early.resolve_left fun known => ?_
    obtain ⟨value?, found⟩ := known
    rw [pending reference_inside] at found
    cases found
  · have same : log.flatMap (scope.recordProblems values) =
        (log.map (·.index)).flatMap fun index =>
          scope.recordProblems values ⟨index, stack index⟩ := by
      rw [List.flatMap_map]
      refine List.flatMap_congr fun record member => ?_
      rw [stack_eq record member]
    rw [same]
    exact all.flatMap_right _

end ConstantScope
end IdlSchema
