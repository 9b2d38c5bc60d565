import IdlSchema.Proofs.Constants.CheckedModel

/-!
# Demands for values, and that checking ends

Before all constants are checked in order, any literals may be checked and the values of any
constants asked for.  Whatever is demanded first, each constant ends up with its value by plain
recursion or, where a cycle is reachable, without one, and its problems are reported once.

To carry out a plan may mean to check the constants that it uses, and those that they use in turn.
The rules below say what this comes to with no bound on how many constants are in progress at once,
and have a derivation for what ends only.  There is one for all that checking does: a constant is in
progress once, so the bound of the checker is never reached.
-/

namespace IdlSchema

open Diagnostics Relation

/-- What is asked for: the value of a literal in a file at a type, or the value of a constant. -/
inductive Demand where
  | literal (file : FileId) (expected : TypeId) (literal : Literal)
  | constant (index : Nat)

namespace ConstantScope

variable (scope : ConstantScope) (values : Nat → Option ConstantValue)

/-- Meets a demand with what is known so far. -/
def serve : Demand → Checking (Option ConstantValue)
  | .literal file expected literal =>
      check scope (scope.valueOf scope.fuel) file expected literal
  | .constant index => scope.valueOf scope.fuel index

/-- What a demand comes to, given the values of all constants. -/
def served : Demand → Option ConstantValue
  | .literal file expected literal => scope.elaborate values file expected literal
  | .constant index => values index

/-- The problems of a demand apart from those of constants, given the values of all constants. -/
def demandProblems : Demand → Diagnostics
  | .literal file expected literal =>
      (scope.plan file expected literal).problems (scope.useProblems [] values)
  | .constant _ => []

/-- Meets some demands in order and then checks all constants. -/
def serveAll (demands : List Demand) : Checking (List (Option ConstantValue)) := do
  let results ← demands.mapM scope.serve
  let _ ← scope.checkConstants
  return results

/-- What is known when some demands have been met and all constants have been checked. -/
def settled (demands : List Demand) : CheckState :=
  (scope.serveAll demands scope.initialState).2

variable {scope} {before : CheckState}

theorem yields_serve (sound : scope.Sound [] before) (demand : Demand) :
    scope.Yields (fun values => scope.served values demand)
      (fun values => scope.demandProblems values demand) before (scope.serve demand before) := by
  cases demand with
  | literal file expected literal => exact yields_check sound file expected literal
  | constant index =>
      have demanded := demanded_valueOf sound index
      refine ⟨demanded.progresses, fun later further => ?_, fun _ _ => rfl⟩
      exact (CheckState.value?_of_done (further _ _ demanded.done)).symm

theorem yields_serveAll (scope : ConstantScope) (demands : List Demand) :
    scope.Yields (fun values => demands.map (scope.served values))
      (fun values => demands.flatMap (scope.demandProblems values)) scope.initialState
      (scope.serveAll demands scope.initialState) := by
  have steps := Yields.bind (sound_initialState scope)
    (.mapM (sound_initialState scope) fun demand (_ : demand ∈ demands) _ sound =>
      yields_serve sound demand)
    fun results between sound => .bind sound (yields_checkPlaced sound scope.model.constants.zipIdx)
      fun _ _ sound' => .pure sound' results
  have same : (fun values => demands.flatMap (scope.demandProblems values)) =
      fun values => demands.flatMap (scope.demandProblems values) ++ ([] ++ []) := by simp
  rw [same]
  exact steps

theorem done_settled (demands : List Demand) {index : Nat}
    (inside : index < scope.model.constants.length) :
    ∃ value?, (scope.settled demands).known index = .done value? := by
  have served : scope.Yields _ _ scope.initialState (demands.mapM scope.serve scope.initialState) :=
    .mapM (sound_initialState scope) fun demand _ _ sound => yields_serve sound demand
  exact done_checkConstants served.progresses.sound inside

/-- In the end each constant has its value by plain recursion, or none if it reaches a cycle. -/
theorem correct_settled (scope : ConstantScope) (demands : List Demand) (index : Nat) :
    scope.Correct index ((scope.settled demands).value? index) :=
  (yields_serveAll scope demands).progresses.sound.correct_value?
    (fun _ inside => done_settled demands inside) index

/-- There is only one right value. -/
theorem Correct.unique {index : Nat} {value? value?' : Option ConstantValue}
    (correct : scope.Correct index value?) (correct' : scope.Correct index value?') :
    value? = value?' := by
  by_cases cyclic : scope.ReachesCycle index
  · rw [correct.absent cyclic, correct'.absent cyclic]
  · exact (correct.elaborates cyclic).unique (correct'.elaborates cyclic)

/-- The problems of each constant are reported once, and constants are done in some order. -/
theorem stacked_settled (scope : ConstantScope) (demands : List Demand) :
    ∃ stack : Nat → List Nat, scope.Stacked stack ∧
      (scope.settled demands).reported.Perm
        (demands.flatMap (scope.demandProblems (scope.settled demands).value?) ++
          (List.range scope.model.constants.length).flatMap fun index =>
            scope.recordProblems (scope.settled demands).value? ⟨index, stack index⟩) := by
  obtain ⟨log, logs, accounted⟩ := (yields_serveAll scope demands).progresses.accounted
  obtain ⟨stack, stacked, once⟩ := logs.exists_stacks (fun index inside => done_settled demands inside)
    (scope.settled demands).value?
  exact ⟨stack, stacked, accounted.trans (once.append_left _)⟩

/-- The problems of each constant are reported once. -/
theorem reported_settled (scope : ConstantScope) (demands : List Demand) :
    ∃ stack : Nat → List Nat,
      (∀ index < scope.model.constants.length, index ∈ stack index ∧
        ∀ other ∈ stack index, ReflTransGen scope.Refers other index) ∧
      (scope.settled demands).reported.Perm
        (demands.flatMap (scope.demandProblems (scope.settled demands).value?) ++
          (List.range scope.model.constants.length).flatMap fun index =>
            scope.recordProblems (scope.settled demands).value? ⟨index, stack index⟩) := by
  obtain ⟨stack, stacked, reported⟩ := stacked_settled scope demands
  exact ⟨stack, stacked.inProgress, reported⟩

/-- There are no errors if and only if no demand and no constant has any of its own. -/
theorem exists_clear_settled_iff (scope : ConstantScope) (demands : List Demand) :
    ∃ stack : Nat → List Nat,
      (∀ index < scope.model.constants.length, index ∈ stack index ∧
        ∀ other ∈ stack index, ReflTransGen scope.Refers other index) ∧
      (Clear (scope.settled demands).reported ↔
        (∀ demand ∈ demands, Clear (scope.demandProblems (scope.settled demands).value? demand)) ∧
          ∀ index < scope.model.constants.length,
            Clear (scope.recordProblems (scope.settled demands).value? ⟨index, stack index⟩)) := by
  obtain ⟨stack, inProgress, reported⟩ := reported_settled scope demands
  refine ⟨stack, inProgress, ?_⟩
  rw [clear_perm reported, clear_append, clear_flatMap, clear_flatMap]
  simp only [List.mem_range]

/-- Meeting some demands and then checking all constants comes to what plain recursion says. -/
structure Settles (scope : ConstantScope) (demands : List Demand) : Prop where
  correct : ∀ index, scope.Correct index ((scope.settled demands).value? index)
  served : (scope.serveAll demands scope.initialState).1 =
    demands.map (scope.served (scope.settled demands).value?)
  reported : ∃ stack : Nat → List Nat,
    (∀ index < scope.model.constants.length, index ∈ stack index ∧
      ∀ other ∈ stack index, ReflTransGen scope.Refers other index) ∧
    (scope.settled demands).reported.Perm
      (demands.flatMap (scope.demandProblems (scope.settled demands).value?) ++
        (List.range scope.model.constants.length).flatMap fun index =>
          scope.recordProblems (scope.settled demands).value? ⟨index, stack index⟩)

theorem settles (scope : ConstantScope) (demands : List Demand) : scope.Settles demands where
  correct := correct_settled scope demands
  served := (yields_serveAll scope demands).value _ (.refl _)
  reported := reported_settled scope demands

/-- What is demanded first makes no difference to the values. -/
theorem value?_settled_eq (scope : ConstantScope) (demands demands' : List Demand) :
    (scope.settled demands).value? = (scope.settled demands').value? := by
  funext index
  exact (correct_settled scope demands index).unique (correct_settled scope demands' index)

/-! ## Checking a model is meeting demands -/

/-- The demand of the default of a field. -/
def fieldDemands (file : FileId) (fields : List (Field Literal)) : List Demand :=
  fields.filterMap fun field => field.default?.map (.literal file field.type)

/-- The demands of the defaults of a method. -/
def methodDemands (file : FileId) (method : Method Literal) : List Demand :=
  fieldDemands file method.parameters ++ fieldDemands file method.exceptions

/-- The demands of all defaults of a model. -/
def modelDemands (scope : ConstantScope) : List Demand :=
  scope.model.structs.flatMap (fun struct => fieldDemands struct.file struct.fields) ++
    scope.model.services.flatMap fun service => service.methods.flatMap (methodDemands service.file)

/-- What is known when some demands have been met. -/
def serveFrom (scope : ConstantScope) (state : CheckState) (demands : List Demand) : CheckState :=
  demands.foldl (fun state demand => (scope.serve demand state).2) state

theorem serveFrom_append (state : CheckState) (first second : List Demand) :
    scope.serveFrom state (first ++ second) = scope.serveFrom (scope.serveFrom state first) second :=
  List.foldl_append

theorem state_mapM {α β : Type} {step : α → Checking β} {demands : α → List Demand} {list : List α}
    (each : ∀ a ∈ list, ∀ state, (step a state).2 = scope.serveFrom state (demands a))
    (state : CheckState) :
    (list.mapM step state).2 = scope.serveFrom state (list.flatMap demands) := by
  induction list generalizing state with
  | nil => rfl
  | cons a rest induction =>
      rw [mapM_cons_apply, List.flatMap_cons, serveFrom_append, ← each a List.mem_cons_self state]
      exact induction (fun other member => each other (List.mem_cons_of_mem a member)) _

theorem state_mapM_serve (demands : List Demand) (state : CheckState) :
    (demands.mapM scope.serve state).2 = scope.serveFrom state demands := by
  have each : (demands.mapM scope.serve state).2 =
      scope.serveFrom state (demands.flatMap fun demand => [demand]) :=
    state_mapM (fun _ _ _ => rfl) state
  rwa [List.flatMap_singleton'] at each

/-- To check all constants is to demand each of them. -/
theorem state_checkConstants (state : CheckState) : (scope.checkConstants state).2 =
    scope.serveFrom state ((List.range scope.model.constants.length).map .constant) := by
  have each : (scope.checkConstants state).2 = scope.serveFrom state
      (scope.model.constants.zipIdx.flatMap fun entry => [.constant entry.2]) :=
    state_mapM (fun _ _ _ => rfl) state
  have places : (scope.model.constants.zipIdx.map Prod.snd) =
      List.range scope.model.constants.length := by
    rw [List.zipIdx_map_snd, List.range_eq_range']
  rw [each, ← places, List.map_map, List.map_eq_flatMap]
  rfl

theorem state_settled (demands : List Demand) : scope.settled demands =
    scope.serveFrom scope.initialState
      (demands ++ (List.range scope.model.constants.length).map .constant) := by
  have steps : scope.settled demands =
      (scope.checkConstants (demands.mapM scope.serve scope.initialState).2).2 := rfl
  rw [steps, state_checkConstants, state_mapM_serve, serveFrom_append]

theorem state_checkFields (file : FileId) (fields : List (Field Literal)) (state : CheckState) :
    (fields.mapM (scope.checkDefault file) state).2 =
      scope.serveFrom state (fieldDemands file fields) := by
  have same : fieldDemands file fields =
      fields.flatMap fun field => (field.default?.map (Demand.literal file field.type)).toList := by
    rw [fieldDemands, List.filterMap_eq_flatMap_toList]
  rw [same]
  refine state_mapM (fun field _ state => ?_) state
  rw [checkDefault]
  cases field.default? <;> rfl

theorem state_checkMethod (file : FileId) (method : Method Literal) (state : CheckState) :
    (scope.checkMethod file method state).2 =
      scope.serveFrom state (methodDemands file method) := by
  rw [methodDemands, serveFrom_append, ← state_checkFields, ← state_checkFields]
  rfl

/-- To check a model is to meet the demands of its defaults and then to check all constants. -/
theorem state_checkModel (scope : ConstantScope) :
    (scope.checkModel scope.initialState).2 = scope.settled scope.modelDemands := by
  have structs (state : CheckState) : (scope.model.structs.mapM scope.checkStruct state).2 =
      scope.serveFrom state
        (scope.model.structs.flatMap fun struct => fieldDemands struct.file struct.fields) :=
    state_mapM (fun struct _ state => state_checkFields struct.file struct.fields state) state
  have methods (service : ServiceType Literal) (state : CheckState) :
      (scope.checkService service state).2 =
        scope.serveFrom state (service.methods.flatMap (methodDemands service.file)) :=
    state_mapM (fun method _ state => state_checkMethod service.file method state) state
  have services (state : CheckState) : (scope.model.services.mapM scope.checkService state).2 =
      scope.serveFrom state (scope.model.services.flatMap fun service =>
        service.methods.flatMap (methodDemands service.file)) :=
    state_mapM (fun service _ state => methods service state) state
  have before : (scope.model.services.mapM scope.checkService
      (scope.model.structs.mapM scope.checkStruct scope.initialState).2).2 =
      (scope.modelDemands.mapM scope.serve scope.initialState).2 := by
    rw [services, structs, state_mapM_serve, modelDemands, serveFrom_append]
  have model : (scope.checkModel scope.initialState).2 =
      (scope.checkConstants (scope.model.services.mapM scope.checkService
        (scope.model.structs.mapM scope.checkStruct scope.initialState).2).2).2 :=
    rfl
  rw [model, before]
  rfl

/-- The model that is checked has the values that any demands lead to. -/
theorem checkModel_eq (scope : ConstantScope) (demands : List Demand) :
    (scope.checkModel scope.initialState).1 =
      scope.elaborateModel (scope.settled demands).value? := by
  have value := (yields_checkModel (sound_initialState scope)).value _ (.refl _)
  rw [value, state_checkModel]
  exact congrArg scope.elaborateModel (value?_settled_eq scope scope.modelDemands demands)

end ConstantScope
end IdlSchema

/-! # Checking ends -/

namespace IdlSchema

open Relation

namespace ConstantScope

variable (scope : ConstantScope)

/-- What carrying out a plan comes to when any number of constants may be in progress. -/
inductive Carries : {α : Type} → Plan α → CheckState → Option α × CheckState → Prop where
  | value {α : Type} (a : α) (state : CheckState) : Carries (.value a) state (some a, state)
  | silent {α : Type} (state : CheckState) : Carries (.silent : Plan α) state (none, state)
  | refuse {α : Type} (problem : Diagnostic) (state : CheckState) :
      Carries (.refuse problem : Plan α) state (none, state.reportAll [problem])
  | busy {reference : Reference} {state : CheckState} :
      state.known reference.index = .inProgress →
      Carries (.refer reference) state (none, state.reportAll [cyclicUse reference])
  | done {reference : Reference} {state : CheckState} {value? : Option ConstantValue} :
      state.known reference.index = .done value? →
      Carries (.refer reference) state
        (scope.accept reference value?, state.reportAll (scope.misuse reference value?))
  | demand {reference : Reference} {state : CheckState}
      {result : Option ConstantValue × CheckState} :
      state.known reference.index = .pending →
      Carries (scope.planAt reference.index) (state.set reference.index .inProgress) result →
      Carries (.refer reference) state
        (scope.accept reference result.1,
          (result.2.set reference.index (.done result.1)).reportAll
            (scope.misuse reference result.1))
  | both {α β γ : Type} {combine : β → γ → α} {first : Plan β} {second : Plan γ}
      {state : CheckState} {result : Option β × CheckState} {result' : Option γ × CheckState} :
      Carries first state result → Carries second result.2 result' →
      Carries (.both combine first second) state
        (result.1.bind fun b => result'.1.map (combine b), result'.2)

/-- What meeting demands one after the other comes to. -/
inductive Serves : List Demand → CheckState → CheckState → Prop where
  | nil (state : CheckState) : Serves [] state state
  | literal {file : FileId} {expected : TypeId} {literal : Literal} {demands : List Demand}
      {state after : CheckState} {result : Option ConstantValue × CheckState} :
      scope.Carries (scope.plan file expected literal) state result →
      Serves demands result.2 after → Serves (.literal file expected literal :: demands) state after
  | done {index : Nat} {demands : List Demand} {state after : CheckState}
      {value? : Option ConstantValue} : state.known index = .done value? →
      Serves demands state after → Serves (.constant index :: demands) state after
  | constant {index : Nat} {demands : List Demand} {state after : CheckState}
      {result : Option ConstantValue × CheckState} : state.known index = .pending →
      scope.Carries (scope.planAt index) (state.set index .inProgress) result →
      Serves demands (result.2.set index (.done result.1)) after →
      Serves (.constant index :: demands) state after

variable {scope} {stack : List Nat} {before : CheckState}

/-- As long as no more constants are pending than the fuel allows for, the fuel does not matter. -/
theorem carries_run {fuel : Nat} {α : Type} (plan : Plan α) (sound : scope.Sound stack before)
    (below : ∀ reference ∈ plan.references, ∀ other ∈ stack,
      ReflTransGen scope.Refers other reference.index)
    (enough : scope.pending before ≤ fuel) :
    scope.Carries plan before (plan.run scope (scope.valueOf fuel) before) := by
  induction fuel using Nat.strong_induction_on generalizing α stack before with
  | _ fuel fewer_pending =>
      induction plan generalizing before with
      | value a => exact .value a before
      | silent => exact .silent before
      | refuse problem => exact .refuse problem before
      | refer reference =>
          cases found : before.known reference.index with
          | inProgress =>
              rw [run_refer_of_inProgress found]
              exact .busy found
          | done value? =>
              rw [run_refer_of_ne (by rw [found]; exact ConstantState.noConfusion),
                valueOf_of_done found]
              exact .done found
          | pending =>
              have fewer := sound.pending_enter_lt found
              obtain ⟨fuel, rfl⟩ := Nat.exists_eq_succ_of_ne_zero (n := fuel) (by omega)
              have declared := List.getElem?_eq_getElem (sound.lt_length found)
              rw [run_refer_of_ne (by rw [found]; exact ConstantState.noConfusion),
                valueOf_of_pending found declared]
              have inside := fewer_pending fuel (Nat.lt_succ_self fuel)
                (scope.planAt reference.index) (sound.enter found) (fun other used => ?_) (by omega)
              · generalize (scope.planAt reference.index).run scope _ _ = result at inside
                exact .demand found inside
              · have refers : scope.Refers reference.index other.index := ⟨other, used, rfl⟩
                exact List.forall_mem_cons.mpr ⟨.single refers, fun busy inside =>
                  (below reference (List.mem_singleton_self _) busy inside).tail refers⟩
      | both combine first second induction induction' =>
          have below_first := fun r member => below r (List.mem_append_left _ member)
          have left := runs_run (answers_valueOf scope stack fuel) first sound below_first enough
          have fewer := sound.pending_le left.progresses.sound left.progresses.advances
          rw [run_both]
          exact .both (induction sound below_first enough)
            (induction' left.progresses.sound (fun r member => below r (List.mem_append_right _ member))
              (fewer.trans enough))

/-- Meeting demands ends. -/
theorem serves_serveFrom (demands : List Demand) (sound : scope.Sound [] before) :
    scope.Serves demands before (scope.serveFrom before demands) := by
  induction demands generalizing before with
  | nil => exact .nil before
  | cons demand demands induction =>
      have rest := induction (yields_serve sound demand).progresses.sound
      have step : scope.serveFrom before (demand :: demands) =
          scope.serveFrom (scope.serve demand before).2 demands := rfl
      rw [step]
      cases demand with
      | literal file expected literal =>
          refine .literal ?_ rest
          rw [serve, check_eq_run]
          exact carries_run _ sound (by simp) (pending_le_fuel scope before)
      | constant index =>
          cases found : before.known index with
          | inProgress => exact absurd ((sound.inProgress index).mp found) List.not_mem_nil
          | done value? =>
              rw [serve, valueOf_of_done found] at rest ⊢
              exact .done found rest
          | pending =>
              have fewer := sound.pending_enter_lt found
              have enough := pending_le_fuel scope before
              obtain ⟨fuel, at_fuel⟩ := Nat.exists_eq_succ_of_ne_zero (n := scope.fuel) (by omega)
              have declared := List.getElem?_eq_getElem (sound.lt_length found)
              rw [serve, at_fuel, valueOf_of_pending found declared] at rest ⊢
              refine .constant found (carries_run _ (sound.enter found) (fun other used => ?_) ?_) rest
              · exact List.forall_mem_singleton.mpr (.single ⟨other, used, rfl⟩)
              · omega

/-- All that checking a model does: it meets the demands of defaults and then those of constants. -/
theorem serves_checkModel (scope : ConstantScope) :
    scope.Serves
      (scope.modelDemands ++ (List.range scope.model.constants.length).map .constant)
      scope.initialState (scope.checkModel scope.initialState).2 := by
  rw [state_checkModel, state_settled]
  exact serves_serveFrom _ (sound_initialState scope)

end ConstantScope
end IdlSchema
