import Mathlib.Tactic

/-!
# Runs side by side

A step follows another along a change of the state if, from the changed state, it does what the
other does and comes to a changed result in the changed state behind.  Steps that follow others one
by one follow them in sequence, and so do steps over all elements of a list.
-/

namespace IdlSchema

variable {m : Type → Type} [Monad m] {σ σ' α α' β β' : Type}

/-- From a changed state, a step does what another does from the state, to a changed result. -/
def Follows (move : σ → σ') (change : α → α') (step : StateT σ m α) (step' : StateT σ' m α') :
    Prop :=
  ∀ state, step'.run (move state) =
    (fun result => (change result.1, move result.2)) <$> step.run state

namespace Follows

variable [LawfulMonad m] {move : σ → σ'} {change : α → α'} {change' : β → β'}

theorem ofPure (a : α) :
    Follows move change (pure a : StateT σ m α) (pure (change a) : StateT σ' m α') := by
  intro state
  rw [StateT.run_pure, StateT.run_pure, map_pure]

theorem bind {step : StateT σ m α} {step' : StateT σ' m α'} {next : α → StateT σ m β}
    {next' : α' → StateT σ' m β'} (first : Follows move change step step')
    (second : ∀ a, Follows move change' (next a) (next' (change a))) :
    Follows move change' (step >>= next) (step' >>= next') := by
  intro state
  rw [StateT.run_bind, StateT.run_bind, first state, bind_map_left, map_bind]
  exact bind_congr fun result => second result.1 result.2

/-- A step without effects that changes the state. -/
theorem ofModifyGet {f : σ → α × σ} {f' : σ' → α' × σ'}
    (same : ∀ state, f' (move state) = (change (f state).1, move (f state).2)) :
    Follows move change (modifyGet f : StateT σ m α) (modifyGet f' : StateT σ' m α') := by
  intro state
  rw [StateT.run_modifyGet, StateT.run_modifyGet, map_pure, same]

theorem ofModify {f : σ → σ} {f' : σ' → σ'} (same : ∀ state, f' (move state) = move (f state)) :
    Follows move id (modify f : StateT σ m PUnit) (modify f' : StateT σ' m PUnit) := by
  intro state
  rw [StateT.run_modify, StateT.run_modify, map_pure, same]

theorem ofGet : Follows move move (get : StateT σ m σ) (get : StateT σ' m σ') := by
  intro state
  rw [StateT.run_get, StateT.run_get, map_pure]

theorem mapM {reform : α → α'} {step : α → StateT σ m β} {step' : α' → StateT σ' m β'}
    {list : List α} (each : ∀ a ∈ list, Follows move change' (step a) (step' (reform a))) :
    Follows move (List.map change') (list.mapM step) ((list.map reform).mapM step') := by
  induction list with
  | nil => exact ofPure []
  | cons a list induction =>
      obtain ⟨first, others⟩ := List.forall_mem_cons.mp each
      rw [List.map_cons, List.mapM_cons, List.mapM_cons]
      exact bind first fun b => bind (induction others) fun rest => ofPure (b :: rest)

theorem forM {reform : α → α'} {step : α → StateT σ m PUnit} {step' : α' → StateT σ' m PUnit}
    {list : List α} (each : ∀ a ∈ list, Follows move id (step a) (step' (reform a))) :
    Follows move id (list.forM step) ((list.map reform).forM step') := by
  induction list with
  | nil => exact ofPure PUnit.unit
  | cons a list induction =>
      obtain ⟨first, others⟩ := List.forall_mem_cons.mp each
      exact bind first fun _ => induction others

/-- A step without effects, by the state before and behind it. -/
theorem ofState {step : StateM σ α} {step' : StateM σ' α'}
    (same : ∀ state, step' (move state) = (change (step state).1, move (step state).2)) :
    Follows move change step step' :=
  same

theorem apply {step : StateM σ α} {step' : StateM σ' α'} (follows : Follows move change step step')
    (state : σ) : step' (move state) = (change (step state).1, move (step state).2) :=
  follows state

end Follows
end IdlSchema
