import IdlSchema.Proofs.Constants.Elaboration
import IdlSchema.Proofs.Diagnostics

/-!
# The memo of constants

While constants are checked, some of them are in progress, each of which refers to the next in some
number of steps.  What is known of the others is right at any time: to come upon a constant in
progress is to close a cycle, so a value that is missing for this reason is missing by plain
recursion too.  Each constant is checked when its value is first asked for and never again, so its
problems are reported once.
-/

namespace List

theorem countP_lt_countP {α : Type} {p q : α → Bool} {list : List α} {a : α}
    (weaker : ∀ b ∈ list, q b = true → p b = true) (member : a ∈ list) (holds : p a = true)
    (fails : q a = false) : list.countP q < list.countP p := by
  obtain ⟨front, back, rfl⟩ := append_of_mem member
  have front_le : front.countP q ≤ front.countP p :=
    countP_mono_left fun b inside => weaker b (mem_append_left _ inside)
  have back_le : back.countP q ≤ back.countP p :=
    countP_mono_left fun b inside => weaker b (mem_append_right _ (mem_cons_of_mem a inside))
  rw [countP_append, countP_append, countP_cons_of_pos holds,
    countP_cons_of_neg (Bool.eq_false_iff.mp fails)]
  omega

end List

namespace IdlSchema

open Diagnostics Relation

namespace CheckState

/-- What is known once stays known. -/
def Advances (before after : CheckState) : Prop :=
  ∀ index value?, before.known index = .done value? → after.known index = .done value?

theorem Advances.refl (state : CheckState) : state.Advances state :=
  fun _ _ found => found

theorem Advances.trans {a b c : CheckState} (first : a.Advances b) (second : b.Advances c) :
    a.Advances c :=
  fun index value? found => second index value? (first index value? found)

variable {state : CheckState} {index : Nat}

/-- To enter a pending constant makes nothing known. -/
theorem done_enter_iff (pending : state.known index = .pending) {other : Nat}
    {value? : Option ConstantValue} :
    (state.set index .inProgress).known other = .done value? ↔
      state.known other = .done value? := by
  have inside : index < state.constants.length := lt_length_of_ne (by simp [pending])
  by_cases same : index = other
  · rw [← same, known_set_self inside, pending]
    exact iff_of_false nofun nofun
  · rw [known_set_of_ne same]

/-- What is in progress is not known, so to leave it makes nothing unknown. -/
theorem advances_leave (busy : state.known index = .inProgress) (value? : Option ConstantValue) :
    state.Advances (state.set index (.done value?)) := by
  intro other value?' found
  rw [known_set_of_ne, found]
  rintro rfl
  rw [busy] at found
  cases found

end CheckState

namespace ConstantScope

/-- Every constant fails with an error if it fails. -/
def AllVocal (scope : ConstantScope) : Prop :=
  ∀ index < scope.model.constants.length,
    (scope.planAt index).Vocal (· < scope.model.constants.length)

/-- What is known of constants is right, and those on a stack are in progress. -/
structure Sound (scope : ConstantScope) (stack : List Nat) (state : CheckState) : Prop where
  length : state.constants.length = scope.model.constants.length
  inProgress : ∀ index, state.known index = .inProgress ↔ index ∈ stack
  correct : ∀ index value?, state.known index = .done value? → scope.Correct index value?
  loud : scope.AllVocal → ∀ index < scope.model.constants.length,
    state.known index = .done none → ¬ Clear state.reported

/-- A constant that was checked, and the constants that were in progress then, itself included. -/
structure CheckRecord where
  index : Nat
  stack : List Nat

/-- The problems of a use of a constant while those on a stack are in progress. -/
def useProblems (scope : ConstantScope) (stack : List Nat) (values : Nat → Option ConstantValue)
    (reference : Reference) : Diagnostics :=
  if reference.index ∈ stack then [cyclicUse reference]
  else scope.misuse reference (values reference.index)

/-- The problems of a constant that was checked. -/
def recordProblems (scope : ConstantScope) (values : Nat → Option ConstantValue)
    (record : CheckRecord) : Diagnostics :=
  (scope.planAt record.index).problems (scope.useProblems record.stack values)

/-- Each constant of a log uses what was in progress with it, or what was known before it. -/
def InOrder (scope : ConstantScope) (known : Nat → Prop) : List CheckRecord → Prop
  | [] => True
  | record :: later =>
      (∀ reference ∈ (scope.planAt record.index).references,
        reference.index ∈ record.stack ∨ known reference.index) ∧
      scope.InOrder (fun index => index = record.index ∨ known index) later

/-- The constants that were checked between two states, each of them once. -/
structure Logs (scope : ConstantScope) (before after : CheckState) (log : List CheckRecord) :
    Prop where
  nodup : (log.map (·.index)).Nodup
  fresh : ∀ record ∈ log, before.known record.index = .pending
  done : ∀ record ∈ log, ∃ value?, after.known record.index = .done value?
  complete : ∀ index value?, after.known index = .done value? →
    before.known index = .done value? ∨ index ∈ log.map (·.index)
  inProgress : ∀ record ∈ log, record.index ∈ record.stack ∧
    ∀ other ∈ record.stack, ReflTransGen scope.Refers other record.index
  settled : ∀ record ∈ log, ∀ reference ∈ (scope.planAt record.index).references,
    reference.index ∈ record.stack ∨ ∃ value?, after.known reference.index = .done value?
  inOrder : scope.InOrder (fun index => ∃ value?, before.known index = .done value?) log

/-- Checking has led on, reporting some problems apart from those of constants that it checked. -/
structure Progresses (scope : ConstantScope) (stack : List Nat) (before : CheckState)
    (own : Diagnostics) (after : CheckState) : Prop where
  sound : scope.Sound stack after
  advances : before.Advances after
  accounted : ∃ log, scope.Logs before after log ∧ after.reported.Perm
    (before.reported ++ own ++ log.flatMap (scope.recordProblems after.value?))

/-- A plan has been carried out: its value is right, and its problems are reported. -/
structure Runs (scope : ConstantScope) (stack : List Nat) {α : Type} (plan : Plan α)
    (before : CheckState) (result : Option α × CheckState) : Prop where
  progresses : scope.Progresses stack before
    (plan.problems (scope.useProblems stack result.2.value?)) result.2
  settled : ∀ reference ∈ plan.references, reference.index ∈ stack ∨
    ∃ value?, result.2.known reference.index = .done value?
  value : result.1 = plan.evaluate (scope.answer result.2.value?)
  loud : scope.AllVocal → plan.Vocal (· < scope.model.constants.length) → result.1 = none →
    ¬ Clear result.2.reported

/-- The value of a constant has been found. -/
structure Demanded (scope : ConstantScope) (stack : List Nat) (index : Nat) (before : CheckState)
    (result : Option ConstantValue × CheckState) : Prop where
  progresses : scope.Progresses stack before [] result.2
  done : result.2.known index = .done result.1

variable {scope : ConstantScope} {stack : List Nat} {before between after : CheckState}

theorem InOrder.mono {known known' : Nat → Prop} {log : List CheckRecord}
    (inOrder : scope.InOrder known log) (weaker : ∀ index, known index → known' index) :
    scope.InOrder known' log := by
  induction log generalizing known known' with
  | nil => trivial
  | cons record later induction =>
      refine ⟨fun reference member => (inOrder.1 reference member).imp_right (weaker _), ?_⟩
      exact induction inOrder.2 fun index => Or.imp_right (weaker index)

/-- Logs are in order together if the second may count on what the first has checked. -/
theorem InOrder.append {known : Nat → Prop} {log log' : List CheckRecord}
    (first : scope.InOrder known log)
    (second : scope.InOrder (fun index => index ∈ log.map (·.index) ∨ known index) log') :
    scope.InOrder known (log ++ log') := by
  induction log generalizing known with
  | nil => exact second.mono fun index => Or.rec (fun member => absurd member List.not_mem_nil) id
  | cons record later induction =>
      refine ⟨first.1, induction first.2 (second.mono fun index => ?_)⟩
      rw [List.map_cons, List.mem_cons, or_assoc]
      exact or_left_comm.mp

theorem useProblems_congr (advances : before.Advances after) {reference : Reference}
    (settled : reference.index ∈ stack ∨
      ∃ value?, before.known reference.index = .done value?) :
    scope.useProblems stack before.value? reference =
      scope.useProblems stack after.value? reference := by
  rw [useProblems, useProblems]
  split
  · rfl
  · rename_i idle
    obtain ⟨value?, found⟩ := settled.resolve_left idle
    rw [CheckState.value?_of_done found, CheckState.value?_of_done (advances _ _ found)]

theorem settled_advances (advances : before.Advances after) {index : Nat}
    (settled : index ∈ stack ∨ ∃ value?, before.known index = .done value?) :
    index ∈ stack ∨ ∃ value?, after.known index = .done value? :=
  settled.imp_right fun ⟨value?, found⟩ => ⟨value?, advances _ _ found⟩

theorem Logs.flatMap_congr {log : List CheckRecord} (logs : scope.Logs before between log)
    (advances : between.Advances after) :
    log.flatMap (scope.recordProblems between.value?) =
      log.flatMap (scope.recordProblems after.value?) := by
  refine List.flatMap_congr fun record member => Plan.problems_congr fun reference inside => ?_
  exact useProblems_congr advances (logs.settled record member reference inside)

/-- What is pending was pending before. -/
theorem Sound.pending_before (sound : scope.Sound stack before) (sound' : scope.Sound stack after)
    (advances : before.Advances after) {index : Nat} (pending : after.known index = .pending) :
    before.known index = .pending := by
  cases found : before.known index with
  | pending => rfl
  | inProgress =>
      have member := (sound.inProgress index).mp found
      rw [(sound'.inProgress index).mpr member] at pending
      cases pending
  | done value? =>
      rw [advances index value? found] at pending
      cases pending

/-- The log of some checking goes on with that of what is checked next. -/
theorem Logs.append {log log' : List CheckRecord} (sound : scope.Sound stack before)
    (sound' : scope.Sound stack between) (advances : before.Advances between)
    (advances' : between.Advances after) (logs : scope.Logs before between log)
    (logs' : scope.Logs between after log') : scope.Logs before after (log ++ log') := by
  constructor
  case nodup =>
    rw [List.map_append, List.nodup_append]
    refine ⟨logs.nodup, logs'.nodup, ?_⟩
    rintro index in_log other in_log' rfl
    obtain ⟨record, member, rfl⟩ := List.mem_map.mp in_log
    obtain ⟨record', member', same⟩ := List.mem_map.mp in_log'
    obtain ⟨value?, found⟩ := logs.done record member
    have pending := logs'.fresh record' member'
    rw [same, found] at pending
    cases pending
  case fresh =>
    exact List.forall_mem_append.mpr ⟨logs.fresh, fun record member =>
      sound.pending_before sound' advances (logs'.fresh record member)⟩
  case done =>
    refine List.forall_mem_append.mpr ⟨fun record member => ?_, logs'.done⟩
    obtain ⟨value?, found⟩ := logs.done record member
    exact ⟨value?, advances' _ _ found⟩
  case complete =>
    intro index value? found
    rw [List.map_append, List.mem_append]
    rcases logs'.complete index value? found with early | late
    · exact (logs.complete index value? early).imp_right .inl
    · exact .inr (.inr late)
  case inProgress => exact List.forall_mem_append.mpr ⟨logs.inProgress, logs'.inProgress⟩
  case settled =>
    exact List.forall_mem_append.mpr ⟨fun record member reference inside =>
      settled_advances advances' (logs.settled record member reference inside), logs'.settled⟩
  case inOrder =>
    refine logs.inOrder.append (logs'.inOrder.mono fun index ⟨value?, found⟩ => ?_)
    exact (logs.complete index value? found).symm.imp_right fun early => ⟨value?, early⟩

/-- A constant is logged when it is done, behind all those that its own check has demanded. -/
theorem Logs.leave {index : Nat} {log : List CheckRecord} (pending : before.known index = .pending)
    (logs : scope.Logs (before.set index .inProgress) between log)
    (busy : between.known index = .inProgress)
    (below : ∀ other ∈ index :: stack, ReflTransGen scope.Refers other index)
    (settled : ∀ reference ∈ (scope.planAt index).references, reference.index ∈ index :: stack ∨
      ∃ value?, between.known reference.index = .done value?) (value? : Option ConstantValue) :
    scope.Logs before (between.set index (.done value?)) (log ++ [⟨index, index :: stack⟩]) := by
  have inside : index < before.constants.length := CheckState.lt_length_of_ne (by simp [pending])
  have inside' : index < between.constants.length := CheckState.lt_length_of_ne (by simp [busy])
  have leaves := CheckState.advances_leave busy value?
  have differ (record : CheckRecord) (member : record ∈ log) : index ≠ record.index := by
    rintro rfl
    have found := logs.fresh record member
    rw [CheckState.known_set_self inside] at found
    cases found
  constructor
  case nodup =>
    rw [List.map_append, List.map_singleton]
    refine List.nodup_append_comm.mpr (List.nodup_cons.mpr ⟨fun again => ?_, logs.nodup⟩)
    obtain ⟨record, member, same⟩ := List.mem_map.mp again
    exact differ record member same.symm
  case fresh =>
    refine List.forall_mem_append.mpr ⟨fun record member => ?_,
      List.forall_mem_singleton.mpr pending⟩
    rw [← logs.fresh record member, CheckState.known_set_of_ne (differ record member)]
  case done =>
    refine List.forall_mem_append.mpr ⟨fun record member => ?_,
      List.forall_mem_singleton.mpr ⟨value?, CheckState.known_set_self inside'⟩⟩
    obtain ⟨value?, found⟩ := logs.done record member
    exact ⟨value?, leaves _ _ found⟩
  case complete =>
    intro other value?' found
    rw [List.map_append, List.mem_append, List.map_singleton, List.mem_singleton]
    by_cases same : index = other
    · exact .inr (.inr same.symm)
    · rw [CheckState.known_set_of_ne same] at found
      exact (logs.complete other value?' found).imp (CheckState.done_enter_iff pending).mp .inl
  case inProgress =>
    exact List.forall_mem_append.mpr ⟨logs.inProgress,
      List.forall_mem_singleton.mpr ⟨List.mem_cons_self, below⟩⟩
  case settled =>
    exact List.forall_mem_append.mpr ⟨fun record member reference inside =>
        settled_advances leaves (logs.settled record member reference inside),
      List.forall_mem_singleton.mpr fun reference member =>
        settled_advances leaves (settled reference member)⟩
  case inOrder =>
    refine .append (logs.inOrder.mono ?_) ⟨fun reference member => ?_, trivial⟩
    · exact fun other ⟨value?, early⟩ => ⟨value?, (CheckState.done_enter_iff pending).mp early⟩
    · refine (settled reference member).imp_right fun ⟨value?, found⟩ => ?_
      exact (logs.complete _ value? found).symm.imp_right fun early =>
        ⟨value?, (CheckState.done_enter_iff pending).mp early⟩

namespace Progresses

variable {own own' : Diagnostics}

theorem refl (sound : scope.Sound stack before) : scope.Progresses stack before [] before where
  sound := sound
  advances := .refl before
  accounted := by
    refine ⟨[], ⟨List.nodup_nil, ?_, ?_, fun _ _ => .inl, ?_, ?_, trivial⟩, by simp⟩ <;> simp

theorem not_clear (progresses : scope.Progresses stack before own after)
    (error : ¬ Clear before.reported) : ¬ Clear after.reported := by
  obtain ⟨log, _, accounted⟩ := progresses.accounted
  intro clear
  refine error fun problem member => clear problem (accounted.mem_iff.mpr ?_)
  rw [List.append_assoc]
  exact List.mem_append_left _ member

theorem trans (sound : scope.Sound stack before)
    (first : scope.Progresses stack before own between)
    (second : scope.Progresses stack between own' after) :
    scope.Progresses stack before (own ++ own') after where
  sound := second.sound
  advances := first.advances.trans second.advances
  accounted := by
    obtain ⟨log, logs, accounted⟩ := first.accounted
    obtain ⟨log', logs', accounted'⟩ := second.accounted
    refine ⟨log ++ log', logs.append sound first.sound first.advances second.advances logs', ?_⟩
    rw [logs.flatMap_congr second.advances] at accounted
    rw [List.flatMap_append]
    rw [← Multiset.coe_eq_coe] at accounted accounted' ⊢
    simp only [← Multiset.coe_add] at accounted accounted' ⊢
    rw [accounted', accounted]
    abel

end Progresses

theorem Sound.reportAll (sound : scope.Sound stack before) (problems : Diagnostics) :
    scope.Sound stack (before.reportAll problems) where
  length := sound.length
  inProgress := sound.inProgress
  correct := sound.correct
  loud vocal index inside found clear :=
    sound.loud vocal index inside found (clear_append.mp clear).1

theorem Progresses.reportAll {own : Diagnostics} (progresses : scope.Progresses stack before own after)
    (sound : scope.Sound stack before) (problems : Diagnostics) :
    scope.Progresses stack before (own ++ problems) (after.reportAll problems) := by
  refine progresses.trans sound
    ⟨progresses.sound.reportAll problems, .refl _, [],
      ⟨List.nodup_nil, ?_, ?_, fun _ _ => .inl, ?_, ?_, trivial⟩, by simp [CheckState.reportAll]⟩ <;> simp

/-- The number of constants that have not been asked for. -/
def pending (scope : ConstantScope) (state : CheckState) : Nat :=
  (List.range scope.model.constants.length).countP fun index =>
    match state.known index with
    | .pending => true
    | _ => false

theorem pending_le_fuel (scope : ConstantScope) (state : CheckState) :
    scope.pending state ≤ scope.fuel :=
  List.countP_le_length.trans_eq List.length_range

theorem Sound.pending_le (sound : scope.Sound stack before) (sound' : scope.Sound stack after)
    (advances : before.Advances after) : scope.pending after ≤ scope.pending before := by
  refine List.countP_mono_left fun index _ at_after => ?_
  split at at_after
  · rename_i found
    rw [sound.pending_before sound' advances found]
  · cases at_after

/-- A demand for constants that do not close a cycle, as long as enough of them are pending. -/
def Answers (scope : ConstantScope) (stack : List Nat) (fuel : Nat)
    (demand : Nat → Checking (Option ConstantValue)) : Prop :=
  ∀ index before, scope.Sound stack before → index ∉ stack →
    (∀ other ∈ stack, ReflTransGen scope.Refers other index) → scope.pending before ≤ fuel →
    scope.Demanded stack index before (demand index before)

theorem not_clear_misuse {reference : Reference} {value : ConstantValue}
    (inside : reference.index < scope.model.constants.length)
    (rejected : scope.accept reference (some value) = none) :
    ¬ Clear (scope.misuse reference (some value)) := by
  simp only [accept, List.getElem?_eq_getElem inside] at rejected
  simp only [misuse, List.getElem?_eq_getElem inside]
  split at rejected
  · cases rejected
  · rename_i differ
    rw [if_neg differ]
    exact not_clear_of_mem (List.mem_singleton_self _) rfl

private theorem runs_refer {fuel : Nat} {demand : Nat → Checking (Option ConstantValue)}
    (answers : scope.Answers stack fuel demand) (reference : Reference)
    (sound : scope.Sound stack before)
    (below : ∀ other ∈ stack, ReflTransGen scope.Refers other reference.index)
    (enough : scope.pending before ≤ fuel) :
    scope.Runs stack (.refer reference) before
      ((Plan.refer reference).run scope demand before) := by
  by_cases busy : reference.index ∈ stack
  · have found := (sound.inProgress reference.index).mpr busy
    have own : scope.useProblems stack before.value? reference = [cyclicUse reference] :=
      if_pos busy
    rw [run_refer_of_inProgress found]
    refine ⟨?_, fun other member => .inl (List.mem_singleton.mp member ▸ busy), ?_, fun _ _ _ => ?_⟩
    · simpa [Plan.problems, own] using (Progresses.refl sound).reportAll sound [cyclicUse reference]
    · simp [Plan.evaluate, answer, CheckState.value?, found]
    · refine not_clear_of_mem (List.mem_append_right _ (List.mem_singleton_self _)) ?_
      rfl
  · have idle : before.known reference.index ≠ .inProgress := fun found =>
      busy ((sound.inProgress reference.index).mp found)
    have demanded := answers reference.index before sound busy below enough
    have value_eq := CheckState.value?_of_done demanded.done
    rw [run_refer_of_ne idle]
    generalize demand reference.index before = result at demanded value_eq
    have own : scope.useProblems stack result.2.value? reference =
        scope.misuse reference result.1 := by
      rw [useProblems, if_neg busy, value_eq]
    refine ⟨?_, fun other member => .inr ?_, ?_, fun vocal inside absent => ?_⟩
    · simpa [Plan.problems, own] using
        demanded.progresses.reportAll sound (scope.misuse reference result.1)
    · exact ⟨_, List.mem_singleton.mp member ▸ demanded.done⟩
    · simp [Plan.evaluate, answer, value_eq]
    · intro clear
      obtain ⟨clear_before, clear_own⟩ := clear_append.mp clear
      cases value : result.1 with
      | none =>
          have found := demanded.done
          rw [value] at found
          exact demanded.progresses.sound.loud vocal _ inside found clear_before
      | some value' =>
          simp only [value] at absent clear_own
          exact not_clear_misuse inside absent clear_own

theorem Runs.both {α β γ : Type} {first : Plan β} {second : Plan γ}
    {result : Option β × CheckState} {result' : Option γ × CheckState} (combine : β → γ → α)
    (sound : scope.Sound stack before) (left : scope.Runs stack first before result)
    (right : scope.Runs stack second result.2 result') :
    scope.Runs stack (.both combine first second) before
      (result.1.bind fun b => result'.1.map (combine b), result'.2) where
  progresses := by
    have same : first.problems (scope.useProblems stack result.2.value?) =
        first.problems (scope.useProblems stack result'.2.value?) :=
      Plan.problems_congr fun reference member =>
        useProblems_congr right.progresses.advances (left.settled reference member)
    rw [Plan.problems, ← same]
    exact left.progresses.trans sound right.progresses
  settled reference member := by
    rcases List.mem_append.mp member with in_first | in_second
    · exact settled_advances right.progresses.advances (left.settled reference in_first)
    · exact right.settled reference in_second
  value := by
    have same : first.evaluate (scope.answer result.2.value?) =
        first.evaluate (scope.answer result'.2.value?) := by
      refine Plan.evaluate_congr fun reference member => ?_
      rw [answer, answer]
      rcases left.settled reference member with busy | ⟨value?, found⟩
      · have found := (left.progresses.sound.inProgress reference.index).mpr busy
        have found' := (right.progresses.sound.inProgress reference.index).mpr busy
        rw [CheckState.value?, CheckState.value?, found, found']
      · rw [CheckState.value?_of_done found,
          CheckState.value?_of_done (right.progresses.advances _ _ found)]
    rw [Plan.evaluate, ← same, ← left.value, ← right.value]
  loud vocal vocal_both absent := by
    cases value : result.1 with
    | none => exact right.progresses.not_clear (left.loud vocal vocal_both.1 value)
    | some b =>
        rw [value, Option.bind_some, Option.map_eq_none_iff] at absent
        exact right.loud vocal vocal_both.2 absent

/-- A plan is carried out rightly if constants are. -/
theorem runs_run {fuel : Nat} {demand : Nat → Checking (Option ConstantValue)}
    (answers : scope.Answers stack fuel demand) {α : Type} (plan : Plan α)
    (sound : scope.Sound stack before)
    (below : ∀ reference ∈ plan.references, ∀ other ∈ stack,
      ReflTransGen scope.Refers other reference.index)
    (enough : scope.pending before ≤ fuel) :
    scope.Runs stack plan before (plan.run scope demand before) := by
  induction plan generalizing before with
  | value a =>
      exact ⟨.refl sound, by simp [Plan.references], rfl, fun _ _ absent => by cases absent⟩
  | silent =>
      exact ⟨.refl sound, by simp [Plan.references], rfl, fun _ vocal => vocal.elim⟩
  | refuse problem =>
      refine ⟨(Progresses.refl sound).reportAll sound [problem], by simp [Plan.references], rfl,
        fun _ vocal _ => ?_⟩
      exact not_clear_of_mem (List.mem_append_right _ (List.mem_singleton_self _)) vocal
  | refer reference =>
      exact runs_refer answers reference sound
        (below reference (List.mem_singleton_self reference)) enough
  | both combine first second induction induction' =>
      have left := induction sound (fun r member => below r (List.mem_append_left _ member)) enough
      have fewer := sound.pending_le left.progresses.sound left.progresses.advances
      have right := induction' left.progresses.sound
        (fun r member => below r (List.mem_append_right _ member)) (fewer.trans enough)
      rw [run_both]
      exact Runs.both combine sound left right

/-! ## Checking a constant -/

theorem Sound.enter (sound : scope.Sound stack before) {index : Nat}
    (pending : before.known index = .pending) :
    scope.Sound (index :: stack) (before.set index .inProgress) := by
  have inside : index < before.constants.length := CheckState.lt_length_of_ne (by simp [pending])
  have done_iff {other : Nat} {value? : Option ConstantValue} :=
    @CheckState.done_enter_iff _ _ pending other value?
  refine ⟨(CheckState.length_set ..).trans sound.length, fun other => ?_,
    fun other value? found => sound.correct other value? (done_iff.mp found),
    fun vocal other other_inside found => sound.loud vocal other other_inside (done_iff.mp found)⟩
  by_cases same : index = other
  · rw [← same, CheckState.known_set_self inside]
    simp
  · rw [CheckState.known_set_of_ne same, sound.inProgress, List.mem_cons]
    simp [Ne.symm same]

theorem Sound.leave {index : Nat} {value? : Option ConstantValue}
    (sound : scope.Sound (index :: stack) before) (fresh : index ∉ stack)
    (correct : scope.Correct index value?)
    (loud : scope.AllVocal → index < scope.model.constants.length → value? = none →
      ¬ Clear before.reported) :
    scope.Sound stack (before.set index (.done value?)) := by
  have busy := (sound.inProgress index).mpr List.mem_cons_self
  have inside : index < before.constants.length := CheckState.lt_length_of_ne (by simp [busy])
  constructor
  case length => exact (CheckState.length_set ..).trans sound.length
  case inProgress =>
    intro other
    by_cases same : index = other
    · rw [← same, CheckState.known_set_self inside]
      simp [fresh]
    · rw [CheckState.known_set_of_ne same, sound.inProgress, List.mem_cons]
      simp [Ne.symm same]
  case correct =>
    intro other value?' found
    by_cases same : index = other
    · rw [← same, CheckState.known_set_self inside] at found
      cases found
      exact same ▸ correct
    · rw [CheckState.known_set_of_ne same] at found
      exact sound.correct other value?' found
  case loud =>
    intro vocal other other_inside found
    by_cases same : index = other
    · rw [← same, CheckState.known_set_self inside] at found
      cases found
      exact loud vocal (same ▸ other_inside) rfl
    · rw [CheckState.known_set_of_ne same] at found
      exact sound.loud vocal other other_inside found

/-- The value of a plan that was carried out while its constant was in progress is right. -/
theorem Runs.correct {index : Nat} {result : Option ConstantValue × CheckState}
    (below : ∀ other ∈ stack, ReflTransGen scope.Refers other index)
    (runs : scope.Runs stack (scope.planAt index) before result) :
    scope.Correct index result.1 := by
  have sound := runs.progresses.sound
  constructor
  case elaborates =>
    intro acyclic
    have same : scope.elaborateAt result.2.value? index = _ := elaborateAt_eq _ index
    rw [runs.value, ← same]
    refine .intro ?_
    rintro other ⟨reference, inside, rfl⟩
    have refers : scope.Refers index reference.index := ⟨reference, inside, rfl⟩
    rcases runs.settled reference inside with busy | ⟨value?, found⟩
    · exact absurd ⟨index, .refl, .head' refers (below _ busy)⟩ acyclic
    · rw [CheckState.value?_of_done found]
      exact (sound.correct _ _ found).elaborates fun cycle => acyclic (cycle.of_refers refers)
  case absent =>
    intro cyclic
    obtain ⟨_, ⟨reference, inside, rfl⟩, cyclic'⟩ := cyclic.exists_refers
    rw [runs.value]
    refine Plan.evaluate_eq_none inside ?_
    rcases runs.settled reference inside with busy | ⟨value?, found⟩
    · rw [answer, CheckState.value?, (sound.inProgress _).mpr busy, accept_none]
    · rw [answer, CheckState.value?_of_done found, (sound.correct _ _ found).absent cyclic',
        accept_none]

/-- A pending constant is checked while it counts as in progress. -/
theorem demanded_of_runs {index : Nat} {result : Option ConstantValue × CheckState}
    (fresh : index ∉ stack)
    (below : ∀ other ∈ stack, ReflTransGen scope.Refers other index)
    (pending : before.known index = .pending)
    (runs : scope.Runs (index :: stack) (scope.planAt index) (before.set index .inProgress)
      result) :
    scope.Demanded stack index before (result.1, result.2.set index (.done result.1)) := by
  have below' : ∀ other ∈ index :: stack, ReflTransGen scope.Refers other index :=
    List.forall_mem_cons.mpr ⟨.refl, below⟩
  have sound_inside := runs.progresses.sound
  have busy := (sound_inside.inProgress index).mpr List.mem_cons_self
  have inside : index < result.2.constants.length := CheckState.lt_length_of_ne (by simp [busy])
  have leaves := CheckState.advances_leave busy result.1
  refine ⟨⟨?_, ?_, ?_⟩, CheckState.known_set_self inside⟩
  · refine sound_inside.leave fresh (runs.correct below') fun vocal index_inside absent => ?_
    exact runs.loud vocal (vocal index index_inside) absent
  · intro other value? found
    have entered := (CheckState.done_enter_iff pending).mpr found
    exact leaves other value? (runs.progresses.advances other value? entered)
  · obtain ⟨log, logs, accounted⟩ := runs.progresses.accounted
    refine ⟨log ++ [⟨index, index :: stack⟩],
      logs.leave pending busy below' runs.settled result.1, ?_⟩
    have own : (scope.planAt index).problems (scope.useProblems (index :: stack) result.2.value?) =
        scope.recordProblems (result.2.set index (.done result.1)).value? ⟨index, index :: stack⟩ :=
      Plan.problems_congr fun reference member =>
        useProblems_congr leaves (runs.settled reference member)
    rw [logs.flatMap_congr leaves, own, List.append_assoc] at accounted
    rw [List.append_nil, List.flatMap_append, List.flatMap_singleton]
    exact accounted.trans (List.perm_append_comm.append_left _)

theorem valueOf_apply (fuel index : Nat) (state : CheckState) :
    scope.valueOf fuel index state =
      (match state.known index with
      | .done value? => return value?
      | .inProgress => return none
      | .pending =>
          match fuel, scope.model.constants[index]? with
          | fuel + 1, some constant => do
              Checking.setState index .inProgress
              let value? ← check scope (valueOf scope fuel) constant.file constant.type
                constant.value
              Checking.setState index (.done value?)
              return value?
          | _, _ => return none : Checking (Option ConstantValue)) state := by
  rw [valueOf.eq_def]
  rfl

theorem valueOf_of_done {fuel index : Nat} {value? : Option ConstantValue}
    (found : before.known index = .done value?) :
    scope.valueOf fuel index before = (value?, before) := by
  rw [valueOf_apply, found]
  rfl

theorem valueOf_of_pending {fuel index : Nat} {constant : Constant Literal}
    (found : before.known index = .pending)
    (declared : scope.model.constants[index]? = some constant) :
    scope.valueOf (fuel + 1) index before =
      (((scope.planAt index).run scope (scope.valueOf fuel)
          (before.set index .inProgress)).1,
        ((scope.planAt index).run scope (scope.valueOf fuel)
          (before.set index .inProgress)).2.set index
          (.done ((scope.planAt index).run scope (scope.valueOf fuel)
            (before.set index .inProgress)).1)) := by
  rw [valueOf_apply, found, planAt]
  simp only [declared, check_eq_run]
  rfl

/-- Where all constants are done, each has the value that it should have. -/
theorem Sound.correct_value? (sound : scope.Sound stack before)
    (done : ∀ index < scope.model.constants.length, ∃ value?, before.known index = .done value?)
    (index : Nat) : scope.Correct index (before.value? index) := by
  obtain ⟨value?, found⟩ : ∃ value?, before.known index = .done value? := by
    by_cases inside : index < scope.model.constants.length
    · exact done index inside
    · exact ⟨none, CheckState.known_of_le (sound.length ▸ Nat.le_of_not_lt inside)⟩
  rw [CheckState.value?_of_done found]
  exact sound.correct index value? found

/-- What is not pending and not in progress is known already. -/
theorem Sound.demanded_of_ne_pending (sound : scope.Sound stack before) {index : Nat}
    (fresh : index ∉ stack) (reached : before.known index ≠ .pending) (fuel : Nat) :
    scope.Demanded stack index before (scope.valueOf fuel index before) := by
  cases found : before.known index with
  | pending => exact absurd found reached
  | inProgress => exact absurd ((sound.inProgress index).mp found) fresh
  | done value? =>
      rw [valueOf_of_done found]
      exact ⟨.refl sound, found⟩

theorem Sound.lt_length (sound : scope.Sound stack before) {index : Nat}
    (pending : before.known index = .pending) : index < scope.model.constants.length :=
  sound.length ▸ CheckState.lt_length_of_ne (by simp [pending])

theorem Sound.pending_enter_lt (sound : scope.Sound stack before) {index : Nat}
    (pending : before.known index = .pending) :
    scope.pending (before.set index .inProgress) < scope.pending before := by
  have inside := sound.lt_length pending
  refine List.countP_lt_countP (fun other _ found => ?_) (List.mem_range.mpr inside) (by rw [pending])
    (by rw [CheckState.known_set_self (sound.length ▸ inside)])
  by_cases same : index = other
  · rw [← same, pending]
  · rwa [CheckState.known_set_of_ne same] at found

/-- With enough fuel, the value of a constant is found and is right. -/
theorem answers_valueOf (scope : ConstantScope) (stack : List Nat) (fuel : Nat) :
    scope.Answers stack fuel (scope.valueOf fuel) := by
  induction fuel generalizing stack with
  | zero =>
      intro index before sound fresh below enough
      refine sound.demanded_of_ne_pending fresh (fun found => ?_) 0
      have fewer := sound.pending_enter_lt found
      omega
  | succ fuel induction =>
      intro index before sound fresh below enough
      by_cases found : before.known index = .pending
      · have declared := List.getElem?_eq_getElem (sound.lt_length found)
        have fewer := sound.pending_enter_lt found
        rw [valueOf_of_pending found declared]
        refine demanded_of_runs fresh below found ?_
        refine runs_run (induction (index :: stack)) (scope.planAt index) (sound.enter found)
          (fun reference member => ?_) (by omega)
        have refers : scope.Refers index reference.index := ⟨reference, member, rfl⟩
        exact List.forall_mem_cons.mpr ⟨.single refers, fun other inside =>
          (below other inside).tail refers⟩
      · exact sound.demanded_of_ne_pending fresh found (fuel + 1)

/-- At first nothing is known. -/
theorem sound_initialState (scope : ConstantScope) : scope.Sound [] scope.initialState := by
  have known (index : Nat) : scope.initialState.known index =
      if index < scope.model.constants.length then .pending else .done none := by
    rw [CheckState.known, List.getD_eq_getElem?_getD, initialState, List.getElem?_map]
    split
    · rename_i inside
      rw [List.getElem?_eq_getElem inside]
      rfl
    · rename_i outside
      rw [List.getElem?_eq_none (Nat.le_of_not_lt outside)]
      rfl
  constructor
  case length => exact List.length_map ..
  case inProgress =>
    intro index
    rw [known]
    split <;> simp
  case correct =>
    intro index value? found
    rw [known] at found
    split at found
    · cases found
    · rename_i outside
      cases found
      exact correct_of_none (List.getElem?_eq_none (Nat.le_of_not_lt outside))
  case loud =>
    intro _ index inside found
    rw [known, if_pos inside] at found
    cases found

/-- Where no constant is in progress, literals are checked rightly. -/
theorem runs_check (sound : scope.Sound [] before) (file : FileId) (expected : TypeId)
    (literal : Literal) :
    scope.Runs [] (scope.plan file expected literal) before
      (scope.check (scope.valueOf scope.fuel) file expected literal before) := by
  rw [check_eq_run]
  exact runs_run (answers_valueOf scope [] scope.fuel) _ sound (by simp) (pending_le_fuel scope before)

/-- Where no constant is in progress, the value of a constant is found and is right. -/
theorem demanded_valueOf (sound : scope.Sound [] before) (index : Nat) :
    scope.Demanded [] index before (scope.valueOf scope.fuel index before) :=
  answers_valueOf scope [] scope.fuel index before sound (by simp) (by simp)
    (pending_le_fuel scope before)

end ConstantScope
end IdlSchema
