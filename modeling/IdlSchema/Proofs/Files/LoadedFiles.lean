import Mathlib
import IdlSchema.Proofs.Diagnostics
import IdlSchema.Proofs.Files.FileTables
import IdlSchema.Proofs.Files.IncludeWalks

/-!
# What every load keeps

A resolver may have effects of any kind, so what it answers cannot be told beforehand.  Still each
step of a load only adds to what is known: the roots stay in the table as they are, whatever is
found later, and no problems but those of includes are reported.
-/

namespace IdlSchema

open Diagnostics

/-- The kinds of problems that includes can have. -/
def includeKinds : List DiagnosticKind :=
  [.unresolvedInclude, .includeDepthExceeded]

/-- Nothing that is known is lost, no path is repeated, and only problems of includes are added. -/
structure LoadState.Grows (before after : LoadState) : Prop where
  files : before.files.Grows after.files
  nodup : before.files.paths.Nodup → after.files.paths.Nodup
  reported : ∃ more, after.reported = before.reported ++ more ∧ Among includeKinds more

namespace LoadState.Grows

variable {before between after : LoadState}

theorem refl (state : LoadState) : state.Grows state :=
  ⟨.refl _, id, [], (List.append_nil _).symm, among_nil⟩

theorem trans (first : before.Grows between) (second : between.Grows after) :
    before.Grows after := by
  obtain ⟨more, same, among⟩ := first.reported
  obtain ⟨more', same', among'⟩ := second.reported
  refine ⟨first.files.trans second.files, second.nodup ∘ first.nodup, more ++ more', ?_,
    among_append.mpr ⟨among, among'⟩⟩
  rw [same', same, List.append_assoc]

/-- What changes neither files nor problems keeps both. -/
theorem of_eq (files : after.files = before.files) (reported : after.reported = before.reported) :
    before.Grows after :=
  ⟨files ▸ .refl _, fun nodup => files ▸ nodup, [], by rw [reported, List.append_nil], among_nil⟩

end LoadState.Grows

namespace Loading

variable {m : Type → Type} [Monad m] {α β : Type}

/-- An action only adds to what is known, whatever its effects. -/
def Adds (action : Loading m α) : Prop :=
  ∀ before, SatisfiesM (fun result => before.Grows result.2) (action.run before)

variable [LawfulMonad m]

namespace Adds

theorem pure (a : α) : Adds (Pure.pure a : Loading m α) := by
  intro before
  rw [StateT.run_pure]
  exact .pure (.refl before)

theorem bind {action : Loading m α} {next : α → Loading m β} (first : Adds action)
    (later : ∀ a, Adds (next a)) : Adds (action >>= next) := by
  intro before
  rw [StateT.run_bind]
  exact (first before).bind fun result grows =>
    (later result.1 result.2).imp fun grows' => grows.trans grows'

theorem get : Adds (MonadState.get : Loading m LoadState) := by
  intro before
  rw [StateT.run_get]
  exact .pure (.refl before)

theorem modifyGet {change : LoadState → α × LoadState}
    (grows : ∀ before : LoadState, before.Grows (change before).2) :
    Adds (MonadStateOf.modifyGet change : Loading m α) :=
  fun before => .pure (grows before)

/-- The effects of a resolver do not touch what is known. -/
theorem lift (effect : m α) : Adds (StateT.lift effect : Loading m α) := by
  intro before
  rw [StateT.run_lift]
  exact SatisfiesM.trivial.bind fun a _ => .pure (.refl before)

theorem forM {list : List α} {step : α → Loading m PUnit} (each : ∀ a ∈ list, Adds (step a)) :
    Adds (list.forM step) := by
  induction list with
  | nil => exact .pure PUnit.unit
  | cons a list induction =>
      exact .bind (each a List.mem_cons_self) fun _ =>
        induction fun other member => each other (.tail _ member)

end Adds

theorem adds_report {diagnostic : Diagnostic} (known : diagnostic.kind ∈ includeKinds) :
    Adds (report diagnostic : Loading m Unit) :=
  .modifyGet fun _ => ⟨.refl _, id, [diagnostic], rfl, among_singleton known⟩

theorem adds_addFile (path : String) (tree : FileTree) :
    Adds (addFile path tree : Loading m FileId) :=
  .modifyGet fun before =>
    have added := FileTable.added_add before.files path tree
    ⟨added.grows, added.nodup, [], (List.append_nil _).symm, among_nil⟩

theorem adds_enter (file : FileId) : Adds (enter file : Loading m Bool) :=
  .modifyGet fun before => by
    split
    · exact .refl before
    · exact .of_eq rfl rfl

variable (resolver : IncludeResolver m)

theorem adds_resolveAnew (source : FileId) (directive : IncludeDecl) :
    Adds (resolveAnew resolver source directive) := by
  refine .bind .get fun state => .bind (.lift _) fun found => ?_
  cases found with
  | none => exact .bind .get fun state => .pure _
  | some found => exact .bind (adds_addFile found.path found.tree) fun id => .pure _

theorem adds_resolve (source : FileId) (directive : IncludeDecl) :
    Adds (resolve resolver source directive) := by
  refine .bind .get fun state => ?_
  split
  · exact .pure _
  · refine .bind (adds_resolveAnew resolver source directive) fun answer => ?_
    have keep : Adds (do
        modify fun state : LoadState =>
          { state with answers := ((source, directive.path), answer) :: state.answers }
        return answer : Loading m (Option FileId)) :=
      .bind (.modifyGet fun before => .of_eq rfl rfl) fun _ => .pure _
    dsimp only
    split
    · exact .bind (adds_report (by simp [includeKinds, Diagnostic.detailed, Diagnostic.plain]))
        fun _ => keep
    · exact keep

theorem adds_visit (limit remaining : Nat) (file : FileId) :
    Adds (visit resolver limit remaining file) := by
  induction remaining generalizing file with
  | zero =>
      refine .bind (adds_enter file) fun fresh => ?_
      cases fresh with
      | false => exact .pure _
      | true =>
          refine .bind .get fun state => .forM fun directive _ => adds_report ?_
          simp [includeKinds, tooDeep, Diagnostic.detailed, Diagnostic.plain]
  | succ remaining induction =>
      refine .bind (adds_enter file) fun fresh => ?_
      cases fresh with
      | false => exact .pure _
      | true =>
          refine .bind .get fun state => .forM fun directive _ =>
            .bind (adds_resolve resolver file directive) fun target? => ?_
          cases target? with
          | none => exact .pure _
          | some target =>
              refine .bind (.modifyGet fun before => ?_) fun _ => induction target
              refine ⟨before.files.grows_addInclude file target, fun nodup => ?_, [],
                (List.append_nil _).symm, among_nil⟩
              exact (before.files.paths_addInclude file target).symm ▸ nodup

/-- The roots are added without effects. -/
theorem run_addRoots (roots : List FileTree) (state : LoadState) :
    (roots.mapM fun root => addFile root.path root : Loading m (List FileId)).run state =
      Pure.pure ((IncludeWalk.addRoots roots state.files).1,
        { state with files := (IncludeWalk.addRoots roots state.files).2 }) := by
  induction roots generalizing state with
  | nil =>
      rw [List.mapM_nil, StateT.run_pure]
      rfl
  | cons root roots induction =>
      have added : (addFile root.path root : Loading m FileId).run state =
          Pure.pure ((FileTable.add root.path root state.files).1,
            { state with files := (FileTable.add root.path root state.files).2 }) := rfl
      have walked : IncludeWalk.addRoots (root :: roots) state.files = _ :=
        mapM_cons_apply _ root roots state.files
      rw [List.mapM_cons, StateT.run_bind, added, pure_bind, StateT.run_bind, induction, pure_bind,
        StateT.run_pure, walked]
      rfl

end Loading

/-- The roots stay in the table, no path is repeated, and only problems of includes are reported. -/
theorem FileTable.satisfiesM_load {m : Type → Type} [Monad m] [LawfulMonad m]
    (resolver : IncludeResolver m) (limit : Nat) (roots : List FileTree) :
    SatisfiesM (fun loaded : FileTable × Diagnostics =>
        (IncludeWalk.addRoots roots .empty).2.Grows loaded.1 ∧ loaded.1.paths.Nodup ∧
          Among includeKinds loaded.2)
      (FileTable.load resolver limit roots) := by
  have visits (ids : List FileId) : Loading.Adds (ids.forM (Loading.visit resolver limit limit)) :=
    .forM fun id _ => Loading.adds_visit resolver limit limit id
  rw [load, Loading.load, StateT.run_bind, Loading.run_addRoots, pure_bind]
  have added := IncludeWalk.rootsAdded_addRoots roots .empty
  refine (visits _ _).bind fun result grows =>
    .pure ⟨grows.files, grows.nodup (added.nodup List.nodup_nil), ?_⟩
  obtain ⟨more, same, among⟩ := grows.reported
  exact same ▸ among

end IdlSchema
