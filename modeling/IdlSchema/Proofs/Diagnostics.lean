import Mathlib.Tactic
import IdlSchema.Diagnostic.Basic

/-!
# Problems that are no errors

A list of problems is clear if it holds no error.  Sorting does not matter for this, and a list
that is put together is clear when its parts are.
-/

namespace IdlSchema
namespace Diagnostic

/-- Adding related positions changes neither the kind nor the position of a problem. -/
theorem foldl_relatedTo {α : Type} (list : List α) (message : α → String)
    (location : α → Location) (diagnostic : Diagnostic) :
    (list.foldl (fun diagnostic a => diagnostic.relatedTo (message a) (location a))
        diagnostic).kind = diagnostic.kind ∧
      (list.foldl (fun diagnostic a => diagnostic.relatedTo (message a) (location a))
        diagnostic).location = diagnostic.location := by
  induction list generalizing diagnostic with
  | nil => exact ⟨rfl, rfl⟩
  | cons a list induction => exact induction (diagnostic.relatedTo (message a) (location a))

/-- Adding related positions does not change the message of a problem. -/
theorem message_foldl_relatedTo {α : Type} (list : List α) (message : α → String)
    (location : α → Location) (diagnostic : Diagnostic) :
    (list.foldl (fun diagnostic a => diagnostic.relatedTo (message a) (location a))
        diagnostic).message = diagnostic.message := by
  induction list generalizing diagnostic with
  | nil => rfl
  | cons a list induction => exact induction (diagnostic.relatedTo (message a) (location a))

theorem related_foldl_relatedTo {α : Type} (list : List α) (message : α → String)
    (location : α → Location) (diagnostic : Diagnostic) :
    (list.foldl (fun diagnostic a => diagnostic.relatedTo (message a) (location a))
        diagnostic).related =
      diagnostic.related ++ list.map fun a => ⟨message a, location a⟩ := by
  induction list generalizing diagnostic with
  | nil => exact (List.append_nil _).symm
  | cons a list induction =>
      rw [List.foldl_cons, induction, List.map_cons, relatedTo, List.append_assoc,
        List.singleton_append]

theorem isError_congr {a b : Diagnostic} (same : a.kind = b.kind) : a.isError = b.isError := by
  rw [isError, isError, severity, severity, same]

theorem isError_of_kind {diagnostic : Diagnostic} {kind : DiagnosticKind}
    (same : diagnostic.kind = kind) (error : kind.severity = .error) :
    diagnostic.isError = true := by
  rw [isError, severity, same, error]
  rfl

end Diagnostic

namespace Diagnostics

/-- No problem of a list is an error. -/
def Clear (diagnostics : Diagnostics) : Prop :=
  ∀ diagnostic ∈ diagnostics, diagnostic.isError = false

theorem clear_nil : Clear [] :=
  fun _ member => absurd member List.not_mem_nil

theorem not_clear_of_mem {diagnostics : Diagnostics} {diagnostic : Diagnostic}
    (member : diagnostic ∈ diagnostics) (error : diagnostic.isError = true) :
    ¬ Clear diagnostics :=
  fun clear => absurd ((clear diagnostic member).symm.trans error) Bool.false_ne_true

@[simp]
theorem clear_append {a b : Diagnostics} : Clear (a ++ b) ↔ Clear a ∧ Clear b :=
  List.forall_mem_append

theorem clear_flatMap {α : Type} {list : List α} {problems : α → Diagnostics} :
    Clear (list.flatMap problems) ↔ ∀ a ∈ list, Clear (problems a) := by
  simp only [Clear, List.mem_flatMap]
  exact ⟨fun clear a member problem inner => clear problem ⟨a, member, inner⟩,
    fun clear problem ⟨a, member, inner⟩ => clear a member problem inner⟩

theorem clear_perm {a b : Diagnostics} (perm : a.Perm b) : Clear a ↔ Clear b :=
  forall_congr' fun _ => by rw [perm.mem_iff]

theorem clear_iff_hasErrors {diagnostics : Diagnostics} :
    Clear diagnostics ↔ diagnostics.hasErrors = false := by
  rw [hasErrors, List.any_eq_false]
  exact forall₂_congr fun diagnostic _ => (Bool.not_eq_true _).symm.to_iff

theorem sorted_perm (diagnostics : Diagnostics) : diagnostics.sorted.Perm diagnostics :=
  List.mergeSort_perm diagnostics _

theorem clear_sorted {diagnostics : Diagnostics} :
    Clear diagnostics.sorted ↔ Clear diagnostics :=
  clear_perm (sorted_perm diagnostics)

/-! ## What errors say -/

/-- The kinds and the positions of the errors, in order. -/
def findings (diagnostics : Diagnostics) : List (DiagnosticKind × Location) :=
  diagnostics.errors.map fun diagnostic => (diagnostic.kind, diagnostic.location)

@[simp]
theorem findings_append (a b : Diagnostics) : (a ++ b).findings = a.findings ++ b.findings := by
  rw [findings, errors, List.filter_append, List.map_append]
  rfl

theorem findings_flatMap {α : Type} (list : List α) (problems : α → Diagnostics) :
    findings (list.flatMap problems) = list.flatMap fun a => findings (problems a) := by
  induction list with
  | nil => rfl
  | cons a list induction =>
      rw [List.flatMap_cons, List.flatMap_cons, findings_append, induction]

theorem findings_of_clear {diagnostics : Diagnostics} (clear : Clear diagnostics) :
    diagnostics.findings = [] := by
  rw [findings, errors, List.filter_eq_nil_iff.mpr, List.map_nil]
  exact fun diagnostic member => by rw [clear diagnostic member]; exact Bool.false_ne_true

theorem findings_perm {a b : Diagnostics} (perm : a.Perm b) : a.findings.Perm b.findings :=
  (perm.filter _).map _

/-! ## Kinds -/

/-- The problems of a kind, in order. -/
def ofKind (kind : DiagnosticKind) (diagnostics : Diagnostics) : Diagnostics :=
  diagnostics.filter (·.kind == kind)

/-- The problems of all other kinds, in order. -/
def exceptKind (kind : DiagnosticKind) (diagnostics : Diagnostics) : Diagnostics :=
  diagnostics.filter (·.kind != kind)

/-- All problems of a list are of some kinds. -/
def Among (kinds : List DiagnosticKind) (diagnostics : Diagnostics) : Prop :=
  ∀ diagnostic ∈ diagnostics, diagnostic.kind ∈ kinds

variable {kinds : List DiagnosticKind} {kind : DiagnosticKind}

@[simp]
theorem among_nil : Among kinds [] :=
  fun _ member => absurd member List.not_mem_nil

@[simp]
theorem among_append {a b : Diagnostics} : Among kinds (a ++ b) ↔ Among kinds a ∧ Among kinds b :=
  List.forall_mem_append

theorem Among.mono {kinds' : List DiagnosticKind} {diagnostics : Diagnostics}
    (among : Among kinds diagnostics) (subset : kinds ⊆ kinds') : Among kinds' diagnostics :=
  fun diagnostic member => subset (among diagnostic member)

theorem among_flatMap {α : Type} {list : List α} {problems : α → Diagnostics}
    (each : ∀ a ∈ list, Among kinds (problems a)) : Among kinds (list.flatMap problems) := by
  intro diagnostic member
  obtain ⟨a, inside, found⟩ := List.mem_flatMap.mp member
  exact each a inside diagnostic found

theorem among_singleton {diagnostic : Diagnostic} (known : diagnostic.kind ∈ kinds) :
    Among kinds [diagnostic] :=
  fun _ member => List.mem_singleton.mp member ▸ known

@[simp]
theorem ofKind_append (a b : Diagnostics) : (a ++ b).ofKind kind = a.ofKind kind ++ b.ofKind kind :=
  List.filter_append ..

theorem ofKind_flatMap {α : Type} (list : List α) (problems : α → Diagnostics) :
    ofKind kind (list.flatMap problems) = list.flatMap fun a => ofKind kind (problems a) :=
  List.filter_flatMap ..

theorem ofKind_perm {a b : Diagnostics} (perm : a.Perm b) : (a.ofKind kind).Perm (b.ofKind kind) :=
  perm.filter _

theorem Among.ofKind_eq_nil {diagnostics : Diagnostics} (among : Among kinds diagnostics)
    (other : kind ∉ kinds) : diagnostics.ofKind kind = [] := by
  refine List.filter_eq_nil_iff.mpr fun diagnostic member same => other ?_
  exact eq_of_beq same ▸ among diagnostic member

theorem Among.ofKind_eq_self {diagnostics : Diagnostics} (among : Among [kind] diagnostics) :
    diagnostics.ofKind kind = diagnostics :=
  List.filter_eq_self.mpr fun diagnostic member =>
    beq_iff_eq.mpr (List.mem_singleton.mp (among diagnostic member))

@[simp]
theorem exceptKind_append (a b : Diagnostics) :
    (a ++ b).exceptKind kind = a.exceptKind kind ++ b.exceptKind kind :=
  List.filter_append ..

theorem exceptKind_flatMap {α : Type} (list : List α) (problems : α → Diagnostics) :
    exceptKind kind (list.flatMap problems) = list.flatMap fun a => exceptKind kind (problems a) :=
  List.filter_flatMap ..

/-- Warnings of a kind can be left out. -/
theorem clear_exceptKind {diagnostics : Diagnostics} (warning : kind.severity ≠ .error) :
    Clear (diagnostics.exceptKind kind) ↔ Clear diagnostics := by
  constructor
  · intro clear diagnostic member
    by_cases same : diagnostic.kind = kind
    · rw [Diagnostic.isError, Diagnostic.severity, same]
      exact beq_eq_false_iff_ne.mpr warning
    · exact clear diagnostic (List.mem_filter.mpr ⟨member, bne_iff_ne.mpr same⟩)
  · exact fun clear diagnostic member => clear diagnostic (List.mem_of_mem_filter member)

theorem Among.exceptKind_eq_self {diagnostics : Diagnostics} (among : Among kinds diagnostics)
    (other : kind ∉ kinds) : diagnostics.exceptKind kind = diagnostics := by
  refine List.filter_eq_self.mpr fun diagnostic member => bne_iff_ne.mpr fun same => other ?_
  exact same ▸ among diagnostic member

theorem Among.exceptKind_eq_nil {diagnostics : Diagnostics} (among : Among [kind] diagnostics) :
    diagnostics.exceptKind kind = [] := by
  refine List.filter_eq_nil_iff.mpr fun diagnostic member differ => bne_iff_ne.mp differ ?_
  exact List.mem_singleton.mp (among diagnostic member)

end Diagnostics
end IdlSchema
