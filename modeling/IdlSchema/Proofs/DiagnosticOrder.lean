import Mathlib
import IdlSchema.Proofs.Diagnostics

/-!
# The order of presentation

Problems are sorted by keys, and those with the same keys keep their order.  So it makes no
difference whether some of them are left out before they are sorted or after.
-/

namespace IdlSchema

/-- The order of presentation compares some keys, one after the other. -/
instance : Std.TransCmp Diagnostic.compare :=
  inferInstanceAs (Std.TransCmp (compareLex
    (compareLex (compareOn fun problem : Diagnostic => problem.location.path)
      (compareLex (compareOn fun problem : Diagnostic => problem.location.line)
        (compareOn fun problem : Diagnostic => problem.location.column)))
    (compareOn fun problem : Diagnostic => problem.kind.rank)))

/-! ## Stable sorting -/

section

variable {α : Type} {le : α → α → Bool}

/-- Neither of two elements has to come before the other. -/
def tied (le : α → α → Bool) (a b : α) : Bool :=
  le a b && le b a

/-- Sorted lists in which tied elements stand in the same order are the same. -/
theorem eq_of_filter_tied {list list' : List α} (reflexive : ∀ a, le a a = true)
    (sorted : list.Pairwise fun a b => le a b = true)
    (sorted' : list'.Pairwise fun a b => le a b = true)
    (ties : ∀ a, list.filter (tied le a) = list'.filter (tied le a)) : list = list' := by
  have own (a : α) : tied le a a = true := by rw [tied, reflexive, Bool.and_self]
  have listed (list : List α) (a : α) : a ∈ list ↔ a ∈ list.filter (tied le a) := by
    simp [own]
  have least {a b : α} {list : List α} (sorted : (a :: list).Pairwise fun a b => le a b = true)
      (member : b ∈ a :: list) : le a b = true := by
    rcases List.mem_cons.mp member with rfl | later
    · exact reflexive b
    · exact List.rel_of_pairwise_cons sorted later
  induction list generalizing list' with
  | nil =>
      refine (List.eq_nil_iff_forall_not_mem.mpr fun b member => ?_).symm
      rw [listed, ← ties] at member
      cases member
  | cons a list induction =>
      cases list' with
      | nil =>
          have member := (listed (a :: list) a).mp List.mem_cons_self
          rw [ties] at member
          cases member
      | cons b list' =>
          -- Each head is in the other list, so the heads are tied and then the same.
          have below : le a b = true :=
            least sorted ((listed _ b).mpr (ties b ▸ (listed (b :: list') b).mp List.mem_cons_self))
          have above : le b a = true :=
            least sorted' ((listed _ a).mpr (ties a ▸ (listed (a :: list) a).mp List.mem_cons_self))
          have heads := ties a
          rw [List.filter_cons_of_pos (own a),
            List.filter_cons_of_pos (by rw [tied, below, above, Bool.and_self])] at heads
          obtain rfl := (List.cons.inj heads).1
          refine congrArg _ (induction sorted.of_cons sorted'.of_cons fun c => ?_)
          have both := ties c
          rw [List.filter_cons, List.filter_cons] at both
          split at both
          · exact (List.cons.inj both).2
          · exact both

variable (trans : ∀ a b c, le a b = true → le b c = true → le a c = true)
  (total : ∀ a b, (le a b || le b a) = true)

include trans total

/-- Sorting leaves tied elements in their order. -/
theorem filter_tied_mergeSort (list : List α) (a : α) :
    (list.mergeSort le).filter (tied le a) = list.filter (tied le a) := by
  have sorted : (list.filter (tied le a)).Pairwise fun b c => le b c = true := by
    refine List.Pairwise.imp_of_mem (fun {b c} b_mem c_mem _ => ?_)
      (List.pairwise_of_forall (fun _ _ => trivial : ∀ b c : α, True))
    have b_tied := (List.mem_filter.mp b_mem).2
    have c_tied := (List.mem_filter.mp c_mem).2
    rw [tied, Bool.and_eq_true] at b_tied c_tied
    exact trans b a c b_tied.2 c_tied.1
  have inside := (List.sublist_mergeSort trans total sorted List.filter_sublist).filter (tied le a)
  rw [List.filter_filter, funext fun b => Bool.and_self _] at inside
  exact (inside.eq_of_length ((List.mergeSort_perm list le).filter _).length_eq.symm).symm

/-- It makes no difference whether elements are left out before sorting or after. -/
theorem mergeSort_filter (keep : α → Bool) (list : List α) :
    (list.filter keep).mergeSort le = (list.mergeSort le).filter keep := by
  refine eq_of_filter_tied (fun a => by simpa using total a a)
    (List.pairwise_mergeSort trans total _)
    ((List.pairwise_mergeSort trans total list).sublist List.filter_sublist) fun a => ?_
  rw [filter_tied_mergeSort trans total, List.filter_comm (tied le a) keep (list.mergeSort le),
    filter_tied_mergeSort trans total, List.filter_comm]

end

namespace Diagnostics

/-- It makes no difference whether problems are left out before they are sorted or after. -/
theorem sorted_filter (keep : Diagnostic → Bool) (diagnostics : Diagnostics) :
    sorted (diagnostics.filter keep) = diagnostics.sorted.filter keep := by
  refine mergeSort_filter (fun a b c => Std.TransCmp.isLE_trans) (fun a b => ?_) keep diagnostics
  have swap : b.compare a = (a.compare b).swap := Std.OrientedCmp.eq_swap
  rw [swap]
  cases a.compare b <;> rfl

end Diagnostics
end IdlSchema
