import Mathlib.Data.List.Chain
import Mathlib.Data.List.Perm.Subperm
import Mathlib.Tactic

/-!
# Elements at places

Walks through a list are found as walks through the places of its elements.  What holds of the places
holds of the elements at them: they follow one another in the same way, none of them comes twice, and
at ascending places they stand in the order of the list.
-/

namespace IdlSchema

variable {α : Type} {list : List α} {places : List Nat}

theorem filterMap_range_getElem? (list : List α) :
    (List.range list.length).filterMap (list[·]?) = list := by
  induction list using List.reverseRecOn with
  | nil => rfl
  | append_singleton list last induction =>
      have front : (List.range list.length).filterMap ((list ++ [last])[·]?) =
          (List.range list.length).filterMap (list[·]?) :=
        List.filterMap_congr fun place member =>
          List.getElem?_append_left (List.mem_range.mp member)
      rw [List.length_append, List.length_singleton, List.range_succ, List.filterMap_append, front,
        induction]
      simp

/-- The elements at ascending places stand in the order of the list. -/
theorem filterMap_sublist (ascending : places.Pairwise (· < ·))
    (inside : ∀ place ∈ places, place < list.length) :
    (places.filterMap (list[·]?)).Sublist list := by
  have sublist : places.Sublist (List.range list.length) :=
    List.sublist_of_subperm_of_pairwise
      (List.Nodup.subperm (ascending.imp Nat.ne_of_lt)
        fun place member => List.mem_range.mpr (inside place member))
      ascending List.pairwise_lt_range
  have whole := sublist.filterMap (list[·]?)
  rwa [filterMap_range_getElem?] at whole

/-- The last of the elements at some places is at the last of the places. -/
theorem exists_getLast?_of_filterMap (inside : ∀ place ∈ places, place < list.length) {last : α}
    (at_last : last ∈ (places.filterMap (list[·]?)).getLast?) :
    ∃ place ∈ places.getLast?, list[place]? = some last := by
  rcases List.eq_nil_or_concat places with rfl | ⟨front, place, rfl⟩
  · cases at_last
  · rw [List.concat_eq_append] at inside at_last ⊢
    have found := List.getElem?_eq_getElem
      (inside place (List.mem_append_right front (List.mem_singleton.mpr rfl)))
    rw [List.filterMap_append, List.filterMap_cons_some found, List.filterMap_nil,
      List.getLast?_concat] at at_last
    exact ⟨place, List.getLast?_concat, found.trans at_last⟩

/-- Elements follow one another as their places do. -/
theorem isChain_filterMap {follows : Nat → Nat → Prop} {related : α → α → Prop}
    (each : ∀ {place place' a b}, list[place]? = some a → list[place']? = some b →
      follows place place' → related a b)
    (inside : ∀ place ∈ places, place < list.length) (linked : places.IsChain follows) :
    (places.filterMap (list[·]?)).IsChain related := by
  induction linked with
  | nil => exact .nil
  | singleton place =>
      rw [List.filterMap_cons_some (List.getElem?_eq_getElem (inside place List.mem_cons_self))]
      exact .singleton _
  | @cons_cons place place' rest step _ induction =>
      have found := List.getElem?_eq_getElem (inside place List.mem_cons_self)
      have found' := List.getElem?_eq_getElem
        (inside place' (List.mem_cons_of_mem _ List.mem_cons_self))
      have walk := induction fun other member => inside other (List.mem_cons_of_mem _ member)
      rw [List.filterMap_cons_some found'] at walk
      rw [List.filterMap_cons_some found, List.filterMap_cons_some found']
      exact .cons_cons (each found found' step) walk

/-- What is made of the elements at their places is made of the elements, one by one. -/
theorem forall₂_map_zipIdx {β : Type} {related : α → β → Prop} {make : α × Nat → β}
    (each : ∀ (place : Nat) (a : α), list[place]? = some a → related a (make (a, place))) :
    List.Forall₂ related list (list.zipIdx.map make) := by
  have placed : List.Forall₂ related (list.zipIdx.map Prod.fst) (list.zipIdx.map make) := by
    rw [List.forall₂_map_left_iff, List.forall₂_map_right_iff, List.forall₂_same]
    exact fun (a, place) member => each place a (List.mem_zipIdx_iff_getElem?.mp member)
  rwa [List.zipIdx_map_fst] at placed

end IdlSchema
