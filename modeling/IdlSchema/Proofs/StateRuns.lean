import Mathlib.Tactic

/-!
# Lists side by side

A step with a state is taken for each element of a list in turn.  What each step guarantees of its
own result holds of all results, element by element.

Two lists correspond if the elements of one are related to those of the other, one to one and in
some order.  Steps that can be followed along a relation can be followed any number of times, so a
relation that tells things apart carries cycles along as well.
-/

theorem List.Forall₂.exists_of_mem_left {α β : Type} {related : α → β → Prop} {as : List α}
    {bs : List β} (all : List.Forall₂ related as bs) {a : α} (member : a ∈ as) :
    ∃ b ∈ bs, related a b := by
  induction all with
  | nil => exact absurd member List.not_mem_nil
  | cons first _ induction =>
      rcases List.mem_cons.mp member with rfl | later
      · exact ⟨_, List.mem_cons_self, first⟩
      · obtain ⟨b, b_mem, holds⟩ := induction later
        exact ⟨b, List.mem_cons_of_mem _ b_mem, holds⟩

theorem List.Forall₂.exists_of_mem_right {α β : Type} {related : α → β → Prop} {as : List α}
    {bs : List β} (all : List.Forall₂ related as bs) {b : β} (member : b ∈ bs) :
    ∃ a ∈ as, related a b :=
  all.flip.exists_of_mem_left member

/-- Elements that stand behind one another are related to elements that do, too. -/
theorem List.Forall₂.exists_of_sublist {α β : Type} {related : α → β → Prop} {as some : List α}
    {bs : List β} (all : List.Forall₂ related as bs) (picked : some.Sublist as) :
    ∃ some', some'.Sublist bs ∧ List.Forall₂ related some some' := by
  induction all generalizing some with
  | nil =>
      rw [List.sublist_nil.mp picked]
      exact ⟨[], .slnil, .nil⟩
  | cons first _ induction =>
      cases picked with
      | cons _ picked =>
          obtain ⟨some', picked', both⟩ := induction picked
          exact ⟨some', .cons _ picked', both⟩
      | cons_cons _ picked =>
          obtain ⟨some', picked', both⟩ := induction picked
          exact ⟨_ :: some', .cons_cons _ picked', .cons first both⟩

theorem List.Forall₂.getElem? {α β : Type} {related : α → β → Prop} {as : List α} {bs : List β}
    (all : List.Forall₂ related as bs) {index : Nat} {a : α} (found : as[index]? = some a) :
    ∃ b, bs[index]? = some b ∧ related a b := by
  obtain ⟨inside, rfl⟩ := List.getElem?_eq_some_iff.mp found
  have inside' : index < bs.length := all.length_eq ▸ inside
  exact ⟨bs[index], List.getElem?_eq_getElem inside', all.get inside inside'⟩

theorem List.Forall₂.map_eq {α β γ : Type} {related : α → β → Prop} {as : List α} {bs : List β}
    {f : α → γ} {g : β → γ} (all : List.Forall₂ related as bs)
    (same : ∀ a b, related a b → g b = f a) : bs.map g = as.map f := by
  induction all with
  | nil => rfl
  | cons first _ induction => rw [List.map_cons, List.map_cons, same _ _ first, induction]

theorem List.Forall₂.imp_of_mem {α β : Type} {related related' : α → β → Prop} {as : List α}
    {bs : List β} (all : List.Forall₂ related as bs)
    (weaken : ∀ a ∈ as, ∀ b, related a b → related' a b) : List.Forall₂ related' as bs := by
  induction all with
  | nil => exact .nil
  | cons first _ induction =>
      refine .cons (weaken _ List.mem_cons_self _ first) (induction fun a member => ?_)
      exact weaken a (List.mem_cons_of_mem _ member)

theorem List.Forall₂.and {α β : Type} {related related' : α → β → Prop} {as : List α}
    {bs : List β} (first : List.Forall₂ related as bs) (second : List.Forall₂ related' as bs) :
    List.Forall₂ (fun a b => related a b ∧ related' a b) as bs := by
  induction first with
  | nil => exact .nil
  | cons holds _ induction =>
      cases second with
      | cons holds' rest => exact .cons ⟨holds, holds'⟩ (induction rest)

/-- In lists of related elements, related elements are found by what they have in common. -/
theorem List.Forall₂.find?_rel {α β : Type} {related : α → β → Prop} {p : α → Bool} {q : β → Bool}
    {as : List α} {bs : List β} (all : List.Forall₂ related as bs)
    (same : ∀ a b, related a b → q b = p a) : Option.Rel related (as.find? p) (bs.find? q) := by
  induction all with
  | nil => exact .none
  | @cons a b _ _ first _ induction =>
      rw [List.find?_cons, List.find?_cons, same a b first]
      cases p a with
      | true => exact .some first
      | false => exact induction

theorem List.Forall₂.findIdx?_eq {α β : Type} {related : α → β → Prop} {p : α → Bool}
    {q : β → Bool} {as : List α} {bs : List β} (all : List.Forall₂ related as bs)
    (same : ∀ a b, related a b → q b = p a) : bs.findIdx? q = as.findIdx? p := by
  induction all with
  | nil => rfl
  | cons first _ induction => rw [List.findIdx?_cons, List.findIdx?_cons, same _ _ first, induction]

theorem List.find?_of_nodup {α κ : Type} [BEq κ] [LawfulBEq κ] {key : α → κ} {list : List α} {a : α}
    (nodup : (list.map key).Nodup) (member : a ∈ list) :
    list.find? (key · == key a) = some a := by
  induction list with
  | nil => exact absurd member List.not_mem_nil
  | cons first rest induction =>
      obtain ⟨fresh, nodup'⟩ := List.nodup_cons.mp nodup
      rcases List.mem_cons.mp member with rfl | later
      · exact List.find?_cons_of_pos (beq_self_eq_true _)
      · have differ : key first ≠ key a := fun same =>
          fresh (same ▸ List.mem_map_of_mem later)
        rw [List.find?_cons_of_neg (by simpa using differ)]
        exact induction nodup' later

theorem List.toList_find?_of_nodup {α κ : Type} [BEq κ] [LawfulBEq κ] {key : α → κ} {list : List α}
    (nodup : (list.map key).Nodup) (k : κ) :
    (list.find? (key · == k)).toList = list.filter (key · == k) := by
  induction list with
  | nil => rfl
  | cons a list induction =>
      obtain ⟨fresh, nodup'⟩ := List.nodup_cons.mp nodup
      cases here : key a == k with
      | true =>
          have no_other : list.filter (key · == k) = [] := by
            refine List.filter_eq_nil_iff.mpr fun b member same => fresh ?_
            rw [eq_of_beq here, ← eq_of_beq same]
            exact List.mem_map_of_mem member
          rw [List.find?_cons, List.filter_cons, here, no_other]
          rfl
      | false =>
          rw [List.find?_cons, List.filter_cons, here, induction nodup']
          rfl

theorem List.findIdx?_of_nodup {α κ : Type} [BEq κ] [LawfulBEq κ] {key : α → κ} {list : List α}
    {a : α} {index : Nat} (nodup : (list.map key).Nodup) (found : list[index]? = some a) :
    list.findIdx? (key · == key a) = some index := by
  obtain ⟨inside, same⟩ := List.getElem?_eq_some_iff.mp found
  refine List.findIdx?_eq_some_iff_getElem.mpr ⟨inside, by rw [same, beq_self_eq_true], ?_⟩
  intro earlier before again
  have equal : (list.map key)[earlier]? = (list.map key)[index]? := by
    rw [List.getElem?_map, List.getElem?_map, List.getElem?_eq_getElem (before.trans inside), found,
      Option.map_some, Option.map_some, eq_of_beq again]
  have inside' : earlier < (list.map key).length := by
    rw [List.length_map]
    exact before.trans inside
  exact before.ne ((List.getElem?_inj inside' nodup).mp equal)

theorem List.forall₂_filterMap_map {α β γ : Type} {related : β → γ → Prop} {f : α → Option β}
    {g : α → γ} {list : List α} (each : ∀ a ∈ list, ∃ b, f a = some b ∧ related b (g a)) :
    List.Forall₂ related (list.filterMap f) (list.map g) := by
  induction list with
  | nil => exact .nil
  | cons a list induction =>
      obtain ⟨b, found, holds⟩ := each a List.mem_cons_self
      rw [List.filterMap_cons_some found, List.map_cons]
      exact .cons holds (induction fun other member => each other (List.mem_cons_of_mem a member))

/-- Related elements of two lists give related elements of two others, side by side. -/
theorem List.Forall₂.square {α β γ δ : Type} {left : α → β → Prop} {top : α → γ → Prop}
    {right : γ → δ → Prop} {bottom : β → δ → Prop} {as : List α} {bs : List β} {cs : List γ}
    {ds : List δ} (at_left : List.Forall₂ left as bs) (at_top : List.Forall₂ top as cs)
    (at_right : List.Forall₂ right cs ds)
    (fill : ∀ a b c d, left a b → top a c → right c d → bottom b d) : List.Forall₂ bottom bs ds := by
  induction at_left generalizing cs ds with
  | nil =>
      cases at_top
      cases at_right
      exact .nil
  | cons first _ induction =>
      cases at_top with
      | cons above tops =>
          cases at_right with
          | cons beside rights => exact .cons (fill _ _ _ _ first above beside) (induction tops rights)

namespace IdlSchema

variable {σ α β : Type} {step : α → StateM σ β}

theorem mapM_cons_apply (step : α → StateM σ β) (a : α) (rest : List α) (state : σ) :
    List.mapM step (a :: rest) state =
      ((step a state).1 :: (List.mapM step rest (step a state).2).1,
        (List.mapM step rest (step a state).2).2) := by
  rw [List.mapM_cons]
  rfl

/-- What a step guarantees of its result in any state holds of all results of a run. -/
theorem forall₂_mapM {good : α → β → Prop} {list : List α}
    (guarantee : ∀ a ∈ list, ∀ state, good a (step a state).1) (state : σ) :
    List.Forall₂ good list (List.mapM step list state).1 := by
  induction list generalizing state with
  | nil => exact .nil
  | cons a rest induction =>
      rw [mapM_cons_apply]
      refine .cons (guarantee a List.mem_cons_self state) (induction (fun other member => ?_) _)
      exact guarantee other (List.mem_cons_of_mem a member)

/-- Two runs over related lists from related states give related results and related states. -/
theorem forall₂_mapM_both {σ' α' β' : Type} (matched : σ → σ' → Prop) {related : α → α' → Prop}
    {good : β → β' → Prop} {step' : α' → StateM σ' β'}
    (each : ∀ a a', related a a' → ∀ state state', matched state state' →
      good (step a state).1 (step' a' state').1 ∧ matched (step a state).2 (step' a' state').2)
    {list : List α} {list' : List α'} (lists : List.Forall₂ related list list') {state : σ}
    {state' : σ'} (start : matched state state') :
    List.Forall₂ good (List.mapM step list state).1 (List.mapM step' list' state').1 ∧
      matched (List.mapM step list state).2 (List.mapM step' list' state').2 := by
  induction lists generalizing state state' with
  | nil => exact ⟨.nil, start⟩
  | cons first _ induction =>
      obtain ⟨at_first, between⟩ := each _ _ first state state' start
      obtain ⟨rest, after⟩ := induction between
      rw [mapM_cons_apply, mapM_cons_apply]
      exact ⟨.cons at_first rest, after⟩

end IdlSchema

/-! # Lists that correspond -/

namespace IdlSchema

open Relation

/-- The elements of two lists are related one to one, in some order. -/
def Corresponds {α β : Type} (related : α → β → Prop) (as : List α) (bs : List β) : Prop :=
  ∃ bs', List.Forall₂ related as bs' ∧ bs'.Perm bs

namespace Corresponds

variable {α β γ δ : Type} {related : α → β → Prop} {as : List α} {bs : List β}

theorem exists_of_mem_left (both : Corresponds related as bs) {a : α} (member : a ∈ as) :
    ∃ b ∈ bs, related a b := by
  obtain ⟨bs', all, perm⟩ := both
  obtain ⟨b, inside, holds⟩ := all.exists_of_mem_left member
  exact ⟨b, perm.mem_iff.mp inside, holds⟩

theorem exists_of_mem_right (both : Corresponds related as bs) {b : β} (member : b ∈ bs) :
    ∃ a ∈ as, related a b := by
  obtain ⟨bs', all, perm⟩ := both
  exact all.exists_of_mem_right (perm.mem_iff.mpr member)

theorem symm (both : Corresponds related as bs) : Corresponds (flip related) bs as := by
  obtain ⟨bs', all, perm⟩ := both
  exact List.perm_comp_forall₂ perm.symm all.flip

theorem map {related' : γ → δ → Prop} {f : α → γ} {g : β → δ} (both : Corresponds related as bs)
    (each : ∀ a b, related a b → related' (f a) (g b)) :
    Corresponds related' (as.map f) (bs.map g) := by
  obtain ⟨bs', all, perm⟩ := both
  refine ⟨bs'.map g, ?_, perm.map g⟩
  rw [List.forall₂_map_left_iff, List.forall₂_map_right_iff]
  exact all.imp each

theorem imp_of_mem {related' : α → β → Prop} (both : Corresponds related as bs)
    (weaken : ∀ a ∈ as, ∀ b ∈ bs, related a b → related' a b) : Corresponds related' as bs := by
  obtain ⟨bs', all, perm⟩ := both
  refine ⟨bs', ?_, perm⟩
  have inside : ∀ b ∈ bs', b ∈ bs := fun b => perm.mem_iff.mp
  clear perm
  induction all with
  | nil => exact .nil
  | cons first _ induction =>
      obtain ⟨first_inside, rest_inside⟩ := List.forall_mem_cons.mp inside
      refine .cons (weaken _ List.mem_cons_self _ first_inside first) (induction ?_ rest_inside)
      exact fun a member => weaken a (List.mem_cons_of_mem _ member)

theorem append {as' : List α} {bs' : List β} (first : Corresponds related as bs)
    (second : Corresponds related as' bs') : Corresponds related (as ++ as') (bs ++ bs') := by
  obtain ⟨cs, all, perm⟩ := first
  obtain ⟨cs', all', perm'⟩ := second
  exact ⟨cs ++ cs', List.rel_append all all', perm.append perm'⟩

theorem flatMap {related' : γ → δ → Prop} {f : α → List γ} {g : β → List δ}
    (both : Corresponds related as bs)
    (each : ∀ a b, related a b → List.Forall₂ related' (f a) (g b)) :
    Corresponds related' (as.flatMap f) (bs.flatMap g) := by
  obtain ⟨bs', all, perm⟩ := both
  exact ⟨bs'.flatMap g, List.rel_flatMap all each, perm.flatMap_right g⟩

theorem filterMap {related' : γ → δ → Prop} {f : α → Option γ} {g : β → Option δ}
    (both : Corresponds related as bs) (each : ∀ a b, related a b → Option.Rel related' (f a) (g b)) :
    Corresponds related' (as.filterMap f) (bs.filterMap g) := by
  obtain ⟨bs', all, perm⟩ := both
  exact ⟨bs'.filterMap g, List.rel_filterMap each all, perm.filterMap g⟩

/-- Lists correspond with their places if they do without. -/
theorem zipIdx (both : Corresponds related as bs) :
    Corresponds (fun placed placed' => related placed.1 placed'.1) as.zipIdx bs.zipIdx := by
  obtain ⟨bs', all, perm⟩ := both
  have firsts {δ : Type} (list : List δ) : list.zipIdx.map Prod.fst = list := by simp
  have placed : List.Forall₂ (fun b placed => b = placed.1) bs bs.zipIdx := by
    rw [← List.forall₂_map_right_iff, firsts, List.forall₂_eq_eq_eq]
  obtain ⟨placed', at_bs', perm'⟩ := List.perm_comp_forall₂ perm placed
  rw [← List.forall₂_map_right_iff, List.forall₂_eq_eq_eq] at at_bs'
  refine ⟨placed', ?_, perm'⟩
  rwa [at_bs', ← firsts as, List.forall₂_map_left_iff, List.forall₂_map_right_iff] at all

/-- Lists correspond if they are made of the same things in some order, element by element. -/
theorem of_perm {left : γ → α → Prop} {right : γ → β → Prop} {cs cs' : List γ}
    (at_left : List.Forall₂ left cs as) (at_right : List.Forall₂ right cs' bs)
    (perm : cs.Perm cs') (fill : ∀ c a b, left c a → right c b → related a b) :
    Corresponds related as bs := by
  obtain ⟨bs', at_bs', perm'⟩ := List.perm_comp_forall₂ perm at_right
  refine ⟨bs', ?_, perm'⟩
  clear at_right perm perm'
  induction at_left generalizing bs' with
  | nil =>
      cases at_bs'
      exact .nil
  | cons first _ induction =>
      cases at_bs' with
      | cons first' rest => exact .cons (fill _ _ _ first first') (induction _ rest)

/-- Where keys differ, what is found by its key is found in any order. -/
theorem find?_rel {κ : Type} {key : β → κ} {k : κ} {p : α → Bool} {q : β → Bool}
    (both : Corresponds related as bs) (nodup : (bs.map key).Nodup)
    (keyed : ∀ b, q b = true → key b = k) (same : ∀ a b, related a b → q b = p a) :
    Option.Rel related (as.find? p) (bs.find? q) := by
  obtain ⟨bs', all, perm⟩ := both
  have reordered : bs'.find? q = bs.find? q := by
    cases found : bs.find? q with
    | none =>
        rw [List.find?_eq_none] at found ⊢
        exact fun b member => found b (perm.mem_iff.mp member)
    | some b =>
        have member := List.mem_of_find?_eq_some found
        have holds := List.find?_some found
        cases found' : bs'.find? q with
        | none => exact absurd holds (List.find?_eq_none.mp found' b (perm.mem_iff.mpr member))
        | some b' =>
            have member' := perm.mem_iff.mp (List.mem_of_find?_eq_some found')
            have same_key := (keyed b' (List.find?_some found')).trans (keyed b holds).symm
            rw [List.inj_on_of_nodup_map nodup member' member same_key]
  rw [← reordered]
  exact all.find?_rel same

end Corresponds

/-! ## Steps along a relation -/

section

variable {α β : Type} {leads : α → α → Prop} {leads' : β → β → Prop} {related : α → β → Prop}

/-- Steps that can be followed along a relation can be followed any number of times. -/
theorem exists_transGen (step : ∀ a b a', related a a' → leads a b → ∃ b', leads' a' b' ∧ related b b')
    {a b : α} {a' : β} (start : related a a') (path : TransGen leads a b) :
    ∃ b', TransGen leads' a' b' ∧ related b b' := by
  induction path with
  | single last =>
      obtain ⟨b', last', holds⟩ := step _ _ _ start last
      exact ⟨b', .single last', holds⟩
  | tail _ last induction =>
      obtain ⟨between', path', holds⟩ := induction
      obtain ⟨b', last', holds'⟩ := step _ _ _ holds last
      exact ⟨b', path'.tail last', holds'⟩

/-- A cycle is carried along a relation that has one counterpart for each thing. -/
theorem transGen_self (step : ∀ a b a', related a a' → leads a b → ∃ b', leads' a' b' ∧ related b b')
    (unique : ∀ a a' b', related a a' → related a b' → a' = b') {a : α} {a' : β}
    (start : related a a') (cycle : TransGen leads a a) : TransGen leads' a' a' := by
  obtain ⟨b', path', holds⟩ := exists_transGen step start cycle
  exact unique a a' b' start holds ▸ path'

end

end IdlSchema
