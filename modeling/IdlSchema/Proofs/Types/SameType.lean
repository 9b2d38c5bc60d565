import IdlSchema.Proofs.Types.TrueType

/-!
# Types that are the same behind typedefs

Two types are the same when some relation between types holds of them that looks through typedefs:
related types agree at their roots, and their parameters are related again.  The comparison of types
builds such a relation from the pairs that it meets.  No pair is met twice, so their number bounds
its depth, and it fails only at a difference that no such relation has.
-/

namespace IdlSchema
namespace TypeGraph

variable {graph : TypeGraph}

/-- Two types without typedefs in front agree, given which of their parameters do. -/
inductive Agrees (graph : TypeGraph) (related : TypeId → TypeId → Prop) :
    TypeId → TypeId → Prop where
  | same (a : TypeId) : Agrees graph related a a
  | invalidLeft {a b : TypeId} : graph.shape? a = some .invalid → Agrees graph related a b
  | invalidRight {a b : TypeId} : graph.shape? b = some .invalid → Agrees graph related a b
  | list {a b x y : TypeId} : graph.shape? a = some (.list x) → graph.shape? b = some (.list y) →
      related x y → Agrees graph related a b
  | set {a b x y : TypeId} : graph.shape? a = some (.set x) → graph.shape? b = some (.set y) →
      related x y → Agrees graph related a b
  | map {a b x x' y y' : TypeId} : graph.shape? a = some (.map x x') →
      graph.shape? b = some (.map y y') → related x y → related x' y' → Agrees graph related a b

/-- Two types agree behind any typedefs, given which parameters do. -/
def Matches (graph : TypeGraph) (related : TypeId → TypeId → Prop) (a b : TypeId) : Prop :=
  a = b ∨ ∃ a' b', graph.trueType a = some a' ∧ graph.trueType b = some b' ∧
    graph.Agrees related a' b'

/-- Some relation that looks through typedefs holds of two types. -/
def Same (graph : TypeGraph) (a b : TypeId) : Prop :=
  ∃ related : TypeId → TypeId → Prop,
    (∀ x y, related x y → graph.Matches related x y) ∧ related a b

theorem Agrees.mono {related related' : TypeId → TypeId → Prop} {a b : TypeId}
    (agrees : graph.Agrees related a b) (weaker : ∀ x y, related x y → related' x y) :
    graph.Agrees related' a b := by
  cases agrees with
  | same => exact .same a
  | invalidLeft at_a => exact .invalidLeft at_a
  | invalidRight at_b => exact .invalidRight at_b
  | list at_a at_b inner => exact .list at_a at_b (weaker _ _ inner)
  | set at_a at_b inner => exact .set at_a at_b (weaker _ _ inner)
  | map at_a at_b key value => exact .map at_a at_b (weaker _ _ key) (weaker _ _ value)

theorem Matches.mono {related related' : TypeId → TypeId → Prop} {a b : TypeId}
    (agree : graph.Matches related a b) (weaker : ∀ x y, related x y → related' x y) :
    graph.Matches related' a b := by
  rcases agree with same | ⟨a', b', behind_a, behind_b, agrees⟩
  · exact .inl same
  · exact .inr ⟨a', b', behind_a, behind_b, agrees.mono weaker⟩

/-- Being the same is itself a relation that looks through typedefs. -/
theorem Same.matches {a b : TypeId} (same : graph.Same a b) : graph.Matches graph.Same a b := by
  obtain ⟨related, closed, holds⟩ := same
  exact (closed a b holds).mono fun x y inner => ⟨related, closed, inner⟩

theorem Same.refl (graph : TypeGraph) (a : TypeId) : graph.Same a a :=
  ⟨fun x y => x = y, fun _ _ => .inl, rfl⟩

/-! ## The comparison builds such a relation -/

/-- The pairs that a comparison has met: none twice, and all of types of the graph. -/
structure Met (graph : TypeGraph) (seen : List (TypeId × TypeId)) : Prop where
  nodup : seen.Nodup
  inside : ∀ pair ∈ seen, pair.1.index < graph.size ∧ pair.2.index < graph.size

theorem Met.length_le {seen : List (TypeId × TypeId)} (met : graph.Met seen) :
    seen.length ≤ graph.size * graph.size := by
  let place (pair : TypeId × TypeId) : Nat × Nat := (pair.1.index, pair.2.index)
  have nodup : (seen.map place).Nodup := by
    refine met.nodup.map fun pair other same => ?_
    obtain ⟨⟨a⟩, ⟨b⟩⟩ := pair
    obtain ⟨⟨a'⟩, ⟨b'⟩⟩ := other
    simpa [place] using same
  have inside : seen.map place ⊆ List.range graph.size ×ˢ List.range graph.size := by
    intro places member
    obtain ⟨pair, pair_mem, rfl⟩ := List.mem_map.mp member
    have := met.inside pair pair_mem
    rw [List.mem_product, List.mem_range, List.mem_range]
    exact this
  have bound := (nodup.subperm inside).length_le
  rwa [List.length_map, List.length_product, List.length_range] at bound

theorem Met.cons {a b : TypeId} {seen : List (TypeId × TypeId)} (met : graph.Met seen)
    (fresh : (a, b) ∉ seen) (a_inside : a.index < graph.size) (b_inside : b.index < graph.size) :
    graph.Met ((a, b) :: seen) :=
  ⟨List.nodup_cons.mpr ⟨fresh, met.nodup⟩,
    List.forall_mem_cons.mpr ⟨⟨a_inside, b_inside⟩, met.inside⟩⟩

/-- A comparison that has found no difference has met some more pairs, all of which match. -/
structure Compared (graph : TypeGraph) (a b : TypeId) (seen after : List (TypeId × TypeId)) :
    Prop where
  met : graph.Met after
  suffix : seen <:+ after
  holds : a = b ∨ (a, b) ∈ after
  closed : ∀ pair ∈ after, pair ∉ seen →
    graph.Matches (fun x y => x = y ∨ (x, y) ∈ after) pair.1 pair.2

namespace Compared

variable {a b x y x' y' : TypeId} {seen after after' : List (TypeId × TypeId)}

theorem none_new (met : graph.Met seen) (holds : a = b ∨ (a, b) ∈ seen) :
    graph.Compared a b seen seen where
  met := met
  suffix := List.suffix_rfl
  holds := holds
  closed _ member fresh := absurd member fresh

theorem holds_of_suffix (compared : graph.Compared a b seen after) (suffix : after <:+ after') :
    a = b ∨ (a, b) ∈ after' :=
  compared.holds.imp_right fun member => suffix.subset member

/-- A pair that was met first matches if it agrees by what was met behind it. -/
theorem enter (agree : graph.Matches (fun x y => x = y ∨ (x, y) ∈ after) a b)
    (compared : graph.Compared x y ((a, b) :: seen) after) : graph.Compared a b seen after where
  met := compared.met
  suffix := (List.suffix_cons _ seen).trans compared.suffix
  holds := .inr (compared.suffix.subset List.mem_cons_self)
  closed pair member fresh := by
    by_cases same : pair = (a, b)
    · exact same ▸ agree
    · exact compared.closed pair member fun again =>
        (List.mem_cons.mp again).elim same fresh

theorem trans (first : graph.Compared x y seen after) (second : graph.Compared x' y' after after') :
    graph.Compared x' y' seen after' where
  met := second.met
  suffix := first.suffix.trans second.suffix
  holds := second.holds
  closed pair member fresh := by
    by_cases early : pair ∈ after
    · refine (first.closed pair early fresh).mono fun x y => ?_
      exact Or.imp_right fun inner => second.suffix.subset inner
    · exact second.closed pair member early

end Compared

private theorem compared_sameTypeFrom (wellFormed : graph.WellFormed) {fuel : Nat}
    {a b : TypeId} {seen after : List (TypeId × TypeId)} (met : graph.Met seen)
    (enough : graph.size * graph.size < seen.length + fuel) (a_inside : a.index < graph.size)
    (b_inside : b.index < graph.size) (found : graph.sameTypeFrom fuel a b seen = some after) :
    graph.Compared a b seen after := by
  induction fuel generalizing a b seen after with
  | zero => exact absurd met.length_le (by omega)
  | succ fuel induction =>
      rw [sameTypeFrom] at found
      split at found
      · rename_i known
        obtain rfl := Option.some.inj found
        rw [Bool.or_eq_true, decide_eq_true_eq, List.contains_iff_mem] at known
        exact .none_new met known
      · rename_i unknown
        rw [Bool.or_eq_true, decide_eq_true_eq, List.contains_iff_mem, not_or] at unknown
        have met' := met.cons unknown.2 a_inside b_inside
        have enough' : graph.size * graph.size < ((a, b) :: seen).length + fuel := by
          rw [List.length_cons]
          omega
        have entered : graph.Compared a b ((a, b) :: seen) ((a, b) :: seen) :=
          .none_new met' (.inr List.mem_cons_self)
        dsimp only at found
        split at found
        · rename_i a' b' behind_a behind_b
          have agree {after : List (TypeId × TypeId)}
              (agrees : graph.Agrees (fun x y => x = y ∨ (x, y) ∈ after) a' b') :
              graph.Matches (fun x y => x = y ∨ (x, y) ∈ after) a b :=
            .inr ⟨a', b', behind_a, behind_b, agrees⟩
          split at found
          · rename_i same
            obtain rfl := Option.some.inj found
            exact entered.enter (agree (same ▸ .same a'))
          · split at found
            · rename_i at_a
              obtain rfl := Option.some.inj found
              exact entered.enter (agree (.invalidLeft at_a))
            · rename_i at_b _
              obtain rfl := Option.some.inj found
              exact entered.enter (agree (.invalidRight at_b))
            · rename_i x y at_a at_b
              have inner := induction met' enough' (wellFormed.parameter_lt_size at_a (by simp))
                (wellFormed.parameter_lt_size at_b (by simp)) found
              exact inner.enter (agree (.list at_a at_b inner.holds))
            · rename_i x y at_a at_b
              have inner := induction met' enough' (wellFormed.parameter_lt_size at_a (by simp))
                (wellFormed.parameter_lt_size at_b (by simp)) found
              exact inner.enter (agree (.set at_a at_b inner.holds))
            · rename_i k v k' v' at_a at_b
              obtain ⟨between, found_key, found_value⟩ := Option.bind_eq_some_iff.mp found
              have key := induction met' enough' (wellFormed.parameter_lt_size at_a (by simp))
                (wellFormed.parameter_lt_size at_b (by simp)) found_key
              have longer := key.suffix.length_le
              have value := induction key.met (by omega)
                (wellFormed.parameter_lt_size at_a (by simp))
                (wellFormed.parameter_lt_size at_b (by simp)) found_value
              exact (key.trans value).enter
                (agree (.map at_a at_b (key.holds_of_suffix value.suffix) value.holds))
            · cases found
        · cases found

private theorem sameTypeFrom_ne_none {fuel : Nat} {a b : TypeId} {seen : List (TypeId × TypeId)}
    (same : graph.Same a b) : graph.sameTypeFrom fuel a b seen ≠ none := by
  induction fuel generalizing a b seen with
  | zero => simp [sameTypeFrom]
  | succ fuel induction =>
      rw [sameTypeFrom]
      split
      · simp
      · rename_i unknown
        rw [Bool.or_eq_true, decide_eq_true_eq, not_or] at unknown
        rcases same.matches with equal | ⟨a', b', behind_a, behind_b, agrees⟩
        · exact absurd equal unknown.1
        · simp only [behind_a, behind_b]
          split
          · simp
          · rename_i differ
            cases agrees with
            | same => exact absurd rfl differ
            | invalidLeft at_a => simp [at_a]
            | invalidRight at_b =>
                rw [at_b]
                split <;> simp_all
            | list at_a at_b inner =>
                simp only [at_a, at_b]
                exact induction inner
            | set at_a at_b inner =>
                simp only [at_a, at_b]
                exact induction inner
            | map at_a at_b key value =>
                simp only [at_a, at_b]
                cases found : graph.sameTypeFrom fuel _ _ _ with
                | none => exact absurd found (induction key)
                | some between => exact induction value

/-- The comparison tells whether two types are the same behind typedefs. -/
theorem WellFormed.sameType_eq_true_iff (wellFormed : graph.WellFormed) {a b : TypeId}
    (a_inside : a.index < graph.size) (b_inside : b.index < graph.size) :
    graph.sameType a b = true ↔ graph.Same a b := by
  rw [sameType, Option.isSome_iff_ne_none]
  constructor
  · intro found
    obtain ⟨after, found⟩ := Option.ne_none_iff_exists'.mp found
    have compared := compared_sameTypeFrom wellFormed ⟨List.nodup_nil, by simp⟩
      (by simp) a_inside b_inside found
    refine ⟨fun x y => x = y ∨ (x, y) ∈ after, ?_, compared.holds⟩
    rintro x y (same | member)
    · exact .inl same
    · exact compared.closed (x, y) member List.not_mem_nil
  · exact sameTypeFrom_ne_none

/-! ## The comparison ends -/

/-- Two types are entered that are neither equal nor being compared already. -/
def New (a b : TypeId) (seen : List (TypeId × TypeId)) : Prop :=
  a ≠ b ∧ (a, b) ∉ seen

/--
What comparing two types gives when its depth is not bounded.  A comparison that would go on forever
gives nothing.
-/
inductive Compares (graph : TypeGraph) : TypeId → TypeId → List (TypeId × TypeId) →
    Option (List (TypeId × TypeId)) → Prop where
  | known {a b : TypeId} {seen : List (TypeId × TypeId)} : ¬ New a b seen →
      Compares graph a b seen (some seen)
  | endless {a b : TypeId} {seen : List (TypeId × TypeId)} : New a b seen →
      graph.trueType a = none ∨ graph.trueType b = none → Compares graph a b seen none
  | agree {a b a' b' : TypeId} {seen : List (TypeId × TypeId)} : New a b seen →
      graph.trueType a = some a' → graph.trueType b = some b' →
      graph.Agrees (fun _ _ => False) a' b' → Compares graph a b seen (some ((a, b) :: seen))
  | differ {a b a' b' : TypeId} {seen : List (TypeId × TypeId)} : New a b seen →
      graph.trueType a = some a' → graph.trueType b = some b' →
      ¬ graph.Agrees (fun _ _ => True) a' b' → Compares graph a b seen none
  | element {a b a' b' x y : TypeId} {seen : List (TypeId × TypeId)}
      {result : Option (List (TypeId × TypeId))} : New a b seen →
      graph.trueType a = some a' → graph.trueType b = some b' → a' ≠ b' →
      graph.shape? a' = some (.list x) ∧ graph.shape? b' = some (.list y) ∨
        graph.shape? a' = some (.set x) ∧ graph.shape? b' = some (.set y) →
      Compares graph x y ((a, b) :: seen) result → Compares graph a b seen result
  | key {a b a' b' k k' v v' : TypeId} {seen : List (TypeId × TypeId)} : New a b seen →
      graph.trueType a = some a' → graph.trueType b = some b' → a' ≠ b' →
      graph.shape? a' = some (.map k v) → graph.shape? b' = some (.map k' v') →
      Compares graph k k' ((a, b) :: seen) none → Compares graph a b seen none
  | entry {a b a' b' k k' v v' : TypeId} {seen between : List (TypeId × TypeId)}
      {result : Option (List (TypeId × TypeId))} : New a b seen →
      graph.trueType a = some a' → graph.trueType b = some b' → a' ≠ b' →
      graph.shape? a' = some (.map k v) → graph.shape? b' = some (.map k' v') →
      Compares graph k k' ((a, b) :: seen) (some between) →
      Compares graph v v' between result → Compares graph a b seen result

/-- The bound on the depth is never reached. -/
private theorem compares_sameTypeFrom (wellFormed : graph.WellFormed) {fuel : Nat} {a b : TypeId}
    {seen : List (TypeId × TypeId)} (met : graph.Met seen)
    (enough : graph.size * graph.size < seen.length + fuel) (a_inside : a.index < graph.size)
    (b_inside : b.index < graph.size) :
    graph.Compares a b seen (graph.sameTypeFrom fuel a b seen) := by
  induction fuel generalizing a b seen with
  | zero => exact absurd met.length_le (by omega)
  | succ fuel induction =>
      rw [sameTypeFrom]
      split
      · rename_i known
        rw [Bool.or_eq_true, decide_eq_true_eq, List.contains_iff_mem] at known
        exact .known fun new => known.elim new.1 new.2
      · rename_i unknown
        rw [Bool.or_eq_true, decide_eq_true_eq, List.contains_iff_mem, not_or] at unknown
        have new : New a b seen := unknown
        have met' := met.cons new.2 a_inside b_inside
        have enough' : graph.size * graph.size < ((a, b) :: seen).length + fuel := by
          rw [List.length_cons]
          omega
        dsimp only
        split
        · rename_i a' b' behind_a behind_b
          split
          · rename_i same
            exact .agree new behind_a behind_b (same ▸ .same a')
          · rename_i differ
            split
            · rename_i at_a
              exact .agree new behind_a behind_b (.invalidLeft at_a)
            · rename_i at_b _
              exact .agree new behind_a behind_b (.invalidRight at_b)
            · rename_i x y at_a at_b
              exact .element new behind_a behind_b differ (.inl ⟨at_a, at_b⟩)
                (induction met' enough' (wellFormed.parameter_lt_size at_a (by simp))
                  (wellFormed.parameter_lt_size at_b (by simp)))
            · rename_i x y at_a at_b
              exact .element new behind_a behind_b differ (.inr ⟨at_a, at_b⟩)
                (induction met' enough' (wellFormed.parameter_lt_size at_a (by simp))
                  (wellFormed.parameter_lt_size at_b (by simp)))
            · rename_i k v k' v' at_a at_b
              have k_inside := wellFormed.parameter_lt_size at_a List.mem_cons_self
              have k'_inside := wellFormed.parameter_lt_size at_b List.mem_cons_self
              have key := induction met' enough' k_inside k'_inside
              cases found : graph.sameTypeFrom fuel k k' ((a, b) :: seen) with
              | none => exact .key new behind_a behind_b differ at_a at_b (found ▸ key)
              | some between =>
                  have compared :=
                    compared_sameTypeFrom wellFormed met' enough' k_inside k'_inside found
                  have longer := compared.suffix.length_le
                  exact .entry new behind_a behind_b differ at_a at_b (found ▸ key)
                    (induction compared.met (by omega)
                      (wellFormed.parameter_lt_size at_a (by simp))
                      (wellFormed.parameter_lt_size at_b (by simp)))
            · rename_i no_left no_right no_list no_set no_map
              refine .differ new behind_a behind_b fun agrees => ?_
              cases agrees with
              | same => exact differ rfl
              | invalidLeft at_a => exact no_left at_a
              | invalidRight at_b => exact no_right at_b
              | list at_a at_b => exact no_list _ _ at_a at_b
              | set at_a at_b => exact no_set _ _ at_a at_b
              | map at_a at_b => exact no_map _ _ _ _ at_a at_b
        · rename_i absent
          refine .endless new ?_
          cases behind_a : graph.trueType a with
          | none => exact .inl rfl
          | some a' =>
              cases behind_b : graph.trueType b with
              | none => exact .inr rfl
              | some b' => exact absurd behind_b (absent a' b' behind_a)

/-- A comparison of two types of the graph ends, with the answer of the bounded one. -/
theorem WellFormed.compares (wellFormed : graph.WellFormed) {a b : TypeId}
    (a_inside : a.index < graph.size) (b_inside : b.index < graph.size) :
    ∃ result, graph.Compares a b [] result ∧ graph.sameType a b = result.isSome :=
  ⟨_, compares_sameTypeFrom wellFormed ⟨List.nodup_nil, by simp⟩ (by simp) a_inside b_inside, rfl⟩

end TypeGraph
end IdlSchema
