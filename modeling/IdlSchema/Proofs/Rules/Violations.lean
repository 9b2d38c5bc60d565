import IdlSchema.Proofs.Diagnostics
import IdlSchema.Rules.Enums
import IdlSchema.Rules.Fields
import IdlSchema.Rules.Rules

/-!
# Repetitions and violations that are reported

To look at each element behind those before it is to look at all pairs.  A list of fields or members
therefore has no problem just where all identifiers, names or values in it differ, and a union just
where no field is required and one at most has a default.

Each rule that looks at a single declaration reports every violation at the offending element: a
field, a parameter, an exception or a member behind another one that has the same key, a field of a
union that must not be as it is, and a oneway method that throws something.
-/

namespace IdlSchema

open Diagnostics

/-! ## Elements behind earlier ones -/

section

variable {α κ : Type} [BEq κ] [LawfulBEq κ] {key : α → κ}

theorem firstWithKey?_eq_none_iff {earlier : List α} {a : α} :
    firstWithKey? key earlier a = none ↔ key a ∉ earlier.map key := by
  simp only [firstWithKey?, List.find?_eq_none, beq_iff_eq, List.mem_map, not_exists, not_and]

/-- Keys differ just where no element repeats the key of an earlier one. -/
theorem nodup_append_iff {earlier list : List α} (nodup : (earlier.map key).Nodup) :
    ((earlier ++ list).map key).Nodup ↔
      ∀ entry ∈ withEarlierFrom earlier list, firstWithKey? key entry.1 entry.2 = none := by
  induction list generalizing earlier with
  | nil => simp [withEarlierFrom, nodup]
  | cons a rest induction =>
      have shift : earlier ++ a :: rest = (earlier ++ [a]) ++ rest := by simp
      rw [withEarlierFrom, List.forall_mem_cons, firstWithKey?_eq_none_iff, shift]
      by_cases fresh : key a ∈ earlier.map key
      · refine iff_of_false (fun all => ?_) fun first => first.1 fresh
        rw [List.map_append, List.map_append, List.append_assoc, List.map_singleton,
          List.singleton_append, List.nodup_append] at all
        exact all.2.2 _ fresh _ List.mem_cons_self rfl
      · have nodup' : ((earlier ++ [a]).map key).Nodup := by
          rw [List.map_append, List.map_singleton]
          exact nodup.append (List.nodup_singleton _) (List.disjoint_singleton.mpr fresh)
        rw [induction nodup', and_iff_right fresh]

theorem nodup_iff_withEarlier {list : List α} : (list.map key).Nodup ↔
    ∀ entry ∈ withEarlier list, firstWithKey? key entry.1 entry.2 = none := by
  have start : (([] : List α).map key).Nodup := List.nodup_nil
  exact nodup_append_iff start

end

section

variable {α : Type} {p : α → Bool}

/-- At most one element has a property just where none behind the first has it. -/
theorem countP_append_le_one_iff {earlier list : List α} (few : earlier.countP p ≤ 1) :
    (earlier ++ list).countP p ≤ 1 ↔
      ∀ entry ∈ withEarlierFrom earlier list, p entry.2 = true → entry.1.find? p = none := by
  induction list generalizing earlier with
  | nil => simp [withEarlierFrom, few]
  | cons a rest induction =>
      have shift : earlier ++ a :: rest = (earlier ++ [a]) ++ rest := by simp
      rw [withEarlierFrom, List.forall_mem_cons, shift]
      have here : (earlier ++ [a]).countP p = earlier.countP p + if p a = true then 1 else 0 := by
        rw [List.countP_append, List.countP_singleton]
      by_cases second : p a = true ∧ earlier.countP p ≠ 0
      · have found : earlier.find? p ≠ none := fun absent =>
          second.2 (List.countP_eq_zero.mpr (List.find?_eq_none.mp absent))
        refine iff_of_false (fun all => ?_) fun first => found (first.1 second.1)
        rw [List.countP_append, here, if_pos second.1] at all
        have positive := Nat.pos_of_ne_zero second.2
        omega
      · have alone : p a = true → earlier.find? p = none := fun holds =>
          List.find?_eq_none.mpr (List.countP_eq_zero.mp (not_not.mp fun some => second ⟨holds, some⟩))
        have few' : (earlier ++ [a]).countP p ≤ 1 := by
          rw [here]
          split
          · rename_i holds
            rw [not_not.mp fun some => second ⟨holds, some⟩]
          · exact few
        rw [induction few', and_iff_right alone]

theorem countP_le_one_iff {list : List α} : list.countP p ≤ 1 ↔
    ∀ entry ∈ withEarlier list, p entry.2 = true → entry.1.find? p = none := by
  have start : ([] : List α).countP p ≤ 1 := Nat.zero_le 1
  exact countP_append_le_one_iff start

theorem forall_withEarlier {list : List α} (holds : α → Prop) :
    (∀ entry ∈ withEarlier list, holds entry.2) ↔ ∀ a ∈ list, holds a := by
  rw [← List.forall_mem_map (f := Prod.snd), withEarlier, map_snd_withEarlierFrom]

end

/-- What is reported of something found is an error, so nothing was found where there is none. -/
theorem clear_map_toList {α : Type} {problem : α → Diagnostic} {found? : Option α}
    (error : ∀ a, (problem a).isError = true) :
    Clear (found?.map problem).toList ↔ found? = none := by
  cases found? with
  | none => exact iff_of_true clear_nil rfl
  | some a => exact iff_of_false (not_clear_of_mem List.mem_cons_self (error a)) (Option.some_ne_none a)

/-! ## Fields and members -/

theorem Field.clear_listProblems_iff {ν : Type} {role : FieldRole} {fields : List (Field ν)} :
    Clear (listProblems role fields) ↔
      (fields.map (·.id)).Nodup ∧ (fields.map (·.name)).Nodup := by
  rw [nodup_iff_withEarlier, nodup_iff_withEarlier, ← forall₂_and, listProblems, clear_flatMap]
  refine forall₂_congr fun (_, _) _ => ?_
  dsimp only
  rw [repetitions, clear_append, clear_map_toList fun _ => rfl, clear_map_toList fun _ => rfl]

theorem EnumType.clear_problems_iff {enum : EnumType} : Clear enum.problems ↔
    (enum.members.map (·.name)).Nodup ∧ (enum.members.map (·.value)).Nodup := by
  rw [nodup_iff_withEarlier, nodup_iff_withEarlier, ← forall₂_and, problems, clear_flatMap]
  refine forall₂_congr fun (_, _) _ => ?_
  dsimp only
  rw [repetitions, clear_append, clear_map_toList fun _ => rfl, clear_map_toList fun _ => rfl]

namespace StructType

variable {ν : Type} {struct : StructType ν}

theorem clear_unionProblems_iff : Clear struct.unionProblems ↔
    (∀ field ∈ struct.fields, field.isRequired = false) ∧
      struct.fields.countP (·.default?.isSome) ≤ 1 := by
  rw [countP_le_one_iff, ← forall_withEarlier, ← forall₂_and, unionProblems, clear_flatMap]
  refine forall₂_congr fun (earlier, field) _ => ?_
  dsimp only
  rw [memberProblems, clear_append]
  refine and_congr ?_ ?_
  · cases field.isRequired with
    | true => exact iff_of_false (not_clear_of_mem List.mem_cons_self rfl) Bool.noConfusion
    | false => exact iff_of_true clear_nil rfl
  · split
    · rename_i default
      rw [clear_map_toList fun _ => rfl]
      exact ⟨fun absent _ => absent, fun absent => absent default⟩
    · rename_i no_default
      exact iff_of_true clear_nil fun default => absurd default no_default

theorem clear_problems_iff : Clear struct.problems ↔
    ((struct.fields.map (·.id)).Nodup ∧ (struct.fields.map (·.name)).Nodup) ∧
      (struct.kind = .union → (∀ field ∈ struct.fields, field.isRequired = false) ∧
        struct.fields.countP (·.default?.isSome) ≤ 1) := by
  rw [problems, clear_append, Field.clear_listProblems_iff]
  refine and_congr_right fun _ => ?_
  split
  · rename_i union
    rw [clear_unionProblems_iff, forall_prop_of_true union]
  · rename_i no_union
    exact iff_of_true clear_nil fun union => absurd union no_union

end StructType
end IdlSchema

/-! # Violations that are reported -/

namespace IdlSchema

open Diagnostics

namespace Diagnostics

/-- A problem of a kind is reported at a position. -/
def Reports (diagnostics : Diagnostics) (kind : DiagnosticKind) (location : Location) : Prop :=
  ∃ problem ∈ diagnostics, problem.kind = kind ∧ problem.location = location

variable {diagnostics diagnostics' : Diagnostics} {kind : DiagnosticKind} {location : Location}

theorem Reports.mono (reports : diagnostics.Reports kind location)
    (subset : diagnostics ⊆ diagnostics') : diagnostics'.Reports kind location := by
  obtain ⟨problem, reported, placed⟩ := reports
  exact ⟨problem, subset reported, placed⟩

theorem reports_singleton (problem : Diagnostic) :
    Reports [problem] problem.kind problem.location :=
  ⟨problem, List.mem_singleton_self problem, rfl, rfl⟩

/-- What is reported for an element is reported for the list. -/
theorem Reports.flatMap {α : Type} {list : List α} {problems : α → Diagnostics} {a : α}
    (reports : (problems a).Reports kind location) (member : a ∈ list) :
    Reports (list.flatMap problems) kind location :=
  reports.mono fun _ inside => List.mem_flatMap.mpr ⟨a, member, inside⟩

end Diagnostics

/-! ## Elements behind others -/

section

variable {α : Type} {first a : α}

theorem exists_mem_withEarlierFrom (earlier : List α) {list : List α} (member : a ∈ list) :
    ∃ front, (front, a) ∈ withEarlierFrom earlier list ∧ earlier ⊆ front := by
  induction list generalizing earlier with
  | nil => cases member
  | cons b rest induction =>
      rw [withEarlierFrom]
      rcases List.mem_cons.mp member with rfl | later
      · exact ⟨earlier, List.mem_cons_self, List.Subset.refl earlier⟩
      · obtain ⟨front, listed, kept⟩ := induction (earlier ++ [b]) later
        exact ⟨front, List.mem_cons_of_mem _ listed, fun c inside =>
          kept (List.mem_append_left _ inside)⟩

/-- An element that stands behind another one is seen with it. -/
theorem exists_mem_withEarlier {list : List α} (behind : [first, a].Sublist list) :
    ∃ front, (front, a) ∈ withEarlier list ∧ first ∈ front := by
  rw [withEarlier]
  generalize ([] : List α) = earlier
  induction list generalizing earlier with
  | nil => cases behind
  | cons b rest induction =>
      rw [withEarlierFrom]
      cases behind with
      | cons _ behind =>
          obtain ⟨front, listed, member⟩ := induction behind (earlier ++ [b])
          exact ⟨front, List.mem_cons_of_mem _ listed, member⟩
      | cons_cons _ behind =>
          obtain ⟨front, listed, kept⟩ :=
            exists_mem_withEarlierFrom (earlier ++ [first]) (List.singleton_sublist.mp behind)
          refine ⟨front, List.mem_cons_of_mem _ listed, kept ?_⟩
          exact List.mem_append_right _ List.mem_cons_self

/-- A problem of something found is reported if it is found. -/
theorem reports_map_toList {found? : Option α} {problem : α → Diagnostic} {kind : DiagnosticKind}
    {location : Location} (found : found?.isSome)
    (placed : ∀ b, (problem b).kind = kind ∧ (problem b).location = location) :
    Reports (found?.map problem).toList kind location := by
  obtain ⟨b, rfl⟩ := Option.isSome_iff_exists.mp found
  exact ⟨problem b, List.mem_singleton_self _, placed b⟩

theorem isSome_firstWithKey? {κ : Type} [BEq κ] [LawfulBEq κ] {key : α → κ} {earlier : List α}
    (member : first ∈ earlier) (same : key first = key a) :
    (firstWithKey? key earlier a).isSome := by
  rw [← Option.ne_none_iff_isSome, ne_eq, firstWithKey?_eq_none_iff, not_not]
  exact List.mem_map.mpr ⟨first, member, same⟩

end

/-! ## Single declarations -/

variable {ν : Type}

/-- A field that has the identifier or the name of one before it is reported. -/
theorem Field.reports_listProblems (role : FieldRole) {fields : List (Field ν)}
    {first field : Field ν} (behind : [first, field].Sublist fields) :
    (first.id = field.id →
        (listProblems role fields).Reports .duplicateFieldId field.location) ∧
      (first.name = field.name →
        (listProblems role fields).Reports .duplicateFieldName field.location) := by
  obtain ⟨front, listed, member⟩ := exists_mem_withEarlier behind
  constructor
  · intro same
    refine Reports.flatMap (.mono ?_ (List.subset_append_left ..)) listed
    exact reports_map_toList (isSome_firstWithKey? member same) fun _ => ⟨rfl, rfl⟩
  · intro same
    refine Reports.flatMap (.mono ?_ (List.subset_append_right ..)) listed
    exact reports_map_toList (isSome_firstWithKey? member same) fun _ => ⟨rfl, rfl⟩

namespace StructType

variable {union : StructType ν} {first field : Field ν}

theorem reports_problems_of_union (is_union : union.kind = .union) {kind : DiagnosticKind}
    {location : Location} (reports : union.unionProblems.Reports kind location) :
    union.problems.Reports kind location := by
  rw [problems, if_pos is_union]
  exact reports.mono (List.subset_append_right ..)

/-- A required field of a union is reported. -/
theorem reports_required (is_union : union.kind = .union) (member : field ∈ union.fields)
    (required : field.requiredness = .required) :
    union.problems.Reports .invalidUnionField field.location := by
  obtain ⟨front, listed, _⟩ := exists_mem_withEarlierFrom [] member
  refine reports_problems_of_union is_union
    (Reports.flatMap (.mono ?_ (List.subset_append_left ..)) listed)
  have is_required : field.isRequired = true := beq_iff_eq.mpr required
  dsimp only
  rw [if_pos is_required]
  exact reports_singleton (requiredMember field)

/-- A field of a union with a default behind another one with a default is reported. -/
theorem reports_secondDefault (is_union : union.kind = .union)
    (behind : [first, field].Sublist union.fields) (default_first : first.default?.isSome)
    (default_field : field.default?.isSome) :
    union.problems.Reports .invalidUnionField field.location := by
  obtain ⟨front, listed, member⟩ := exists_mem_withEarlier behind
  refine reports_problems_of_union is_union
    (Reports.flatMap (.mono ?_ (List.subset_append_right ..)) listed)
  dsimp only
  rw [if_pos default_field]
  refine reports_map_toList ?_ fun _ => ⟨rfl, rfl⟩
  exact List.find?_isSome.mpr ⟨first, member, default_first⟩

end StructType

/-- A member that has the name of one before it is reported. -/
theorem EnumType.reports_repeatedName {enum : EnumType} {first member : EnumMember}
    (behind : [first, member].Sublist enum.members) (same : first.name = member.name) :
    enum.problems.Reports .duplicateEnumMember member.location := by
  obtain ⟨front, listed, earlier⟩ := exists_mem_withEarlier behind
  refine Reports.flatMap (.mono ?_ (List.subset_append_left ..)) listed
  exact reports_map_toList (isSome_firstWithKey? earlier same) fun _ => ⟨rfl, rfl⟩

/-- A oneway method that throws something is reported. -/
theorem Method.reports_throws (graph : TypeGraph) {method : Method ν} (oneWay : method.oneWay = true)
    (throws : method.exceptions ≠ []) :
    (method.problems graph).Reports .oneWayThrows method.location := by
  have thrown : method.throwProblems.Reports .oneWayThrows method.location := by
    rw [throwProblems, if_neg (by simpa using throws)]
    exact reports_singleton _
  rw [problems, if_pos oneWay]
  exact (thrown.mono (List.subset_append_right ..)).mono (List.subset_append_right ..)

end IdlSchema
