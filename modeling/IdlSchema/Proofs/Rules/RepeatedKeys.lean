import Mathlib.Data.Finset.Card
import IdlSchema.Proofs.Rules.ProblemKinds
import IdlSchema.Proofs.Schema.ObeyedRules

/-!
# What is told of repeated keys

In a list each element with the key of an earlier one repeats it, and the first element with the key
is the one to blame.  Fields are told apart by identifier and by name, members of enums by name and by
value: for each key by itself, every element that repeats it is reported once and refers to the first
one, so the reports and the different keys are together as many as the elements.
-/

namespace IdlSchema

open Diagnostics

section

variable {α κ : Type}

/-- At a place stands a key that was met before, for the first time at another place. -/
structure RepeatsAt (key : α → κ) (list : List α) (first place : Nat) : Prop where
  before : first < place
  inside : place < list.length
  same : (list.map key)[first]? = (list.map key)[place]?
  foremost : ∀ earlier < first, (list.map key)[earlier]? ≠ (list.map key)[place]?

/--
A problem of a kind stands at an element of a list and refers to another one, with the texts of what is
reported of the two.
-/
structure RefersBack (kind : DiagnosticKind) (position : α → Location)
    (report : α → α → Diagnostic) (list : List α) (first place : Nat) (problem : Diagnostic) :
    Prop where
  kind : problem.kind = kind
  location : ∃ a ∈ list[place]?, problem.location = position a
  related : ∃ a ∈ list[first]?, problem.related.map (·.location) = [position a]
  report : ∃ a ∈ list[place]?, ∃ b ∈ list[first]?, problem = report a b

/--
In the order of the list, each element that repeats a key is told of in one problem, which refers to
the first element with the key, and nothing else is told.
-/
structure TellsRepeats [DecidableEq κ] (kind : DiagnosticKind) (key : α → κ)
    (position : α → Location) (report : α → α → Diagnostic) (list : List α)
    (problems : Diagnostics) : Prop where
  told : ∃ places : List (Nat × Nat), places.Pairwise (·.2 < ·.2) ∧
    (∀ first place, (first, place) ∈ places ↔ RepeatsAt key list first place) ∧
    List.Forall₂ (fun places problem =>
      RefersBack kind position report list places.1 places.2 problem) places problems
  count : problems.length + (list.map key).toFinset.card = list.length

/-! ## Elements by their places -/

/-- To see an element behind earlier ones is to see it at its place. -/
theorem withEarlier_eq_zipIdx (list : List α) :
    withEarlier list = list.zipIdx.map fun placed => (list.take placed.2, placed.1) := by
  have behind (earlier list : List α) : withEarlierFrom earlier list =
      (list.zipIdx earlier.length).map fun placed =>
        ((earlier ++ list).take placed.2, placed.1) := by
    induction list generalizing earlier with
    | nil => rfl
    | cons a rest induction =>
        have next := induction (earlier ++ [a])
        rw [List.append_assoc, List.singleton_append, List.length_append,
          List.length_singleton] at next
        rw [withEarlierFrom, List.zipIdx_cons, List.map_cons, next, List.take_left]
  exact behind [] list

section

variable [BEq κ] [LawfulBEq κ] {key : α → κ} {list : List α}

/-- The place of the first of the earlier elements with the key of an element. -/
def firstPlace? (key : α → κ) (list : List α) (placed : α × Nat) : Option Nat :=
  (list.take placed.2).findIdx? fun other => key other == key placed.1

theorem firstPlace?_eq_some_iff {a : α} {first place : Nat} (found : list[place]? = some a) :
    firstPlace? key list (a, place) = some first ↔ RepeatsAt key list first place := by
  obtain ⟨inside, rfl⟩ := List.getElem?_eq_some_iff.mp found
  have at_place : (list.map key)[place]? = some (key list[place]) := by
    rw [List.getElem?_map, found, Option.map_some]
  have at_other {other : Nat} (here : other < list.length) :
      (list.map key)[other]? = some (key list[other]) := by
    rw [List.getElem?_map, List.getElem?_eq_getElem here, Option.map_some]
  rw [firstPlace?, List.findIdx?_eq_some_iff_getElem]
  constructor
  · rintro ⟨short, same, foremost⟩
    have before : first < place := (List.length_take_le place list).trans_lt' short
    refine ⟨before, inside, ?_, fun earlier less again => ?_⟩
    · rw [at_place, at_other (before.trans inside), ← eq_of_beq same, List.getElem_take]
    · rw [at_place, at_other (less.trans (before.trans inside)), Option.some.injEq] at again
      refine foremost earlier less (beq_iff_eq.mpr ?_)
      rw [List.getElem_take, again]
  · intro repeats
    have short : first < (list.take place).length := by
      rw [List.length_take]
      exact lt_min repeats.before (repeats.before.trans inside)
    have same := repeats.same
    rw [at_place, at_other (repeats.before.trans inside), Option.some.injEq] at same
    refine ⟨short, beq_iff_eq.mpr ?_, fun earlier less again => ?_⟩
    · rw [List.getElem_take, same]
    · refine repeats.foremost earlier less ?_
      rw [at_place, at_other (less.trans (repeats.before.trans inside)), ← eq_of_beq again,
        List.getElem_take]

omit [LawfulBEq κ] in
theorem firstWithKey?_take {a : α} {place : Nat} :
    firstWithKey? key (list.take place) a =
      (firstPlace? key list (a, place)).bind (list[·]?) := by
  rw [firstWithKey?, List.find?_eq_bind_findIdx?_getElem?]
  refine Option.bind_congr fun first found => ?_
  obtain ⟨short, _⟩ := List.findIdx?_eq_some_iff_getElem.mp found
  exact List.getElem?_take_of_lt ((List.length_take_le place list).trans_lt' short)

/-! ## What is told of a list -/

variable {report : α → α → Diagnostic}

/-- What is told of the elements of a list that repeat a key. -/
def tellings (key : α → κ) (report : α → α → Diagnostic) (entries : List (List α × α)) :
    Diagnostics :=
  entries.flatMap fun entry => ((firstWithKey? key entry.1 entry.2).map (report entry.2)).toList

/-- Each element gives a report or a new key. -/
theorem length_tellings [DecidableEq κ] (earlier list : List α) :
    (tellings key report (withEarlierFrom earlier list)).length +
      ((earlier ++ list).map key).toFinset.card =
        list.length + (earlier.map key).toFinset.card := by
  induction list generalizing earlier with
  | nil => simp [withEarlierFrom, tellings]
  | cons a rest induction =>
      have next := induction (earlier ++ [a])
      rw [List.append_assoc, List.singleton_append] at next
      have keys : ((earlier ++ [a]).map key).toFinset =
          insert (key a) (earlier.map key).toFinset := by
        rw [List.map_append, List.toFinset_append, List.map_singleton, List.toFinset_cons,
          List.toFinset_nil, Finset.union_comm]
        rfl
      rw [keys] at next
      rw [withEarlierFrom, tellings, List.flatMap_cons, List.length_append, List.length_cons,
        ← tellings]
      cases found : firstWithKey? key earlier a with
      | none =>
          have fresh : key a ∉ (earlier.map key).toFinset :=
            List.mem_toFinset.not.mpr (firstWithKey?_eq_none_iff.mp found)
          rw [Finset.card_insert_of_notMem fresh] at next
          simp only [Option.map_none, Option.toList_none, List.length_nil]
          omega
      | some first =>
          have old : key a ∈ (earlier.map key).toFinset := by
            by_contra fresh
            rw [List.mem_toFinset, ← firstWithKey?_eq_none_iff, found] at fresh
            cases fresh
          rw [Finset.insert_eq_of_mem old] at next
          simp only [Option.map_some, Option.toList_some, List.length_singleton]
          omega

/-- What is told of a list tells of its repetitions if a report stands at the element it is for. -/
theorem tellsRepeats_tellings [DecidableEq κ] {kind : DiagnosticKind} {position : α → Location}
    (of_kind : ∀ a first, (report a first).kind = kind)
    (placed : ∀ a first, (report a first).location = position a)
    (refers : ∀ a first, (report a first).related.map (·.location) = [position first]) :
    TellsRepeats kind key position report list (tellings key report (withEarlier list)) where
  told := by
    refine ⟨list.zipIdx.filterMap fun placed =>
      (firstPlace? key list placed).map fun first => (first, placed.2), ?_, ?_, ?_⟩
    · have ascending : list.zipIdx.Pairwise (·.2 < ·.2) := by
        rw [← List.pairwise_map, List.zipIdx_map_snd]
        exact List.pairwise_lt_range'
      refine ascending.filterMap _ fun placed placed' less pair found pair' found' => ?_
      obtain ⟨_, _, rfl⟩ := Option.map_eq_some_iff.mp found
      obtain ⟨_, _, rfl⟩ := Option.map_eq_some_iff.mp found'
      exact less
    · intro first place
      rw [List.mem_filterMap]
      constructor
      · rintro ⟨⟨a, place'⟩, member, pair⟩
        obtain ⟨_, found, same⟩ := Option.map_eq_some_iff.mp pair
        obtain ⟨rfl, rfl⟩ := Prod.mk.inj same
        exact (firstPlace?_eq_some_iff (List.mem_zipIdx_iff_getElem?.mp member)).mp found
      · intro repeats
        have found := List.getElem?_eq_getElem repeats.inside
        refine ⟨(_, place), List.mem_zipIdx_iff_getElem?.mpr found, ?_⟩
        rw [(firstPlace?_eq_some_iff found).mpr repeats, Option.map_some]
    · rw [tellings, withEarlier_eq_zipIdx, List.flatMap_map, ← List.filterMap_eq_flatMap_toList]
      refine List.rel_filterMap (R := fun a b => a = b ∧ a ∈ list.zipIdx) ?_
        (List.forall₂_same.mpr fun _ member => ⟨rfl, member⟩)
      rintro _ ⟨a, place⟩ ⟨rfl, member⟩
      have at_place := List.mem_zipIdx_iff_getElem?.mp member
      dsimp only at at_place ⊢
      rw [firstWithKey?_take]
      cases found : firstPlace? key list (a, place) with
      | none => exact .none
      | some first =>
          have repeats := (firstPlace?_eq_some_iff at_place).mp found
          have at_first := List.getElem?_eq_getElem (repeats.before.trans repeats.inside)
          rw [Option.bind_some, at_first]
          exact .some ⟨of_kind .., ⟨a, at_place, placed ..⟩, ⟨_, at_first, refers ..⟩,
            ⟨a, at_place, _, at_first, rfl⟩⟩
  count := by
    have all : (tellings key report (withEarlier list)).length + (list.map key).toFinset.card =
        list.length + (([] : List α).map key).toFinset.card := length_tellings [] list
    rwa [List.map_nil, List.toFinset_nil, Finset.card_empty, Nat.add_zero] at all

end

end

/-! ## Fields and members -/

section

variable {ν : Type}

/-- What is told of a list of fields is told of its identifiers and of its names. -/
theorem Field.tellsRepeats_listProblems (role : FieldRole) (fields : List (Field ν)) :
    TellsRepeats .duplicateFieldId (·.id) Field.location (repeatedId role) fields
        ((listProblems role fields).ofKind .duplicateFieldId) ∧
      TellsRepeats .duplicateFieldName (·.name) Field.location (repeatedName role) fields
        ((listProblems role fields).ofKind .duplicateFieldName) := by
  have ids (earlier : List (Field ν)) (field : Field ν) :
      Among [.duplicateFieldId]
        ((firstWithKey? (·.id) earlier field).map (repeatedId role field)).toList :=
    among_map_toList fun _ => List.mem_cons_self
  have names (earlier : List (Field ν)) (field : Field ν) :
      Among [.duplicateFieldName]
        ((firstWithKey? (·.name) earlier field).map (repeatedName role field)).toList :=
    among_map_toList fun _ => List.mem_cons_self
  have told_ids : (listProblems role fields).ofKind .duplicateFieldId =
      tellings (·.id) (repeatedId role) (withEarlier fields) := by
    rw [listProblems, ofKind_flatMap]
    refine List.flatMap_congr fun entry _ => ?_
    obtain ⟨earlier, field⟩ := entry
    dsimp only
    rw [repetitions, ofKind_append, (ids earlier field).ofKind_eq_self,
      (names earlier field).ofKind_eq_nil (by decide),
      List.append_nil]
  have told_names : (listProblems role fields).ofKind .duplicateFieldName =
      tellings (·.name) (repeatedName role) (withEarlier fields) := by
    rw [listProblems, ofKind_flatMap]
    refine List.flatMap_congr fun entry _ => ?_
    obtain ⟨earlier, field⟩ := entry
    dsimp only
    rw [repetitions, ofKind_append, (ids earlier field).ofKind_eq_nil (by decide),
      (names earlier field).ofKind_eq_self,
      List.nil_append]
  rw [told_ids, told_names]
  exact ⟨tellsRepeats_tellings (fun _ _ => rfl) (fun _ _ => rfl) fun _ _ => rfl,
    tellsRepeats_tellings (fun _ _ => rfl) (fun _ _ => rfl) fun _ _ => rfl⟩

/-- Of an enum the repeated names are told and the repeated values, and nothing else. -/
def EnumType.TellsMembers (enum : EnumType) (problems : Diagnostics) : Prop :=
  ∃ names values : Diagnostics, problems.Perm (names ++ values) ∧
    TellsRepeats .duplicateEnumMember (·.name) EnumMember.location enum.repeatedName enum.members
      names ∧
    TellsRepeats .duplicateEnumMember (·.value) EnumMember.location repeatedValue enum.members values

theorem EnumType.tellsMembers_problems (enum : EnumType) : enum.TellsMembers enum.problems := by
  refine ⟨tellings (·.name) enum.repeatedName (withEarlier enum.members),
    tellings (·.value) repeatedValue (withEarlier enum.members), ?_, ?_, ?_⟩
  · exact (List.flatMap_append_perm (withEarlier enum.members) _ _).symm
  · exact tellsRepeats_tellings (fun _ _ => rfl) (fun _ _ => rfl) fun _ _ => rfl
  · exact tellsRepeats_tellings (fun _ _ => rfl) (fun _ _ => rfl) fun _ _ => rfl

namespace Model

/-- The lists in which fields must differ, each with the role of its fields. -/
def fieldListsInRoles (model : Model ν) : List (FieldRole × List (Field ν)) :=
  model.structs.map (fun struct => (.field, struct.fields)) ++ model.services.flatMap fun service =>
    service.methods.flatMap fun method =>
      [(.parameter, method.parameters), (.exception, method.exceptions)]

theorem map_snd_fieldListsInRoles (model : Model ν) :
    model.fieldListsInRoles.map Prod.snd = model.fieldLists := by
  simp only [fieldLists, fieldListsInRoles, List.map_append, List.map_map, List.map_flatMap,
    List.map_cons, List.map_nil, Function.comp_def]

variable {model : Model ν} {graph : TypeGraph}

/-- Repeated fields are reported of the lists in which fields must differ, and of nothing else. -/
theorem ofKind_problems_of_field {kind : DiagnosticKind}
    (of_field : kind ∈ [DiagnosticKind.duplicateFieldId, .duplicateFieldName]) :
    (model.problems graph).ofKind kind = model.fieldListsInRoles.flatMap fun list =>
      (Field.listProblems list.1 list.2).ofKind kind := by
  have other {kinds : List DiagnosticKind} {problems : Diagnostics} (among : Among kinds problems)
      (others : ∀ kind ∈ [DiagnosticKind.duplicateFieldId, .duplicateFieldName], kind ∉ kinds) :
      problems.ofKind kind = [] :=
    among.ofKind_eq_nil (others kind of_field)
  have structs (struct : StructType ν) : struct.problems.ofKind kind =
      (Field.listProblems .field struct.fields).ofKind kind := by
    rw [StructType.problems, ofKind_append, other struct.among_ownProblems (by decide),
      List.append_nil]
  have methods (method : Method ν) : (method.problems graph).ofKind kind =
      (Field.listProblems .parameter method.parameters).ofKind kind ++
        (Field.listProblems .exception method.exceptions).ofKind kind := by
    rw [Method.problems, ofKind_append, ofKind_append, ofKind_append,
      other (Method.among_exceptionProblems graph _) (by decide),
      other (method.among_oneWayProblems graph) (by decide), List.append_nil, List.append_nil]
  rw [problems, ofKind_append, ofKind_append, ofKind_append,
    other model.among_enumProblems (by decide), other (ServiceType.among_problems graph _) (by decide),
    List.append_nil, List.append_nil]
  simp only [fieldListsInRoles, ofKind_flatMap, structs, methods, List.flatMap_append,
    List.flatMap_map, List.flatMap_assoc, List.flatMap_cons, List.flatMap_nil, List.append_nil]

theorem ofKind_duplicateEnumMember_problems :
    (model.problems graph).ofKind .duplicateEnumMember = model.enums.flatMap (·.problems) := by
  rw [problems, ofKind_append, ofKind_append, ofKind_append,
    model.among_structProblems.ofKind_eq_nil (by decide), model.among_enumProblems.ofKind_eq_self,
    (model.among_methodProblems graph).ofKind_eq_nil (by decide),
    (ServiceType.among_problems graph _).ofKind_eq_nil (by decide), List.append_nil,
    List.append_nil, List.nil_append]

/--
Of a model all repetitions are told, list by list: those of identifiers and of names of fields in their
roles, and those of names and of values of members.
-/
structure TellsRepeats (model : Model ν) (problems : Diagnostics) : Prop where
  /-- The lists are those in which fields must differ. -/
  lists : model.fieldListsInRoles.map Prod.snd = model.fieldLists
  ids : ∃ told : List Diagnostics, problems.ofKind .duplicateFieldId = told.flatten ∧
    List.Forall₂ (fun list => IdlSchema.TellsRepeats .duplicateFieldId (·.id) Field.location
      (Field.repeatedId list.1) list.2) model.fieldListsInRoles told
  names : ∃ told : List Diagnostics, problems.ofKind .duplicateFieldName = told.flatten ∧
    List.Forall₂ (fun list => IdlSchema.TellsRepeats .duplicateFieldName (·.name) Field.location
      (Field.repeatedName list.1) list.2) model.fieldListsInRoles told
  members : ∃ told : List Diagnostics, problems.ofKind .duplicateEnumMember = told.flatten ∧
    List.Forall₂ EnumType.TellsMembers model.enums told

/-- The rules tell of all repetitions in a model, and of nothing else. -/
theorem tellsRepeats (model : Model ν) (graph : TypeGraph) :
    model.TellsRepeats (model.problems graph) where
  lists := model.map_snd_fieldListsInRoles
  ids := by
    refine ⟨_, (ofKind_problems_of_field List.mem_cons_self).trans List.flatMap_def, ?_⟩
    rw [List.forall₂_map_right_iff, List.forall₂_same]
    exact fun list _ => (Field.tellsRepeats_listProblems list.1 list.2).1
  names := by
    refine ⟨_, (ofKind_problems_of_field (List.mem_cons_of_mem _ List.mem_cons_self)).trans
      List.flatMap_def, ?_⟩
    rw [List.forall₂_map_right_iff, List.forall₂_same]
    exact fun list _ => (Field.tellsRepeats_listProblems list.1 list.2).2
  members := by
    refine ⟨_, ofKind_duplicateEnumMember_problems.trans List.flatMap_def, ?_⟩
    rw [List.forall₂_map_right_iff, List.forall₂_same]
    exact fun enum _ => enum.tellsMembers_problems

end Model

end

end IdlSchema
