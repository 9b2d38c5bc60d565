import IdlSchema.Proofs.Link.MirroredTrees

/-!
# Values of members

Over all integers, a member of an enum has the value that is written, or else one more than the
member before it, and the first one starts from zero.  Linking keeps the members whose values have
32 bits, and reports each other one.  It does not count on behind a member that is left out, but from
there on neither its counter nor the integers come back to 32 bits before the next written value.
-/

namespace IdlSchema

open Diagnostics

/--
The value of a member over all integers, behind a member with a value or at the start of an enum.
-/
def idealValue (before? : Option Int) (member : MemberDecl) : Int :=
  match member.value?, before? with
  | some value, _ => value.toInt
  | none, some before => before + 1
  | none, none => 0

/-- Members with their values over all integers. -/
def withIdealValues : Option Int → List MemberDecl → List (MemberDecl × Int)
  | _, [] => []
  | before?, member :: rest =>
      (member, idealValue before? member) ::
        withIdealValues (some (idealValue before? member)) rest

theorem length_withIdealValues (before? : Option Int) (decls : List MemberDecl) :
    (withIdealValues before? decls).length = decls.length := by
  induction decls generalizing before? with
  | nil => rfl
  | cons member rest induction =>
      rw [withIdealValues, List.length_cons, List.length_cons, induction]

/-- An integer has 32 bits. -/
def IsInt32 (value : Int) : Prop :=
  -2 ^ 31 ≤ value ∧ value < 2 ^ 31

instance (value : Int) : Decidable (IsInt32 value) :=
  inferInstanceAs (Decidable (_ ∧ _))

/-- One more than a number of 64 bits, if that has 64 bits too. -/
def next64? (value : Int64) : Option Int64 :=
  if value = Int64.maxValue then none else some (value + 1)

/--
The members of an enum and their problems, counted in 64 bits.  There is no result if the counter
leaves its range.
-/
def countMembers? : Int64 → List MemberDecl → Option (List EnumMember × Diagnostics)
  | _, [] => some ([], [])
  | next, member :: rest =>
      let value := (member.value?.map (·.toInt64)).getD next
      if Int32.minValue.toInt64 ≤ value ∧ value ≤ Int32.maxValue.toInt64 then do
        let next ← next64? value
        let (members, problems) ← countMembers? next rest
        return ({ header := member.header, value := value.toInt32 } :: members, problems)
      else do
        let problem := Diagnostic.detailed .typeMismatch member.header.location
          ("implicit value of `" ++ member.header.name ++ "` overflows i32")
        let (members, problems) ← countMembers? next rest
        return (members, problem :: problems)

/-- The members whose values over all integers have 32 bits, with these values. -/
def fittingMembers (decls : List MemberDecl) : List (MemberDecl × Int) :=
  (withIdealValues none decls).filter fun entry => IsInt32 entry.2

/-- The members whose values over all integers do not have 32 bits. -/
def overflowingMembers (decls : List MemberDecl) : List (MemberDecl × Int) :=
  (withIdealValues none decls).filter fun entry => ¬ IsInt32 entry.2

/-- An enum that was written becomes one with the members that fit, counted in 64 bits. -/
structure CountsMembers (accepted : FileId × EnumDecl × TypeId) (enum : EnumType) : Prop where
  header : enum.header = accepted.2.1.header
  file : enum.file = accepted.1
  id : enum.id = accepted.2.2
  members : enum.members.map (fun member => (member.header, member.value.toInt)) =
    (fittingMembers accepted.2.1.members).map fun entry => (entry.1.header, entry.2)
  counted : ∃ problems, countMembers? 0 accepted.2.1.members = some (enum.members, problems)

/-- Of an enum that was written each member that does not fit is told of, at its position. -/
def TellsOverflows (accepted : FileId × EnumDecl × TypeId) (problems : Diagnostics) : Prop :=
  problems.map (fun problem => (problem.kind, problem.location)) =
    (overflowingMembers accepted.2.1.members).map fun entry =>
      (.typeMismatch, entry.1.header.location)

/-! ## The counter and the integers -/

theorem int32_range_iff {value : Int} :
    (Int32.minValue.toInt ≤ value ∧ value ≤ Int32.maxValue.toInt) ↔ IsInt32 value := by
  have low : Int32.minValue.toInt = -2 ^ 31 := rfl
  have high : Int32.maxValue.toInt = 2 ^ 31 - 1 := rfl
  rw [IsInt32, low, high]
  omega

/-- The value over all integers of a member without a written value. -/
def idealNext (before? : Option Int) : Int :=
  (before?.map (· + 1)).getD 0

theorem idealValue_eq (before? : Option Int) (member : MemberDecl) :
    idealValue before? member = (member.value?.map (·.toInt)).getD (idealNext before?) := by
  obtain ⟨_, value?⟩ := member
  cases value? <;> cases before? <;> rfl

/-- A counter is the next value over all integers, or both are too large for 32 bits. -/
def InStep (next ideal : Int) : Prop :=
  -2 ^ 31 ≤ next ∧ next = ideal ∨ 2 ^ 31 ≤ next ∧ 2 ^ 31 ≤ ideal

/--
Behind a counter in step, a member either has its value over all integers, or none is written and
both the counter and the integers are too large.
-/
theorem InStep.value {next ideal : Int} (inStep : InStep next ideal) (value? : Option Int32) :
    (value?.map (·.toInt)).getD next = (value?.map (·.toInt)).getD ideal ∧
        IsInt32 ((value?.map (·.toInt)).getD ideal) ∨
      value? = none ∧ 2 ^ 31 ≤ next ∧ 2 ^ 31 ≤ ideal := by
  cases value? with
  | some value => exact .inl ⟨rfl, value.le_toInt, value.toInt_lt⟩
  | none =>
      rw [Option.map_none, Option.getD_none, Option.getD_none]
      rcases inStep with ⟨low, rfl⟩ | above
      · rcases lt_or_ge next (2 ^ 31) with high | large
        · exact .inl ⟨rfl, low, high⟩
        · exact .inr ⟨rfl, large, large⟩
      · exact .inr ⟨rfl, above⟩

/-- At the start of an enum the counter is in step. -/
theorem inStep_zero : InStep 0 (idealNext none) :=
  .inl ⟨by decide, rfl⟩

theorem not_isInt32_of_le {value : Int} (large : 2 ^ 31 ≤ value) : ¬ IsInt32 value :=
  fun fits => absurd fits.2 (Int.not_lt.mpr large)

/-- From a counter in step, the members that fit are kept and the others told of. -/
theorem map_linkMembers {next : Int} {before? : Option Int} (decls : List MemberDecl)
    (inStep : InStep next (idealNext before?)) :
    (linkMembers next decls).1.map (fun member => (member.header, member.value.toInt)) =
        ((withIdealValues before? decls).filter fun entry => IsInt32 entry.2).map
          (fun entry => (entry.1.header, entry.2)) ∧
      (linkMembers next decls).2.map (fun problem => (problem.kind, problem.location)) =
        ((withIdealValues before? decls).filter fun entry => ¬ IsInt32 entry.2).map
          fun entry => (.typeMismatch, entry.1.header.location) := by
  induction decls generalizing next before? with
  | nil => exact ⟨rfl, rfl⟩
  | cons decl decls induction =>
      have ideal := idealValue_eq before? decl
      rw [linkMembers, withIdealValues]
      dsimp only
      rw [if_congr int32_range_iff rfl rfl]
      rcases inStep.value decl.value? with ⟨same, fits⟩ | ⟨absent, large, large'⟩
      · rw [← ideal] at same fits
        have inStep' : InStep (idealValue before? decl + 1)
            (idealNext (some (idealValue before? decl))) :=
          .inl ⟨fits.1.trans (Int.le_add_one le_rfl), rfl⟩
        obtain ⟨members, problems⟩ := induction inStep'
        rw [same, if_pos fits, List.filter_cons_of_pos (by simpa using fits),
          List.filter_cons_of_neg (by simpa using fits), List.map_cons, List.map_cons, members]
        exact ⟨congrArg (fun value => (decl.header, value) :: _)
          (Int32.toInt_ofInt_of_le fits.1 fits.2), problems⟩
      · rw [absent, Option.map_none, Option.getD_none] at ideal ⊢
        rw [← ideal] at large'
        have inStep' : InStep next (idealNext (some (idealValue before? decl))) :=
          .inr ⟨large, large'.trans (Int.le_add_one le_rfl)⟩
        obtain ⟨members, problems⟩ := induction inStep'
        have above := not_isInt32_of_le large'
        rw [if_neg (not_isInt32_of_le large),
          List.filter_cons_of_neg (by simpa using above),
          List.filter_cons_of_pos (by simpa using above), List.map_cons, List.map_cons, members,
          problems]
        exact ⟨rfl, rfl⟩

/-! ## The counter in 64 bits -/

theorem toInt_of_next64? {value next : Int64} (found : next64? value = some next) :
    next.toInt = value.toInt + 1 := by
  rw [next64?] at found
  split at found
  · cases found
  · rename_i below
    obtain rfl := Option.some.inj found
    have differ : value.toInt ≠ 2 ^ 63 - 1 := fun same => below (Int64.toInt_inj.mp same)
    have low := value.le_toInt
    have high := value.toInt_lt
    rw [Int64.toInt_add, Int64.toInt_one]
    exact Int.bmod_eq_of_le (by omega) (by omega)

/-- Behind a value of 32 bits the counter stays in 64 bits. -/
theorem exists_next64? {value : Int64} (fits : IsInt32 value.toInt) :
    ∃ next, next64? value = some next := by
  refine ⟨value + 1, if_neg ?_⟩
  rintro rfl
  exact absurd fits (by decide)

theorem int64_range_iff {value : Int64} :
    (Int32.minValue.toInt64 ≤ value ∧ value ≤ Int32.maxValue.toInt64) ↔ IsInt32 value.toInt := by
  rw [Int64.le_iff_toInt_le, Int64.le_iff_toInt_le, Int32.toInt_toInt64, Int32.toInt_toInt64,
    int32_range_iff]

/-- The counter never leaves 64 bits, wherever it starts. -/
theorem countMembers?_eq (next : Int64) (decls : List MemberDecl) :
    countMembers? next decls = some (linkMembers next.toInt decls) := by
  induction decls generalizing next with
  | nil => rfl
  | cons decl decls induction =>
      have same : ((decl.value?.map (·.toInt64)).getD next).toInt =
          (decl.value?.map (·.toInt)).getD next.toInt := by
        cases decl.value? with
        | none => rfl
        | some value => exact value.toInt_toInt64
      rw [countMembers?, linkMembers]
      dsimp only
      rw [← same, if_congr int64_range_iff rfl rfl, if_congr int32_range_iff rfl rfl]
      generalize (decl.value?.map (·.toInt64)).getD next = value
      split
      · rename_i fits
        obtain ⟨after, found⟩ := exists_next64? fits
        rw [found, Option.bind_eq_bind, Option.bind_some, induction, toInt_of_next64? found,
          Int32.ofInt_int64ToInt]
        rfl
      · rw [induction]
        rfl

/-! ## Linked enums -/

namespace FileTable

open FileDeclarations

variable (files : FileTable) (order : List FileId) (warnDeprecated : Bool)

/-- Beside members, only literals can be told of as mismatched in linking. -/
theorem ofKind_typeMismatch_link : (files.link order warnDeprecated).reported.ofKind .typeMismatch =
    (acceptedEnums (files.declared order).1).flatMap
        (fun accepted => (linkMembers 0 accepted.2.1.members).2) ++
      (files.checked order warnDeprecated).2.reported.ofKind .typeMismatch := by
  have references {problems : Diagnostics} (among : Among Scope.referenceKinds problems) :
      problems.ofKind .typeMismatch = [] :=
    among.ofKind_eq_nil (by decide)
  have types : ((files.typeScope order warnDeprecated).typeProblems
      (files.declared order).1).ofKind .typeMismatch =
        (acceptedEnums (files.declared order).1).flatMap
          fun accepted => (linkMembers 0 accepted.2.1.members).2 := by
    simp only [Scope.typeProblems, ofKind_append, references (Scope.among_acceptedProblems _ _),
      references (Scope.among_refusedProblems _), (Scope.among_memberProblems _).ofKind_eq_self,
      List.append_nil, List.nil_append]
    rfl
  rw [link_eq, ofKind_append, ofKind_append, ofKind_append, types,
    (among_declared files order).ofKind_eq_nil (by decide),
    (TypedefType.among_cycleProblems _ _).ofKind_eq_nil (by decide), List.append_nil,
    List.nil_append]

/--
Linking counts the members of each accepted enum as over all integers, with a counter that stays in
64 bits.  All other mismatches that it tells of are met when literals are checked.
-/
structure CountsEnums : Prop where
  enums : List.Forall₂ CountsMembers (acceptedEnums (files.declared order).1)
    (files.link order warnDeprecated).model.enums
  told : ∃ told : List Diagnostics,
    (files.link order warnDeprecated).reported.ofKind .typeMismatch =
      told.flatten ++ (files.checked order warnDeprecated).2.reported.ofKind .typeMismatch ∧
    List.Forall₂ TellsOverflows (acceptedEnums (files.declared order).1) told

/-- The values of members are those over all integers, where these fit. -/
theorem countsEnums : CountsEnums files order warnDeprecated where
  enums := by
    rw [model_link_eq_elaborateModel]
    refine (linksModel_literals files order warnDeprecated).enums.imp fun accepted enum links => ?_
    rw [links.same]
    exact ⟨rfl, rfl, rfl, (map_linkMembers _ inStep_zero).1, _, countMembers?_eq 0 _⟩
  told := by
    refine ⟨_, (ofKind_typeMismatch_link files order warnDeprecated).trans
      (congrArg (· ++ _) List.flatMap_def), ?_⟩
    rw [List.forall₂_map_right_iff, List.forall₂_same]
    exact fun accepted _ => (map_linkMembers _ inStep_zero).2

end FileTable
end IdlSchema
