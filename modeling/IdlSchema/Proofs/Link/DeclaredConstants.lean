import IdlSchema.Proofs.Link.KeptDeclarations
import IdlSchema.Proofs.Constants.MirroredValues

/-!
# Names of constants

A file uses the name of a constant once, so the constants that are known differ in their files or in
their names.  Of the constants that are written with one name in a file, the first one is known.
-/

namespace IdlSchema
namespace Names

/-- What a constant is known by. -/
def constantKey (entry : FileId × ConstantDecl) : FileId × String :=
  (entry.1, entry.2.header.name)

theorem constant?_eq_none_iff {names : Names} {file : FileId} {name : String} :
    names.constant? file name = none ↔ (file, name) ∉ names.constants.map constantKey := by
  rw [constant?, List.findIdx?_eq_none_iff, List.mem_map]
  constructor
  · rintro absent ⟨entry, member, same⟩
    have differs := absent entry member
    have same_file : entry.1 = file := congrArg Prod.fst same
    have same_name : entry.2.header.name = name := congrArg Prod.snd same
    simp [same_file, same_name] at differs
  · intro absent entry member
    by_contra same
    simp only [Bool.not_eq_false, Bool.and_eq_true, beq_iff_eq] at same
    exact absent ⟨entry, member, Prod.ext same.1 same.2⟩

/--
A constant is refused and changes nothing, where its file has a constant with its name, or else it is
declared.
-/
theorem declareConstant_cases (file : FileId) (decl : ConstantDecl) (names : Names) :
    (∃ earlier?, declareConstant file decl names = (.error (nameTaken decl.header earlier?), names) ∧
      (file, decl.header.name) ∈ names.constants.map constantKey) ∨
    ∃ id, declareConstant file decl names =
        (.ok id, { names with constants := names.constants ++ [(file, decl)] }) ∧
      (file, decl.header.name) ∉ names.constants.map constantKey := by
  rw [declareConstant]
  cases taken : names.constant? file decl.header.name with
  | some existing =>
      refine .inl ⟨_, rfl, ?_⟩
      by_contra absent
      rw [constant?_eq_none_iff.mpr absent] at taken
      cases taken
  | none => exact .inr ⟨_, rfl, constant?_eq_none_iff.mp taken⟩

/-- Of some constants that are written, some have been accepted. -/
structure AddsConstants (before : Names) (written accepted : List (FileId × ConstantDecl))
    (after : Names) : Prop where
  constants : after.constants = before.constants ++ accepted
  distinct : (before.constants.map constantKey).Nodup → (after.constants.map constantKey).Nodup
  first : ∀ key, after.constants.find? (constantKey · == key) =
    (before.constants ++ written).find? (constantKey · == key)

namespace AddsConstants

variable {before between after : Names} {written written' accepted accepted' :
  List (FileId × ConstantDecl)}

theorem none (same : after.constants = before.constants) : before.AddsConstants [] [] after where
  constants := by rw [same, List.append_nil]
  distinct nodup := same ▸ nodup
  first key := by rw [same, List.append_nil]

theorem trans (first : before.AddsConstants written accepted between)
    (second : between.AddsConstants written' accepted' after) :
    before.AddsConstants (written ++ written') (accepted ++ accepted') after where
  constants := by rw [second.constants, first.constants, List.append_assoc]
  distinct nodup := second.distinct (first.distinct nodup)
  first key := by
    rw [second.first, List.find?_append, first.first, ← List.find?_append, List.append_assoc]

end AddsConstants

theorem addsConstants_declareConstant (file : FileId) (decl : ConstantDecl) (names : Names) :
    names.AddsConstants [(file, decl)]
      ((Declared.accepted? ⟨file, decl, (declareConstant file decl names).1⟩).toList.map
        fun accepted => (accepted.1, accepted.2.1))
      (declareConstant file decl names).2 := by
  rcases declareConstant_cases file decl names with ⟨earlier?, refused, known⟩ | ⟨id, declared, unused⟩
  · rw [refused]
    refine ⟨by simp [Declared.accepted?], id, fun key => ?_⟩
    obtain ⟨earlier, member, same⟩ := List.mem_map.mp known
    rw [List.find?_append]
    by_cases at_key : constantKey (file, decl) = key
    · have found : (names.constants.find? (constantKey · == key)).isSome := by
        rw [List.find?_isSome]
        exact ⟨earlier, member, by rw [same, beq_iff_eq]; exact at_key⟩
      obtain ⟨entry, at_entry⟩ := Option.isSome_iff_exists.mp found
      rw [at_entry, Option.some_or]
    · rw [List.find?_cons_of_neg (by simpa using at_key), List.find?_nil, Option.or_none]
  · rw [declared]
    refine ⟨rfl, fun nodup => ?_, fun _ => rfl⟩
    rw [List.map_append]
    exact nodup.append (List.nodup_singleton _) (List.disjoint_singleton.mpr unused)

theorem addsConstants_declareConstants (file : FileId) (decls : List ConstantDecl)
    (names : Names) :
    names.AddsConstants (decls.map (file, ·))
      (((declareConstants file decls names).1.filterMap (·.accepted?)).map
        fun accepted => (accepted.1, accepted.2.1))
      (declareConstants file decls names).2 := by
  induction decls generalizing names with
  | nil => exact .none rfl
  | cons decl decls induction =>
      have first := addsConstants_declareConstant file decl names
      have both := first.trans (induction (declareConstant file decl names).2)
      rw [declareConstants_cons, List.map_cons, List.filterMap_cons]
      generalize Declared.accepted? _ = accepted at both ⊢
      cases accepted with
      | none => exact both
      | some entry => exact both

theorem addsConstants_declareFile (files : FileTable) (file : FileId) (names : Names) :
    names.AddsConstants ((files.tree file).constants.map (file, ·))
      (((declareFile files file names).1.constants.filterMap (·.accepted?)).map
        fun accepted => (accepted.1, accepted.2.1))
      (declareFile files file names).2 := by
  rw [declareFile_apply]
  exact (AddsConstants.none (constants_declareServices files file names)).trans (addsConstants_declareConstants file _ _)

theorem addsConstants_declareFiles (files : FileTable) (order : List FileId) (names : Names) :
    names.AddsConstants (files.written order (·.constants))
      ((FileDeclarations.acceptedConstants (declareFiles files order names).1).map
        fun accepted => (accepted.1, accepted.2.1))
      (declareFiles files order names).2 := by
  induction order generalizing names with
  | nil => exact .none rfl
  | cons file order induction =>
      rw [declareFiles, mapM_cons_apply, FileDeclarations.acceptedConstants, List.flatMap_cons,
        List.filterMap_append, List.map_append, FileTable.written, List.flatMap_cons]
      exact (addsConstants_declareFile files file names).trans
        (induction (declareFile files file names).2)

end Names

namespace FileTable

variable (files : FileTable) (order : List FileId) (warnDeprecated : Bool)

/-- No two constants that were accepted are known by the same. -/
theorem nodup_acceptedConstants :
    ((FileDeclarations.acceptedConstants (files.declared order).1).map fun accepted =>
      (accepted.1, accepted.2.1.header.name)).Nodup := by
  have adds := Names.addsConstants_declareFiles files order .initial
  have nodup := adds.distinct List.nodup_nil
  have no_others : Names.initial.constants = [] := rfl
  rw [adds.constants, no_others, List.nil_append, List.map_map] at nodup
  exact nodup

/-- The constants that are linked differ in their files or in their names. -/
theorem distinct_constantScope : (files.constantScope order warnDeprecated).Distinct := by
  have linked := (linksModel_literals files order warnDeprecated).constants
  have nodup := nodup_acceptedConstants files order
  have same : (FileDeclarations.acceptedConstants (files.declared order).1).map
      (fun accepted => (accepted.1, accepted.2.1.header.name)) =
      (files.literals order warnDeprecated).1.constants.map fun constant =>
        (constant.file, constant.name) := by
    rw [FileDeclarations.acceptedConstants]
    generalize List.filterMap _ _ = accepted, (files.literals order warnDeprecated).1.constants =
      constants at linked ⊢
    induction linked with
    | nil => rfl
    | cons first _ induction =>
        rw [List.map_cons, List.map_cons, induction, Constant.name, first.header, first.file]
  rw [same] at nodup
  exact nodup

/-- The constants that were accepted are the first ones with their names. -/
theorem mem_acceptedConstants_iff (entry : FileId × ConstantDecl) :
    (∃ accepted ∈ FileDeclarations.acceptedConstants (files.declared order).1,
      (accepted.1, accepted.2.1) = entry) ↔
    (files.written order (·.constants)).find? (Names.constantKey · == Names.constantKey entry) =
      some entry := by
  have adds := Names.addsConstants_declareFiles files order .initial
  have no_others : Names.initial.constants = [] := rfl
  have nodup := adds.distinct List.nodup_nil
  have first := adds.first (Names.constantKey entry)
  rw [adds.constants, no_others, List.nil_append] at nodup
  rw [adds.constants, no_others, List.nil_append, List.nil_append] at first
  rw [← first]
  constructor
  · rintro ⟨accepted, member, same⟩
    have listed := List.mem_map_of_mem (f := fun accepted => (accepted.1, accepted.2.1)) member
    rw [same] at listed
    exact List.find?_of_nodup nodup listed
  · intro found
    obtain ⟨accepted, member, same⟩ := List.mem_map.mp (List.mem_of_find?_eq_some found)
    exact ⟨accepted, member, same⟩

/-! ## Constants that are alike -/

variable {files order} {files' : FileTable} {like : FileId → ConstantDecl → ConstantDecl → Prop}

theorem find?_written_rel {decls decls' : FileId → List ConstantDecl}
    (each : ∀ file ∈ order, ∀ name, Option.Rel (like file)
      ((decls file).find? (·.header.name == name)) ((decls' file).find? (·.header.name == name)))
    (key : FileId × String) :
    Option.Rel (fun entry entry' => entry'.1 = entry.1 ∧ like entry.1 entry.2 entry'.2)
      ((order.flatMap fun file => (decls file).map (file, ·)).find? (Names.constantKey · == key))
      ((order.flatMap fun file => (decls' file).map (file, ·)).find?
        (Names.constantKey · == key)) := by
  induction order with
  | nil => exact .none
  | cons file order induction =>
      have first := each file List.mem_cons_self key.2
      have rest := induction fun other member => each other (List.mem_cons_of_mem file member)
      have here (decls : List ConstantDecl) :
          (decls.map (file, ·)).find? (Names.constantKey · == key) =
            if file = key.1 then (decls.find? (·.header.name == key.2)).map (file, ·) else none := by
        rw [List.find?_map]
        split_ifs with same
        · congr 2
          funext decl
          simp [Names.constantKey, Prod.ext_iff, same]
        · rw [Option.map_eq_none_iff, List.find?_eq_none]
          intro decl _ equal
          exact same (congrArg Prod.fst (eq_of_beq equal))
      rw [List.flatMap_cons, List.flatMap_cons, List.find?_append, List.find?_append, here, here]
      split_ifs with same
      · generalize (decls file).find? _ = found, (decls' file).find? _ = found' at first
        cases first with
        | some alike => exact .some ⟨rfl, alike⟩
        | none => exact rest
      · exact rest

/-- Where the first constants of each name are alike, those that are accepted are. -/
theorem exists_acceptedConstants
    (headers : ∀ file decl decl', like file decl decl' → decl'.header.name = decl.header.name)
    (each : ∀ file ∈ order, ∀ name, Option.Rel (like file)
      ((files.tree file).constants.find? (·.header.name == name))
      ((files'.tree file).constants.find? (·.header.name == name))) :
    (∀ accepted ∈ FileDeclarations.acceptedConstants (files.declared order).1,
      ∃ accepted' ∈ FileDeclarations.acceptedConstants (files'.declared order).1,
        accepted'.1 = accepted.1 ∧ like accepted.1 accepted.2.1 accepted'.2.1) ∧
    ∀ accepted' ∈ FileDeclarations.acceptedConstants (files'.declared order).1,
      ∃ accepted ∈ FileDeclarations.acceptedConstants (files.declared order).1,
        accepted'.1 = accepted.1 ∧ like accepted.1 accepted.2.1 accepted'.2.1 := by
  have same_key {entry entry' : FileId × ConstantDecl} (same : entry'.1 = entry.1)
      (alike : like entry.1 entry.2 entry'.2) :
      Names.constantKey entry' = Names.constantKey entry :=
    Prod.ext same (headers _ _ _ alike)
  constructor
  · intro accepted listed
    have found := (files.mem_acceptedConstants_iff order (accepted.1, accepted.2.1)).mp
      ⟨accepted, listed, rfl⟩
    have both := find?_written_rel each (Names.constantKey (accepted.1, accepted.2.1))
    rw [← written, ← written, found] at both
    cases found' : (files'.written order (·.constants)).find?
        (Names.constantKey · == Names.constantKey (accepted.1, accepted.2.1)) with
    | none => rw [found'] at both; cases both
    | some entry' =>
        rw [found'] at both
        obtain ⟨same, alike⟩ : entry'.1 = accepted.1 ∧ like accepted.1 accepted.2.1 entry'.2 := by
          cases both
          assumption
        rw [← same_key same alike] at found'
        obtain ⟨accepted', listed', rfl⟩ := (files'.mem_acceptedConstants_iff order entry').mpr found'
        exact ⟨accepted', listed', same, alike⟩
  · intro accepted' listed'
    have found' := (files'.mem_acceptedConstants_iff order (accepted'.1, accepted'.2.1)).mp
      ⟨accepted', listed', rfl⟩
    have both := find?_written_rel each (Names.constantKey (accepted'.1, accepted'.2.1))
    rw [← written, ← written, found'] at both
    cases found : (files.written order (·.constants)).find?
        (Names.constantKey · == Names.constantKey (accepted'.1, accepted'.2.1)) with
    | none => rw [found] at both; cases both
    | some entry =>
        rw [found] at both
        obtain ⟨same, alike⟩ : accepted'.1 = entry.1 ∧ like entry.1 entry.2 accepted'.2.1 := by
          cases both
          assumption
        have keys : Names.constantKey (accepted'.1, accepted'.2.1) = Names.constantKey entry :=
          same_key same alike
        rw [keys] at found
        obtain ⟨accepted, listed, rfl⟩ := (files.mem_acceptedConstants_iff order entry).mpr found
        exact ⟨accepted, listed, same, alike⟩

end FileTable
end IdlSchema
