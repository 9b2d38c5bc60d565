import Mathlib
import IdlSchema.Proofs.Constants.MirroredValues
import IdlSchema.Proofs.Files.FileTables
import IdlSchema.Proofs.Link.ParallelLinks

/-!
# The order of constants

The constants of a file may stand in any order, save that among those of one name the first one
counts.  Two tables of files that differ in this order alone give scopes that mirror each other, so
every name of a constant has the same value in both.
-/

namespace IdlSchema

/-- The same file with its constants in another order, but for those of one name. -/
structure SchemaFile.Reordered (file file' : SchemaFile) : Prop where
  path : file'.path = file.path
  includes : file'.includes = file.includes
  typedefs : file'.tree.typedefs = file.tree.typedefs
  enums : file'.tree.enums = file.tree.enums
  structs : file'.tree.structs = file.tree.structs
  services : file'.tree.services = file.tree.services
  constants : ∀ name, file'.tree.constants.filter (·.header.name == name) =
    file.tree.constants.filter (·.header.name == name)

namespace FileTable

/-- The same files with the constants of each in another order. -/
def Reordered (files files' : FileTable) : Prop :=
  List.Forall₂ SchemaFile.Reordered files.files files'.files

namespace Reordered

variable {files files' : FileTable}

theorem includes (reordered : files.Reordered files') (file : FileId) :
    files'.includes file = files.includes file :=
  getD_get?_eq reordered (fun _ _ both => both.includes) file

theorem qualifier (reordered : files.Reordered files') (file : FileId) :
    files'.qualifier file = files.qualifier file :=
  getD_get?_eq reordered (fun _ _ both => congrArg fileQualifier both.path) file

theorem typesLike (reordered : files.Reordered files') (file : FileId)
    {related : TypeReference → TypeReference → Prop}
    (refl : ∀ reference, related reference reference) :
    (files.tree file).TypesLike related (files'.tree file) := by
  have both := get?_rel reordered file
  have same := FileTree.typesLike_refl refl (files.tree file)
  rw [tree, tree] at *
  generalize files.get? file = found, files'.get? file = found' at *
  cases both with
  | some both =>
      refine ⟨?_, both.enums, ?_, ?_⟩
      · exact both.typedefs ▸ same.typedefs
      · exact both.structs ▸ same.structs
      · exact both.services ▸ same.services
  | none => exact same

theorem find?_constants (reordered : files.Reordered files') (file : FileId) (name : String) :
    (files'.tree file).constants.find? (·.header.name == name) =
      (files.tree file).constants.find? (·.header.name == name) := by
  have both := get?_rel reordered file
  rw [tree, tree]
  generalize files.get? file = found, files'.get? file = found' at both
  cases both with
  | some same => rw [← List.head?_filter, ← List.head?_filter]; exact congrArg _ (same.constants name)
  | none => rfl

/-- Files whose constants are reordered are linked in parallel. -/
theorem parallel (reordered : files.Reordered files') (order : List FileId)
    (warnDeprecated : Bool) : files.Parallel False files' order warnDeprecated := by
  have equal (file : FileId) (_ : file ∈ order) :
      (files.tree file).TypesLike (· = ·) (files'.tree file) :=
    reordered.typesLike file fun _ => rfl
  have graph : (files'.declared order).2.graph = (files.declared order).2.graph :=
    (Names.declareFiles_parallel reordered.qualifier equal rfl).2
  have refl (file : FileId) (reference : TypeReference) :
      Scope.Weakens False (files.typeScope order warnDeprecated)
        (files'.typeScope order warnDeprecated) file reference reference := by
    have alike : Scope.Alike (files.typeScope order warnDeprecated)
        (files'.typeScope order warnDeprecated) :=
      ⟨graph, reordered.includes, reordered.qualifier⟩
    rw [Scope.Weakens, alike.denote_eq]
    exact .refl False _
  have first (file : FileId) (_ : file ∈ order) (name : String) :
      Option.Rel (ConstantDecl.Like (Scope.Weakens False (files.typeScope order warnDeprecated)
          (files'.typeScope order warnDeprecated) file))
        ((files.tree file).constants.find? (·.header.name == name))
        ((files'.tree file).constants.find? (·.header.name == name)) := by
    rw [reordered.find?_constants]
    cases (files.tree file).constants.find? _ with
    | none => exact .none
    | some decl => exact .some (decl.like_refl (refl file))
  have constants := exists_acceptedConstants
    (fun _ _ _ alike => congrArg Header.name alike.header) first
  exact
    { includes := reordered.includes
      qualifier := reordered.qualifier
      graph
      declarations := (Names.declareFiles_parallel reordered.qualifier
        (fun file _ => reordered.typesLike file (refl file)) rfl).1
      constants := constants.1
      constants_back := constants.2 }

theorem mirrors (reordered : files.Reordered files') (order : List FileId)
    (warnDeprecated : Bool) : ConstantScope.Mirrors False (files.constantScope order warnDeprecated)
      (files'.constantScope order warnDeprecated) :=
  (reordered.parallel order warnDeprecated).mirrors False.elim

end Reordered
end FileTable

/-! ## Values by name -/

/-- The value of the constant with a name in a file. -/
def Model.constantValue? (model : Model ConstantValue) (file : FileId) (name : String) :
    Option ConstantValue :=
  (model.constants.find? fun constant => constant.file == file && constant.name == name).map
    (·.value)

namespace ConstantScope

variable {scope mirror : ConstantScope}

theorem value_of_valuedConstants (values : Nat → Option ConstantValue) (file : FileId)
    (name : String) {constants : List (Constant Literal)}
    (distinct : (constants.map fun constant => (constant.file, constant.name)).Nodup)
    (start : Nat) :
    (((constants.zipIdx start).filterMap fun (constant, index) =>
      valuedConstant? values constant index).find? fun constant =>
        constant.file == file && constant.name == name).map (·.value) =
    (constants.findIdx? fun constant => constant.file == file && constant.name == name).bind
      fun index => values (start + index) := by
  induction constants generalizing start with
  | nil => rfl
  | cons constant constants induction =>
      obtain ⟨fresh, distinct'⟩ := List.nodup_cons.mp distinct
      have rest := induction distinct' (start + 1)
      rw [List.zipIdx_cons, List.filterMap_cons, List.findIdx?_cons]
      by_cases here : (constant.file == file && constant.name == name) = true
      · have absent : (constants.findIdx? fun constant => constant.file == file &&
            constant.name == name) = none := by
          refine List.findIdx?_eq_none_iff.mpr fun other member => ?_
          by_contra again
          rw [Bool.not_eq_false] at again
          simp only [Bool.and_eq_true, beq_iff_eq] at here again
          exact fresh (List.mem_map.mpr ⟨other, member, Prod.ext (again.1.trans here.1.symm)
            (again.2.trans here.2.symm)⟩)
        rw [absent, Option.bind_none] at rest
        rw [if_pos here, Option.bind_some, Nat.add_zero]
        dsimp only [valuedConstant?]
        cases values start with
        | none => exact rest
        | some value =>
            dsimp only [Option.map_some]
            rw [List.find?_cons_of_pos (by exact here), Option.map_some]
      · have later : (fun index => values (start + 1 + index)) =
            fun index => values (start + (index + 1)) := by
          funext index
          congr 1
          omega
        rw [if_neg here, Option.bind_map]
        rw [later] at rest
        dsimp only [valuedConstant?]
        cases values start with
        | none => exact rest
        | some value =>
            dsimp only [Option.map_some]
            rw [List.find?_cons_of_neg (by exact here)]
            exact rest

/-- A name has the value of the constant that it stands for. -/
theorem constantValue?_elaborateModel (distinct : scope.Distinct)
    (values : Nat → Option ConstantValue) (file : FileId) (name : String) :
    (scope.elaborateModel values).constantValue? file name =
      (scope.constantIn? file name).bind values := by
  have found := value_of_valuedConstants values file name distinct 0
  simp only [Nat.zero_add] at found
  rw [Model.constantValue?, elaborateModel, constantIn?]
  exact found

/-- Where twins have the same values, a name has the same value in a mirror. -/
theorem Mirrors.constantValue?_eq {loose : Prop} (mirrors : Mirrors loose scope mirror)
    (distinct : scope.Distinct) (distinct' : mirror.Distinct)
    {values values' : Nat → Option ConstantValue}
    (same : ∀ index index', Twins loose scope mirror index index' → values' index' = values index)
    (file : FileId) (name : String) :
    (mirror.elaborateModel values').constantValue? file name =
      (scope.elaborateModel values).constantValue? file name := by
  rw [constantValue?_elaborateModel distinct values,
    constantValue?_elaborateModel distinct' values']
  have both := mirrors.constantIn? file name
  generalize scope.constantIn? file name = found, mirror.constantIn? file name = found' at both
  cases both with
  | none => rfl
  | some twins => exact same _ _ twins

/-- Twins end up with the same value where nothing may have failed. -/
theorem Mirrors.value?_settled (mirrors : Mirrors False scope mirror) (distinct : scope.Distinct)
    (distinct' : mirror.Distinct) (demands demands' : List Demand) {index index' : Nat}
    (twins : Twins False scope mirror index index') :
    (mirror.settled demands').value? index' = (scope.settled demands).value? index := by
  have correct := mirrors.correct not_false distinct distinct' twins
    (correct_settled scope demands index)
  exact (correct_settled mirror demands' index').unique correct

end ConstantScope

namespace FileTable

/--
The constants of some files are settled as plain recursion says, whatever is demanded first and in
whatever order they are written.
-/
structure SettlesConstants (files : FileTable) (order : List FileId) (warnDeprecated : Bool) :
    Prop where
  settles : ∀ demands, (files.constantScope order warnDeprecated).Settles demands
  /-- Linking meets the demands of all defaults and then checks all constants. -/
  checked : (files.checked order warnDeprecated).2 = (files.constantScope order warnDeprecated).settled
    (files.constantScope order warnDeprecated).modelDemands
  /-- All values of the model are those that any demands lead to. -/
  model : ∀ demands, (files.link order warnDeprecated).model =
    (files.constantScope order warnDeprecated).elaborateModel
      ((files.constantScope order warnDeprecated).settled demands).value?
  named : ∀ demands file name,
    (files.link order warnDeprecated).model.constantValue? file name =
      ((files.constantScope order warnDeprecated).constantIn? file name).bind
        ((files.constantScope order warnDeprecated).settled demands).value?
  reordered : ∀ files', files.Reordered files' → ∀ file name,
    (files'.link order warnDeprecated).model.constantValue? file name =
      (files.link order warnDeprecated).model.constantValue? file name

theorem model_link (files : FileTable) (order : List FileId) (warnDeprecated : Bool)
    (demands : List Demand) : (files.link order warnDeprecated).model =
      (files.constantScope order warnDeprecated).elaborateModel
        ((files.constantScope order warnDeprecated).settled demands).value? := by
  rw [link_eq]
  exact ConstantScope.checkModel_eq (files.constantScope order warnDeprecated) demands

/-- Linking settles constants as plain recursion does. -/
theorem settlesConstants (files : FileTable) (order : List FileId) (warnDeprecated : Bool) :
    files.SettlesConstants order warnDeprecated where
  settles := ConstantScope.settles (files.constantScope order warnDeprecated)
  checked := ConstantScope.state_checkModel (files.constantScope order warnDeprecated)
  model := files.model_link order warnDeprecated
  named demands file name := by
    rw [files.model_link order warnDeprecated demands]
    exact ConstantScope.constantValue?_elaborateModel
      (distinct_constantScope files order warnDeprecated) _ file name
  reordered files' reordered file name := by
    have mirrors := reordered.mirrors order warnDeprecated
    have distinct := distinct_constantScope files order warnDeprecated
    have distinct' := distinct_constantScope files' order warnDeprecated
    rw [files.model_link order warnDeprecated [], files'.model_link order warnDeprecated []]
    refine mirrors.constantValue?_eq distinct distinct' (fun index index' twins => ?_) file name
    exact mirrors.value?_settled distinct distinct' [] [] twins

/-- A constant that is used before it is written, and one that stands for itself. -/
def countTable (constants : List ConstantDecl → List ConstantDecl) : FileTable :=
  let location := .start "count.thrift"
  let constant (name : String) (value : Literal) : ConstantDecl :=
    ⟨.plain name location, .named location "i32" .empty, value⟩
  { files := [{
      path := "count.thrift"
      includes := []
      tree := { FileTree.empty "count.thrift" with
        constants := constants [constant "SIZE" (.identifier location "ONE"),
          constant "LOOP" (.identifier location "LOOP"), constant "ONE" (.integer location 1)] } }] }

theorem reordered_countTable : (countTable id).Reordered (countTable List.reverse) := by
  refine .cons ⟨rfl, rfl, rfl, rfl, rfl, rfl, fun name => ?_⟩ .nil
  by_cases size : name = "SIZE"
  · subst size
    rfl
  · by_cases loop : name = "LOOP"
    · subst loop
      rfl
    · have others : ∀ text, name ≠ text → (text == name) = false := fun text differs =>
        beq_eq_false_iff_ne.mpr fun same => differs same.symm
      simp [Header.plain, List.filter_cons, others _ size, others _ loop]

theorem settlesConstants_reverse :
    (((countTable List.reverse).link [⟨0⟩] true).model.constantValue? ⟨0⟩ "SIZE").bind
        (·.integer?) = some 1 ∧
      ((countTable List.reverse).link [⟨0⟩] true).model.constantValue? ⟨0⟩ "LOOP" = none := by
  have same := (settlesConstants (countTable id) [⟨0⟩] true).reordered (countTable List.reverse)
    reordered_countTable ⟨0⟩
  rw [same, same]
  constructor
  · cbv
  · cbv

end FileTable
end IdlSchema
