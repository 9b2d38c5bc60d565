import IdlSchema.Proofs.Files.RootOrder
import IdlSchema.Proofs.Link.Linked
import IdlSchema.Proofs.TextParts

/-!
# Names behind the qualifier of an include

A file is qualified by its canonical path, whatever the directive that includes it says.  So the
qualifier that a directive writes leads to the file that it was found to mean only where the
canonical path has the same qualifier, and no other included file does.
-/

namespace IdlSchema

/-! ## Qualifiers -/

theorem point_not_mem_fileQualifier (path : String) : '.' ∉ (fileQualifier path).toList := by
  intro member
  rw [fileQualifier, String.toList_ofList] at member
  have plain := List.all_eq_true.mp List.all_takeWhile _ member
  simp at plain

theorem Builtin.ofKeyword?_qualified (qualifier name : String) :
    Builtin.ofKeyword? (qualifier ++ "." ++ name) = none := by
  refine List.find?_eq_none.mpr fun builtin _ same => ?_
  have point : '.' ∈ builtin.keyword.toList := by
    rw [beq_iff_eq.mp same]
    simp
  cases builtin <;> revert point <;> decide

/-- A type is declared in one file. -/
theorem TypeGraph.WellFormed.file_eq_of_lookup {graph : TypeGraph} (wellFormed : graph.WellFormed)
    {file file' : FileId} {name name' : String} {id : TypeId}
    (found : graph.lookup file name = some id) (found' : graph.lookup file' name' = some id) :
    file = file' := by
  obtain ⟨user, listed, same, rfl, _⟩ := mem_users_of_lookup found
  obtain ⟨user', listed', same', rfl, _⟩ := mem_users_of_lookup found'
  rw [List.inj_on_of_nodup_map wellFormed.nodup_ids listed listed' (same.trans same'.symm)]

namespace Scope

variable {scope : Scope} {file target : FileId} {qualifier name : String} {id : TypeId}

/--
Behind a qualifier the name of a type of an included file stands for that type just if the file is
the only included one with the qualifier.
-/
theorem denote_qualified_iff (wellFormed : scope.graph.WellFormed)
    (plain : '.' ∉ qualifier.toList) (declared : scope.graph.lookup target name = some id)
    (nodup : (scope.files.includes file).Nodup) (location : Location) (annotations : Annotations) :
    scope.denote file (.named location (qualifier ++ "." ++ name) annotations) = .user id ↔
      target ∈ scope.files.includes file ∧ scope.files.qualifier target = qualifier ∧
        ∀ other ∈ scope.files.includes file,
          scope.files.qualifier other = qualifier → other = target := by
  have among (other : FileId) : other ∈ scope.includesQualified file qualifier ↔
      other ∈ scope.files.includes file ∧ scope.files.qualifier other = qualifier := by
    rw [includesQualified, List.mem_filter, beq_iff_eq]
  have apart : (scope.includesQualified file qualifier).Nodup := nodup.filter _
  simp only [denote, resolveName, Builtin.ofKeyword?_qualified, resolveDeclared,
    Text.splitFirst?_append name plain, resolveQualified]
  generalize scope.includesQualified file qualifier = qualified at among apart
  constructor
  · intro denotes
    cases qualified with
    | nil => simp [Except.map] at denotes
    | cons included others =>
        cases others with
        | cons _ _ => simp [Except.map] at denotes
        | nil =>
            have same : scope.graph.lookup included name = some id := by
              cases found : scope.graph.lookup included name with
              | none => simp [found, Except.map] at denotes
              | some other =>
                  simp only [found, Except.map, TypeExpression.user.injEq] at denotes
                  rw [denotes]
            obtain rfl : included = target := wellFormed.file_eq_of_lookup same declared
            have mine := (among included).mp List.mem_cons_self
            exact ⟨mine.1, mine.2, fun other listed its =>
              List.mem_singleton.mp ((among other).mpr ⟨listed, its⟩)⟩
  · rintro ⟨listed, its, only⟩
    have single : qualified = [target] := by
      refine List.perm_singleton.mp ((List.perm_ext_iff_of_nodup apart
        (List.nodup_singleton target)).mpr fun other => ?_)
      rw [among, List.mem_singleton]
      refine ⟨fun both => only other both.1 both.2, ?_⟩
      rintro rfl
      exact ⟨listed, its⟩
    simp [single, declared, Except.map]

end Scope
/-- A name behind a qualifier stands for a declared type in a file. -/
def Scope.Refers (scope : Scope) (file : FileId) (qualifier name : String) (id : TypeId) : Prop :=
  ∀ location annotations,
    scope.denote file (.named location (qualifier ++ "." ++ name) annotations) = .user id

namespace LoadState

variable {find : Finder} {limit : Nat} {roots : List FileTree} {file target : FileId}
  {directive : IncludeDecl}

/-- The file that a directive was found to mean. -/
def target? (state : LoadState) (file : FileId) (directive : IncludeDecl) : Option FileId :=
  (state.answers.lookup (file, directive.path)).join

/-- The scope in which the types of the loaded files are linked. -/
def scope (state : LoadState) (warnDeprecated : Bool) : Scope :=
  state.files.typeScope state.files.dependencyOrder warnDeprecated

/-- Of the files that the directives of a file mean, one alone has a qualifier. -/
def Singles (state : LoadState) (file : FileId) (qualifier : String) (target : FileId) : Prop :=
  state.files.qualifier target = qualifier ∧
    ∀ other ∈ state.files.directives file, ∀ target', state.target? file other = some target' →
      state.files.qualifier target' = qualifier → target' = target

/--
Which qualifiers lead to the types of a file that a directive means: just those that single it out by
its canonical path.  What the directive writes does so where canonical paths keep the qualifiers of
directives and no directive for anything else has the same one.
-/
structure Qualifies (state : LoadState) (scope : Scope) (file : FileId) (directive : IncludeDecl)
    (target : FileId) : Prop where
  canonical : ∀ qualifier, '.' ∉ qualifier.toList → ∀ name id,
    scope.graph.lookup target name = some id →
      (scope.Refers file qualifier name id ↔ state.Singles file qualifier target)
  written : ∀ name id, scope.graph.lookup target name = some id →
    (scope.Refers file directive.qualifier name id ↔
      state.Singles file directive.qualifier target)
  kept :
    (∀ other ∈ state.files.directives file, ∀ target', state.target? file other = some target' →
      state.files.qualifier target' = other.qualifier) →
    (∀ other ∈ state.files.directives file, other.qualifier = directive.qualifier →
      other.path = directive.path) →
    ∀ name id, scope.graph.lookup target name = some id →
      scope.Refers file directive.qualifier name id

theorem mem_includes_ofRoots : target ∈ (ofRoots find limit roots).files.includes file ↔
    ∃ directive ∈ (ofRoots find limit roots).files.directives file,
      (ofRoots find limit roots).target? file directive = some target := by
  rw [ofRoots_eq, (IncludeWalk.notes_load find limit roots).mem_includes]
  constructor
  · rintro ⟨written, meant⟩
    have found := Option.join_eq_some_iff.mp meant
    obtain ⟨_, _, split, _⟩ := List.lookup_eq_some_iff.mp found
    have member : ((file, written), some target) ∈
        (IncludeWalk.load find limit roots).answers := by simp [split]
    obtain ⟨_, directive, mine, rfl⟩ :=
      (IncludeWalk.loads find limit roots).sound.answered file written _ member
    exact ⟨directive, mine, meant⟩
  · rintro ⟨directive, _, meant⟩
    exact ⟨directive.path, meant⟩

/-- A qualifier leads to the types of an included file just if it singles the file out. -/
theorem refers_iff_singles (warnDeprecated : Bool)
    (mine : directive ∈ (ofRoots find limit roots).files.directives file)
    (meant : (ofRoots find limit roots).target? file directive = some target)
    {qualifier : String} (plain : '.' ∉ qualifier.toList) {name : String} {id : TypeId}
    (declared : ((ofRoots find limit roots).scope warnDeprecated).graph.lookup target name =
      some id) :
    ((ofRoots find limit roots).scope warnDeprecated).Refers file qualifier name id ↔
      (ofRoots find limit roots).Singles file qualifier target := by
  have wellFormed : ((ofRoots find limit roots).scope warnDeprecated).graph.WellFormed :=
    FileTable.wellFormed_typeScope _ _ _
  have nodup : ((ofRoots find limit roots).files.includes file).Nodup := by
    rw [ofRoots_eq]
    exact (IncludeWalk.notes_load find limit roots).nodup file
  have denotes := Scope.denote_qualified_iff wellFormed plain declared nodup
  have included : target ∈ (ofRoots find limit roots).files.includes file :=
    mem_includes_ofRoots.mpr ⟨directive, mine, meant⟩
  constructor
  · intro refers
    obtain ⟨_, its, only⟩ := (denotes default .empty).mp (refers default .empty)
    refine ⟨its, fun other listed target' meant' same => ?_⟩
    exact only target' (mem_includes_ofRoots.mpr ⟨other, listed, meant'⟩) same
  · rintro ⟨its, only⟩ location annotations
    refine (denotes location annotations).mpr ⟨included, its, fun other listed same => ?_⟩
    obtain ⟨directive', mine', meant'⟩ := mem_includes_ofRoots.mp listed
    exact only directive' mine' other meant' same

/--
Whatever the resolver finds, the types of an included file are referred to by the qualifier of its
canonical path.
-/
theorem qualifies_ofRoots (find : Finder) (limit : Nat) (roots : List FileTree)
    (warnDeprecated : Bool) (file target : FileId) (directive : IncludeDecl)
    (mine : directive ∈ (ofRoots find limit roots).files.directives file)
    (meant : (ofRoots find limit roots).target? file directive = some target) :
    (ofRoots find limit roots).Qualifies ((ofRoots find limit roots).scope warnDeprecated) file
      directive target := by
  have plain := point_not_mem_fileQualifier directive.path
  constructor
  case canonical =>
    exact fun _ plain _ _ declared =>
      refers_iff_singles warnDeprecated mine meant plain declared
  case written =>
    exact fun _ _ declared => refers_iff_singles warnDeprecated mine meant plain declared
  case kept =>
    intro keeps only name id declared
    refine (refers_iff_singles warnDeprecated mine meant plain declared).mpr
      ⟨keeps directive mine target meant, fun other listed target' meant' same => ?_⟩
    have path := only other listed ((keeps other listed target' meant').symm.trans same)
    rw [target?, path] at meant'
    exact Option.some.inj (meant'.symm.trans meant)

/-- A resolver that finds a file at another place, under another name. -/
def findRelocated : Finder := fun _ written =>
  if written = "b.thrift" then
    some {
      path := "lib/c.thrift"
      tree := { Loaded.including "lib/c.thrift" [] with
        structs := [{
          header := .plain "N" (.start "lib/c.thrift"), kind := .struct, fields := [] }] } }
  else none

/-- A file is included as `b.thrift` and found as another one. -/
def relocated : LoadState :=
  ofRoots findRelocated 64 [Loaded.including "a.thrift" ["b.thrift"]]

theorem qualifies_relocated :
    ∃ directive ∈ relocated.files.directives ⟨0⟩, relocated.target? ⟨0⟩ directive = some ⟨1⟩ ∧
      relocated.Qualifies (relocated.scope true) ⟨0⟩ directive ⟨1⟩ := by
  refine ⟨{ location := .start "a.thrift", path := "b.thrift" }, List.mem_cons_self,
    by decide +kernel, ?_⟩
  exact qualifies_ofRoots findRelocated 64 [Loaded.including "a.thrift" ["b.thrift"]] true ⟨0⟩ ⟨1⟩ _
    List.mem_cons_self (by decide +kernel)

/--
The qualifier that a directive writes leads to the types of the file that it means, if no other
directive of its file has the same one.
-/
def QualifiesAsWritten (state : LoadState) (scope : Scope) : Prop :=
  ∀ file, ∀ directive ∈ state.files.directives file, ∀ target,
    state.target? file directive = some target →
      (state.files.directives file).countP (·.qualifier == directive.qualifier) = 1 →
        ∀ name id, scope.graph.lookup target name = some id →
          scope.Refers file directive.qualifier name id

/-- The only include of a file is written as `b.thrift`, but its types are referred to as `c.N`. -/
theorem not_qualifiesAsWritten_relocated :
    ¬ relocated.QualifiesAsWritten (relocated.scope true) := by
  intro qualifies
  have refers := qualifies ⟨0⟩ { location := .start "a.thrift", path := "b.thrift" }
    List.mem_cons_self ⟨1⟩ (by decide +kernel) (by decide +kernel) "N" ⟨11⟩ (by decide +kernel)
  have fails : (relocated.scope true).denote ⟨0⟩ (.named (.start "a.thrift") "b.N" .empty) =
      .invalid := by
    decide +kernel
  cases (refers (.start "a.thrift") .empty).symm.trans fails

end LoadState
end IdlSchema
