import IdlSchema.Proofs.Link.QualifiedIncludes
import IdlSchema.Proofs.Link.TypeNames
import IdlSchema.Proofs.Types.Operations

/-!
# What names stand for

A name in a file is a keyword, or it has a qualifier in front of its first point, or else it is one
that the file or a file that it includes declares.  What it stands for is told here in terms of the
files and the declarations alone; looking the name up finds just that, and fails as ambiguous just
where two included files are in question.
-/

namespace IdlSchema

/-! ## Declarations -/

namespace TypeGraph

variable {graph : TypeGraph} {file : FileId} {name : String} {id : TypeId}

/-- A type is declared under a name in a file. -/
def DeclaredAs (graph : TypeGraph) (file : FileId) (name : String) (id : TypeId) : Prop :=
  ∃ user ∈ graph.users, user.key = (file, name) ∧ user.id = id

/-- A file declares a type under a name. -/
def HasName (graph : TypeGraph) (file : FileId) (name : String) : Prop :=
  ∃ id, graph.DeclaredAs file name id

theorem lookup_eq_some_iff (nodup : (graph.users.map UserType.key).Nodup) :
    graph.lookup file name = some id ↔ graph.DeclaredAs file name id := by
  constructor
  · intro found
    obtain ⟨user, listed, same, in_file, named⟩ := mem_users_of_lookup found
    exact ⟨user, listed, Prod.ext in_file named, same⟩
  · rintro ⟨user, listed, key, rfl⟩
    cases found : graph.lookup file name with
    | none =>
        exact absurd (List.mem_map.mpr ⟨user, listed, key⟩) (lookup_eq_none_iff.mp found)
    | some other =>
        obtain ⟨user', listed', same, in_file, named⟩ := mem_users_of_lookup found
        have key' : user'.key = user.key := (Prod.ext in_file named).trans key.symm
        rw [← same, List.inj_on_of_nodup_map nodup listed' listed key']

theorem lookup_eq_none_iff_not_hasName (nodup : (graph.users.map UserType.key).Nodup) :
    graph.lookup file name = none ↔ ¬ graph.HasName file name := by
  simp only [Option.eq_none_iff_forall_ne_some, ne_eq, lookup_eq_some_iff nodup, HasName, not_exists]

/-- In a graph that is built, no two types have the same name in the same file. -/
theorem Built.nodup_keys (built : graph.Built) : (graph.users.map UserType.key).Nodup := by
  induction built with
  | initial => exact List.nodup_nil
  | @intern graph shape _ parameters declared induction =>
      rcases intern_cases graph shape with ⟨id, same, _⟩ | ⟨_, same⟩ <;> rwa [same]
  | @declare graph name kind location deprecated built induction =>
      rcases declare_cases built.wellFormed name kind location deprecated with
        ⟨_, _, same⟩ | ⟨unused, same⟩
      · rwa [same]
      · rw [same, List.map_append, List.map_singleton]
        exact induction.append (List.nodup_singleton _)
          (List.disjoint_singleton.mpr (lookup_eq_none_iff.mp unused))
  | @setTarget graph typedef target _ _ induction =>
      have kept : (graph.setTarget typedef target).users.map UserType.key =
          graph.users.map UserType.key := map_users_modifyUser graph typedef fun _ => rfl
      exact kept ▸ induction
  | @markResolved graph id _ induction =>
      have kept : (graph.markResolved id).users.map UserType.key =
          graph.users.map UserType.key := map_users_modifyUser graph id fun _ => rfl
      exact kept ▸ induction

end TypeGraph

namespace Scope

/-! ## Included files -/

/-- A file is the only one of a sort among those that a file includes. -/
structure Sole (scope : Scope) (file : FileId) (sort : FileId → Prop) (included : FileId) :
    Prop where
  listed : included ∈ scope.files.includes file
  fits : sort included
  only : ∀ other ∈ scope.files.includes file, sort other → other = included

/-- A file includes two different files of a sort. -/
def Several (scope : Scope) (file : FileId) (sort : FileId → Prop) : Prop :=
  ∃ a ∈ scope.files.includes file, ∃ b ∈ scope.files.includes file, a ≠ b ∧ sort a ∧ sort b

/--
What a name in a file stands for.  A keyword is a built-in type.  A name with a point belongs to the
one included file with the qualifier in front of its first point.  Any other name belongs to the file
itself if that declares it, and else to the one included file that does.
-/
inductive StandsFor (scope : Scope) (file : FileId) : String → TypeExpression TypeId → Prop where
  | keyword (builtin : Builtin) : StandsFor scope file builtin.keyword (.builtin builtin)
  | qualified {qualifier rest : String} {included : FileId} {id : TypeId} :
      '.' ∉ qualifier.toList →
      scope.Sole file (fun other => scope.files.qualifier other = qualifier) included →
      scope.graph.DeclaredAs included rest id →
      StandsFor scope file (qualifier ++ "." ++ rest) (.user id)
  | own {name : String} {id : TypeId} :
      '.' ∉ name.toList → (∀ builtin : Builtin, name ≠ builtin.keyword) →
      scope.graph.DeclaredAs file name id → StandsFor scope file name (.user id)
  | included {name : String} {included : FileId} {id : TypeId} :
      '.' ∉ name.toList → (∀ builtin : Builtin, name ≠ builtin.keyword) →
      ¬ scope.graph.HasName file name →
      scope.Sole file (scope.graph.HasName · name) included →
      scope.graph.DeclaredAs included name id → StandsFor scope file name (.user id)

/--
A name in a file belongs to two included files: both have its qualifier, or it has none, is declared
in both of them, and not in the file itself.
-/
inductive Ambiguous (scope : Scope) (file : FileId) : String → Prop where
  | qualified {qualifier rest : String} :
      '.' ∉ qualifier.toList →
      scope.Several file (fun other => scope.files.qualifier other = qualifier) →
      Ambiguous scope file (qualifier ++ "." ++ rest)
  | included {name : String} :
      '.' ∉ name.toList → (∀ builtin : Builtin, name ≠ builtin.keyword) →
      ¬ scope.graph.HasName file name →
      scope.Several file (scope.graph.HasName · name) → Ambiguous scope file name

end Scope

/-- Two files are in question for a name that fails. -/
def NameFailure.Shared : NameFailure → Prop
  | .sharedQualifier _ _ => True
  | .declaredTwice _ => True
  | _ => False

theorem Builtin.ofKeyword?_eq_none_iff {name : String} :
    Builtin.ofKeyword? name = none ↔ ∀ builtin : Builtin, name ≠ builtin.keyword := by
  constructor
  · rintro absent builtin rfl
    rw [Builtin.ofKeyword?_keyword] at absent
    cases absent
  · intro apart
    exact List.find?_eq_none.mpr fun builtin _ same => apart builtin (eq_of_beq same).symm

namespace Scope

/-! ## Looking names up -/

variable {scope : Scope} {file included : FileId} {qualifier rest name : String} {id : TypeId}

section

variable {sort : FileId → Prop} {list : List FileId} (nodup : list.Nodup)
  (listed : ∀ other, other ∈ list ↔ other ∈ scope.files.includes file ∧ sort other)

include nodup listed

theorem sole_iff : scope.Sole file sort included ↔ list = [included] := by
  constructor
  · intro sole
    have member := (listed included).mpr ⟨sole.listed, sole.fits⟩
    refine List.perm_singleton.mp ((List.perm_ext_iff_of_nodup nodup
      (List.nodup_singleton included)).mpr fun other => ?_)
    rw [List.mem_singleton]
    refine ⟨fun other_mem => ?_, fun same => same ▸ member⟩
    obtain ⟨other_listed, fits⟩ := (listed other).mp other_mem
    exact sole.only other other_listed fits
  · rintro rfl
    obtain ⟨member, fits⟩ := (listed included).mp List.mem_cons_self
    exact ⟨member, fits, fun other other_listed fits =>
      List.mem_singleton.mp ((listed other).mpr ⟨other_listed, fits⟩)⟩

theorem several_iff : scope.Several file sort ↔ ∃ a b others, list = a :: b :: others := by
  constructor
  · rintro ⟨a, a_listed, b, b_listed, apart, a_fits, b_fits⟩
    have a_mem := (listed a).mpr ⟨a_listed, a_fits⟩
    have b_mem := (listed b).mpr ⟨b_listed, b_fits⟩
    match list, a_mem, b_mem with
    | [_], a_mem, b_mem =>
        exact absurd ((List.mem_singleton.mp a_mem).trans (List.mem_singleton.mp b_mem).symm) apart
    | first :: second :: others, _, _ => exact ⟨first, second, others, rfl⟩
  · rintro ⟨a, b, others, rfl⟩
    obtain ⟨a_listed, a_fits⟩ := (listed a).mp List.mem_cons_self
    obtain ⟨b_listed, b_fits⟩ := (listed b).mp (List.mem_cons_of_mem _ List.mem_cons_self)
    refine ⟨a, a_listed, b, b_listed, ?_, a_fits, b_fits⟩
    rintro rfl
    exact (List.nodup_cons.mp nodup).1 List.mem_cons_self

end

/-- A name is a keyword, or it has a qualifier, or neither. -/
theorem name_cases (name : String) :
    (∃ builtin : Builtin, builtin.keyword = name) ∨
    (∃ qualifier rest : String, '.' ∉ qualifier.toList ∧ qualifier ++ "." ++ rest = name) ∨
    ('.' ∉ name.toList ∧ ∀ builtin : Builtin, name ≠ builtin.keyword) := by
  cases split : Text.splitFirst? name with
  | some parts =>
      obtain ⟨plain, same⟩ := Text.splitFirst?_eq_some_iff.mp split
      exact .inr (.inl ⟨parts.1, parts.2, plain, same.symm⟩)
  | none =>
      by_cases keyword : ∃ builtin : Builtin, builtin.keyword = name
      · exact .inl keyword
      · exact .inr (.inr ⟨Text.splitFirst?_eq_none_iff.mp split,
          fun builtin same => keyword ⟨builtin, same.symm⟩⟩)

theorem resolveName_qualified (plain : '.' ∉ qualifier.toList) :
    scope.resolveName file (qualifier ++ "." ++ rest) =
      (scope.resolveQualified file qualifier rest).map .user := by
  rw [resolveName, Builtin.ofKeyword?_qualified, resolveDeclared, Text.splitFirst?_append rest plain]

theorem resolveName_unqualified (plain : '.' ∉ name.toList)
    (no_keyword : ∀ builtin : Builtin, name ≠ builtin.keyword) :
    scope.resolveName file name = (scope.resolveUnqualified file name).map .user := by
  rw [resolveName, Builtin.ofKeyword?_eq_none_iff.mpr no_keyword, resolveDeclared,
    Text.splitFirst?_eq_none_iff.mpr plain]

theorem exists_of_map_eq_ok {ε α β : Type} {result : Except ε α} {f : α → β} {b : β}
    (same : result.map f = .ok b) : ∃ a, result = .ok a ∧ f a = b := by
  cases result with
  | error cause => cases same
  | ok a => exact ⟨a, rfl, Except.ok.inj same⟩

theorem map_eq_error_iff {ε α β : Type} {result : Except ε α} {f : α → β} {cause : ε} :
    result.map f = .error cause ↔ result = .error cause := by
  cases result <;> simp [Except.map]

/-- The included files of a file that declare a type under a name. -/
def declaring (scope : Scope) (file : FileId) (name : String) : List FileId :=
  (scope.files.includes file).filter fun other => (scope.graph.lookup other name).isSome

theorem exists_lookup_of_mem_declaring (member : included ∈ scope.declaring file name) :
    ∃ id, scope.graph.lookup included name = some id :=
  Option.isSome_iff_exists.mp (List.mem_filter.mp member).2

theorem resolveUnqualified_of_none (own : scope.graph.lookup file name = none) :
    scope.resolveUnqualified file name =
      match (scope.declaring file name).filterMap (scope.graph.lookup · name) with
      | [] => .error .unknown
      | [id] => .ok id
      | types => .error (.declaredTwice types) := by
  have candidates : (scope.files.includes file).filterMap (scope.graph.lookup · name) =
      (scope.declaring file name).filterMap (scope.graph.lookup · name) := by
    rw [declaring, List.filterMap_filter]
    refine List.filterMap_congr fun other _ => ?_
    cases scope.graph.lookup other name <;> rfl
  rw [resolveUnqualified, own]
  exact candidates ▸ rfl

/-- What a name that its own file does not declare stands for depends on who else declares it. -/
theorem resolveUnqualified_cases (own : scope.graph.lookup file name = none) :
    (scope.declaring file name = [] ∧ scope.resolveUnqualified file name = .error .unknown) ∨
      (∃ only id, scope.declaring file name = [only] ∧ scope.graph.lookup only name = some id ∧
        scope.resolveUnqualified file name = .ok id) ∨
      ∃ first second others types, scope.declaring file name = first :: second :: others ∧
        scope.resolveUnqualified file name = .error (.declaredTwice types) := by
  rw [resolveUnqualified_of_none own]
  have found := fun other => @exists_lookup_of_mem_declaring scope file other name
  generalize scope.declaring file name = declaring at found
  rcases declaring with _ | ⟨first, _ | ⟨second, others⟩⟩
  · exact .inl ⟨rfl, rfl⟩
  · obtain ⟨id, at_first⟩ := found first List.mem_cons_self
    exact .inr (.inl ⟨first, id, rfl, at_first, by simp [at_first]⟩)
  · obtain ⟨id, at_first⟩ := found first List.mem_cons_self
    obtain ⟨id', at_second⟩ := found second (List.mem_cons_of_mem _ List.mem_cons_self)
    exact .inr (.inr ⟨first, second, others,
      id :: id' :: others.filterMap (scope.graph.lookup · name), rfl, by simp [at_first, at_second]⟩)

theorem mem_includesQualified : included ∈ scope.includesQualified file qualifier ↔
    included ∈ scope.files.includes file ∧ scope.files.qualifier included = qualifier := by
  rw [includesQualified, List.mem_filter, beq_iff_eq]

section

variable (built : scope.graph.Built) (distinct : (scope.files.includes file).Nodup)

include built distinct

theorem resolveQualified_eq_ok_iff : scope.resolveQualified file qualifier rest = .ok id ↔
    ∃ included, scope.Sole file (fun other => scope.files.qualifier other = qualifier) included ∧
      scope.graph.DeclaredAs included rest id := by
  simp only [sole_iff (distinct.filter _) fun _ => mem_includesQualified,
    ← TypeGraph.lookup_eq_some_iff built.nodup_keys, resolveQualified, includesQualified]
  rcases (scope.files.includes file).filter (scope.files.qualifier · == qualifier) with
    _ | ⟨only, _ | ⟨second, others⟩⟩
  · simp
  · simp only [List.cons.injEq, and_true, exists_eq_left']
    cases scope.graph.lookup only rest <;> simp
  · simp

omit built in
theorem shared_resolveQualified_iff :
    (∃ cause, scope.resolveQualified file qualifier rest = .error cause ∧ cause.Shared) ↔
      scope.Several file fun other => scope.files.qualifier other = qualifier := by
  simp only [several_iff (distinct.filter _) fun _ => mem_includesQualified, resolveQualified,
    includesQualified]
  rcases (scope.files.includes file).filter (scope.files.qualifier · == qualifier) with
    _ | ⟨only, _ | ⟨second, others⟩⟩
  · simp [NameFailure.Shared]
  · dsimp only
    cases scope.graph.lookup only rest <;> simp [NameFailure.Shared]
  · simp [NameFailure.Shared]

omit distinct in
theorem mem_declaring : included ∈ scope.declaring file name ↔
    included ∈ scope.files.includes file ∧ scope.graph.HasName included name := by
  rw [declaring, List.mem_filter, ← Option.ne_none_iff_isSome, ne_eq,
    TypeGraph.lookup_eq_none_iff_not_hasName built.nodup_keys, not_not]

theorem resolveUnqualified_eq_ok_iff : scope.resolveUnqualified file name = .ok id ↔
    scope.graph.DeclaredAs file name id ∨
      ¬ scope.graph.HasName file name ∧ ∃ included,
        scope.Sole file (scope.graph.HasName · name) included ∧
          scope.graph.DeclaredAs included name id := by
  have apart : (scope.declaring file name).Nodup := distinct.filter _
  simp only [sole_iff apart fun _ => mem_declaring built,
    ← TypeGraph.lookup_eq_some_iff built.nodup_keys,
    ← TypeGraph.lookup_eq_none_iff_not_hasName built.nodup_keys]
  cases own : scope.graph.lookup file name with
  | some other => simp [resolveUnqualified, own]
  | none =>
      rcases resolveUnqualified_cases own with ⟨declaring, resolved⟩ |
        ⟨only, other, declaring, found, resolved⟩ |
        ⟨first, second, others, types, declaring, resolved⟩
      · simp [declaring, resolved]
      · simp [declaring, resolved, found]
      · simp [declaring, resolved]

theorem shared_resolveUnqualified_iff :
    (∃ cause, scope.resolveUnqualified file name = .error cause ∧ cause.Shared) ↔
      ¬ scope.graph.HasName file name ∧ scope.Several file (scope.graph.HasName · name) := by
  have apart : (scope.declaring file name).Nodup := distinct.filter _
  simp only [several_iff apart fun _ => mem_declaring built,
    ← TypeGraph.lookup_eq_none_iff_not_hasName built.nodup_keys]
  cases own : scope.graph.lookup file name with
  | some other => simp [resolveUnqualified, own]
  | none =>
      rcases resolveUnqualified_cases own with ⟨declaring, resolved⟩ |
        ⟨only, other, declaring, found, resolved⟩ |
        ⟨first, second, others, types, declaring, resolved⟩
      · simp [declaring, resolved, NameFailure.Shared]
      · simp [declaring, resolved]
      · simp [declaring, resolved, NameFailure.Shared]

/-- Looking a name up finds what it stands for. -/
theorem standsFor_iff {expression : TypeExpression TypeId} :
    scope.StandsFor file name expression ↔ scope.resolveName file name = .ok expression := by
  constructor
  · intro stands
    cases stands with
    | keyword builtin => rw [resolveName, Builtin.ofKeyword?_keyword]
    | qualified plain sole declared =>
        rw [resolveName_qualified plain,
          (resolveQualified_eq_ok_iff built distinct).mpr ⟨_, sole, declared⟩]
        rfl
    | own plain no_keyword declared =>
        rw [resolveName_unqualified plain no_keyword,
          (resolveUnqualified_eq_ok_iff built distinct).mpr (.inl declared)]
        rfl
    | included plain no_keyword not_own sole declared =>
        rw [resolveName_unqualified plain no_keyword,
          (resolveUnqualified_eq_ok_iff built distinct).mpr (.inr ⟨not_own, _, sole, declared⟩)]
        rfl
  · intro resolved
    rcases name_cases name with ⟨builtin, rfl⟩ | ⟨qualifier, rest, plain, rfl⟩ | ⟨plain, no_keyword⟩
    · rw [resolveName, Builtin.ofKeyword?_keyword] at resolved
      cases resolved
      exact .keyword builtin
    · rw [resolveName_qualified plain] at resolved
      obtain ⟨id, found, rfl⟩ := exists_of_map_eq_ok resolved
      obtain ⟨included, sole, declared⟩ := (resolveQualified_eq_ok_iff built distinct).mp found
      exact .qualified plain sole declared
    · rw [resolveName_unqualified plain no_keyword] at resolved
      obtain ⟨id, found, rfl⟩ := exists_of_map_eq_ok resolved
      rcases (resolveUnqualified_eq_ok_iff built distinct).mp found with
        declared | ⟨not_own, included, sole, declared⟩
      · exact .own plain no_keyword declared
      · exact .included plain no_keyword not_own sole declared

/-- Looking a name up fails for two files in question just if it is ambiguous. -/
theorem ambiguous_iff : scope.Ambiguous file name ↔
    ∃ cause, scope.resolveName file name = .error cause ∧ cause.Shared := by
  constructor
  · intro ambiguous
    cases ambiguous with
    | qualified plain several =>
        obtain ⟨cause, failed, shared⟩ := (shared_resolveQualified_iff distinct).mpr several
        exact ⟨cause, by rw [resolveName_qualified plain, failed]; rfl, shared⟩
    | included plain no_keyword not_own several =>
        obtain ⟨cause, failed, shared⟩ :=
          (shared_resolveUnqualified_iff built distinct).mpr ⟨not_own, several⟩
        exact ⟨cause, by rw [resolveName_unqualified plain no_keyword, failed]; rfl, shared⟩
  · rintro ⟨cause, failed, shared⟩
    rcases name_cases name with ⟨builtin, rfl⟩ | ⟨qualifier, rest, plain, rfl⟩ | ⟨plain, no_keyword⟩
    · rw [resolveName, Builtin.ofKeyword?_keyword] at failed
      cases failed
    · rw [resolveName_qualified plain, map_eq_error_iff] at failed
      exact .qualified plain ((shared_resolveQualified_iff distinct).mp ⟨cause, failed, shared⟩)
    · rw [resolveName_unqualified plain no_keyword, map_eq_error_iff] at failed
      obtain ⟨not_own, several⟩ :=
        (shared_resolveUnqualified_iff built distinct).mp ⟨cause, failed, shared⟩
      exact .included plain no_keyword not_own several

end

end Scope
end IdlSchema
