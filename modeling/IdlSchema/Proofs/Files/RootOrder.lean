import IdlSchema.Proofs.Files.FoundFiles
import IdlSchema.Proofs.Files.IncludeDepth

/-!
# The order of the roots

Roots may be given in any order: the same files are loaded, and an include means the same file,
with one exception.  Where the resolver finds nothing, an include is taken as the path of a file that
is loaded already.  A root always is, but whether another file is depends on the order.
-/

namespace IdlSchema

/-- The table has a file with some path and contents. -/
def FileTable.Contains (table : FileTable) (path : String) (tree : FileTree) : Prop :=
  ∃ file ∈ table.files, file.path = path ∧ file.tree = tree

/--
The resolver finds nothing for an include that is written as the path of a file other than a root.
-/
def Finder.Incidental (find : Finder) (roots : List FileTree) (files : FileTable)
    (includer written : String) : Prop :=
  find includer written = none ∧ written ∈ files.paths ∧ written ∉ roots.map (·.path)

namespace LoadState

variable {find : Finder} {limit : Nat} {roots roots' : List FileTree} {state state' : LoadState}

/-- What is known in the end of some roots and what they include, with a resolver of a function. -/
def ofRoots (find : Finder) (limit : Nat) (roots : List FileTree) : LoadState :=
  (((Loading.load (IncludeWalk.recording find) limit roots).run .initial).run []).1.2

theorem ofRoots_eq (find : Finder) (limit : Nat) (roots : List FileTree) :
    ofRoots find limit roots = (IncludeWalk.load find limit roots).toLoadState := by
  have carried := IncludeWalk.carry_load find limit roots
  exact congrArg (fun result => result.2.toLoadState) carried

/-- The path of the file that an include was found to mean. -/
def meaning? (state : LoadState) (includer written : String) : Option String :=
  (state.files.lookup includer).bind fun id =>
    (state.answers.lookup (id, written)).join.map state.files.path

/-- Every include without a meaning is reported once, at the first directive that writes it. -/
def Tells (state : LoadState) : Prop :=
  state.reported.filter (·.kind = .unresolvedInclude) =
    state.unresolved.map fun (_, directive) => IncludeWalk.missing directive

/-- How a load ends, told without an order in which includes are followed. -/
structure Ends (find : Finder) (roots : List FileTree) (state : LoadState) : Prop where
  files : ∀ path tree, state.files.Contains path tree ↔ find.Finds roots path tree
  found : ∀ path tree, state.files.Contains path tree → ∀ directive ∈ tree.includes, ∀ found,
    find path directive.path = some found → state.meaning? path directive.path = some found.path
  missed : ∀ path tree, state.files.Contains path tree → ∀ directive ∈ tree.includes,
    find path directive.path = none →
      (state.meaning? path directive.path = some directive.path ∧
          directive.path ∈ state.files.paths) ∨
        (state.meaning? path directive.path = none ∧ directive.path ∉ roots.map (·.path))
  unresolved : ∀ path directive, (path, directive) ∈ state.unresolved ↔
    ∃ tree, state.files.Contains path tree ∧ state.meaning? path directive.path = none ∧
      tree.includes.find? (·.path == directive.path) = some directive
  tells : state.Tells

/--
Two loads have the same files, and apart from some excepted includes each include means the same
file in both or is reported in both, at the same directive.
-/
structure Agrees (excepted : String → String → Prop) (state state' : LoadState) : Prop where
  files : ∀ path tree, state.files.Contains path tree ↔ state'.files.Contains path tree
  meanings : ∀ path tree, state.files.Contains path tree → ∀ directive ∈ tree.includes,
    ¬ excepted path directive.path →
      state.meaning? path directive.path = state'.meaning? path directive.path
  unresolved : ∀ path directive, ¬ excepted path directive.path →
    ((path, directive) ∈ state.unresolved ↔ (path, directive) ∈ state'.unresolved)
  tells : state.Tells ∧ state'.Tells

theorem mem_paths_iff {table : FileTable} {path : String} :
    path ∈ table.paths ↔ ∃ tree, table.Contains path tree := by
  constructor
  · intro member
    obtain ⟨file, listed, same⟩ := List.mem_map.mp member
    exact ⟨file.tree, file, listed, same, rfl⟩
  · rintro ⟨_, file, listed, same, _⟩
    exact List.mem_map.mpr ⟨file, listed, same⟩

/-- Two loads that end as the roots say agree wherever nothing depends on what is loaded already. -/
theorem Ends.agrees (ends : Ends find roots state) (ends' : Ends find roots' state')
    (perm : roots.Perm roots') : state.Agrees (find.Incidental roots state.files) state' := by
  have files (path : String) (tree : FileTree) :
      state.files.Contains path tree ↔ state'.files.Contains path tree :=
    (ends.files path tree).trans
      (Iff.trans ⟨.perm perm, .perm perm.symm⟩ (ends'.files path tree).symm)
  have paths (path : String) : path ∈ state'.files.paths ↔ path ∈ state.files.paths := by
    rw [mem_paths_iff, mem_paths_iff]
    exact exists_congr fun tree => (files path tree).symm
  have meanings (path : String) (tree : FileTree) (contains : state.files.Contains path tree)
      (directive : IncludeDecl) (mine : directive ∈ tree.includes)
      (plain : ¬ find.Incidental roots state.files path directive.path) :
      state.meaning? path directive.path = state'.meaning? path directive.path := by
    have contains' := (files path tree).mp contains
    cases meant : find path directive.path with
    | some found =>
        rw [ends.found path tree contains directive mine found meant,
          ends'.found path tree contains' directive mine found meant]
    | none =>
        have rooted (known : directive.path ∈ state.files.paths) :
            directive.path ∈ roots.map (·.path) := by
          by_contra unrooted
          exact plain ⟨meant, known, unrooted⟩
        rcases ends.missed path tree contains directive mine meant with
          ⟨same, known⟩ | ⟨nothing, unrooted⟩
        · rcases ends'.missed path tree contains' directive mine meant with
            ⟨same', _⟩ | ⟨_, unrooted⟩
          · rw [same, same']
          · exact absurd ((perm.map _).mem_iff.mp (rooted known)) unrooted
        · rcases ends'.missed path tree contains' directive mine meant with
            ⟨_, known⟩ | ⟨nothing', _⟩
          · exact absurd (rooted ((paths _).mp known)) unrooted
          · rw [nothing, nothing']
  refine ⟨files, meanings, fun path directive plain => ?_, ends.tells, ends'.tells⟩
  rw [ends.unresolved, ends'.unresolved]
  refine exists_congr fun tree => ?_
  rw [← files path tree]
  refine and_congr_right fun contains => and_congr_left fun first => ?_
  rw [meanings path tree contains directive (List.mem_of_find?_eq_some first) plain]

end LoadState

namespace IncludeWalk

variable {find : Finder} {roots : List FileTree} {ids : List FileId} {walk : IncludeWalk}
  {path : String} {tree : FileTree} {directive : IncludeDecl}

/-- A file has a place, where its path and its directives are found. -/
theorem Sound.exists_place (sound : Sound find walk) (contains : walk.files.Contains path tree) :
    ∃ id : FileId, id.index < walk.files.size ∧ walk.files.lookup path = some id ∧
      walk.files.path id = path ∧ walk.files.directives id = tree.includes := by
  obtain ⟨file, listed, rfl, rfl⟩ := contains
  obtain ⟨index, found⟩ := List.mem_iff_getElem?.mp listed
  have get : walk.files.get? ⟨index⟩ = some file := found
  have inside := FileTable.get?_eq_some_iff.mp ⟨file, get⟩
  have same : walk.files.path ⟨index⟩ = file.path := by
    rw [FileTable.path, get, Option.map_some, Option.getD_some]
  refine ⟨⟨index⟩, inside, ?_, same, ?_⟩
  · rw [← same]
    exact FileTable.lookup_path sound.paths inside
  · rw [FileTable.directives, get, Option.map_some, Option.getD_some]

theorem Sound.lookup_answers (sound : Sound find walk) {question : FileId × String}
    {answer : Option FileId} (member : (question, answer) ∈ walk.answers) :
    walk.answers.lookup question = some answer := by
  obtain ⟨before, after, split⟩ := List.append_of_mem member
  refine List.lookup_eq_some_iff.mpr ⟨before, after, split, fun earlier listed => ?_⟩
  have keys := sound.nodup
  rw [split, List.map_append, List.map_cons, List.nodup_append] at keys
  have apart := keys.2.2 earlier.1 (List.mem_map_of_mem listed) question List.mem_cons_self
  exact bne_iff_ne.mpr (Ne.symm apart)

/-- Every directive of a loaded file was answered, and its meaning is that answer. -/
theorem Loads.exists_answer (loads : Loads find roots ids walk) (within : walk.reported.WithinLimit)
    (contains : walk.files.Contains path tree) (mine : directive ∈ tree.includes) :
    ∃ id answer, walk.files.path id = path ∧ walk.files.directives id = tree.includes ∧
      ((id, directive.path), answer) ∈ walk.answers ∧
      walk.meaning? path directive.path = answer.map walk.files.path := by
  obtain ⟨id, inside, found, same, directives⟩ := loads.sound.exists_place contains
  have finished := loads.finished within id (loads.visited id inside)
  have answered := finished.answered directive (directives.symm ▸ mine)
  obtain ⟨answer, known⟩ := Option.isSome_iff_exists.mp answered
  obtain ⟨_, _, split, _⟩ := List.lookup_eq_some_iff.mp known
  refine ⟨id, answer, same, directives, by simp [split], ?_⟩
  rw [LoadState.meaning?, found, Option.bind_some, known, Option.join_some]

theorem Loads.meaning_found (loads : Loads find roots ids walk)
    (within : walk.reported.WithinLimit) (contains : walk.files.Contains path tree)
    (mine : directive ∈ tree.includes) {found : ResolvedInclude}
    (meant : find path directive.path = some found) :
    walk.meaning? path directive.path = some found.path ∧ found.path ∈ walk.files.paths := by
  obtain ⟨id, answer, same, _, member, meaning⟩ := loads.exists_answer within contains mine
  cases answer with
  | none =>
      have unfound := (loads.sound.missed id _ member).1
      rw [same, meant] at unfound
      cases unfound
  | some target =>
      obtain ⟨inside, path_eq⟩ := loads.sound.found id _ target member
      rw [same, Finder.meaning, meant] at path_eq
      refine ⟨by rw [meaning, Option.map_some, path_eq], ?_⟩
      obtain ⟨file, get⟩ := FileTable.get?_eq_some_iff.mpr inside
      rw [FileTable.path, get, Option.map_some, Option.getD_some] at path_eq
      exact List.mem_map.mpr ⟨file, List.mem_of_getElem? get, path_eq⟩

theorem Loads.meaning_missed (loads : Loads find roots ids walk)
    (sourced : Sourced find roots walk) (within : walk.reported.WithinLimit)
    (contains : walk.files.Contains path tree) (mine : directive ∈ tree.includes)
    (unfound : find path directive.path = none) :
    (walk.meaning? path directive.path = some directive.path ∧
        directive.path ∈ walk.files.paths) ∨
      (walk.meaning? path directive.path = none ∧ directive.path ∉ roots.map (·.path)) := by
  obtain ⟨id, answer, same, _, member, meaning⟩ := loads.exists_answer within contains mine
  cases answer with
  | none => exact .inr ⟨meaning, sourced.missed id _ member⟩
  | some target =>
      obtain ⟨inside, path_eq⟩ := loads.sound.found id _ target member
      rw [same, Finder.meaning, unfound] at path_eq
      refine .inl ⟨by rw [meaning, Option.map_some, path_eq], ?_⟩
      obtain ⟨file, get⟩ := FileTable.get?_eq_some_iff.mpr inside
      rw [FileTable.path, get, Option.map_some, Option.getD_some] at path_eq
      exact List.mem_map.mpr ⟨file, List.mem_of_getElem? get, path_eq⟩

/-- What is loaded is what can be found from the roots. -/
theorem Loads.contains_iff (loads : Loads find roots ids walk) (sourced : Sourced find roots walk)
    (within : walk.reported.WithinLimit) (consistent : find.Consistent)
    (apart : (roots.map (·.path)).Nodup) (path : String) (tree : FileTree) :
    walk.files.Contains path tree ↔ find.Finds roots path tree := by
  have finds {path : String} {tree : FileTree} (contains : walk.files.Contains path tree) :
      find.Finds roots path tree := by
    obtain ⟨file, listed, rfl, rfl⟩ := contains
    exact sourced.files file listed
  -- A path is taken just once, so it is enough to see that it is taken.
  have contains_of_path {path : String} {tree : FileTree} (known : path ∈ walk.files.paths)
      (found : find.Finds roots path tree) : walk.files.Contains path tree := by
    obtain ⟨tree', contains⟩ := LoadState.mem_paths_iff.mp known
    rw [found.unique consistent apart (finds contains)]
    exact contains
  refine ⟨finds, fun found => ?_⟩
  induction found with
  | root listed =>
      exact contains_of_path (sourced.rooted _ (List.mem_map_of_mem listed)) (.root listed)
  | included includer mine meant unrooted induction =>
      exact contains_of_path (loads.meaning_found within induction mine meant).2
        (.included includer mine meant unrooted)

/-- A directive counts as unresolved where its file writes it first and it has no meaning. -/
theorem Loads.mem_unresolved_iff (loads : Loads find roots ids walk)
    (within : walk.reported.WithinLimit) (path : String) (directive : IncludeDecl) :
    (path, directive) ∈ walk.unresolved ↔
      ∃ tree, walk.files.Contains path tree ∧ walk.meaning? path directive.path = none ∧
        tree.includes.find? (·.path == directive.path) = some directive := by
  have sound := loads.sound
  rw [LoadState.unresolved, List.mem_filterMap]
  constructor
  · rintro ⟨⟨⟨id, written⟩, answer⟩, member, held⟩
    rw [List.mem_reverse] at member
    dsimp only at held
    split at held
    · rename_i missed
      obtain ⟨other, first, pair⟩ := Option.map_eq_some_iff.mp held
      simp only [Prod.mk.injEq] at pair
      obtain ⟨rfl, rfl⟩ := pair
      obtain rfl : other.path = written := by simpa using List.find?_some first
      have inside := sound.visited id (sound.answered id _ answer member).1
      obtain ⟨file, get⟩ := FileTable.get?_eq_some_iff.mpr inside
      have tree : walk.files.directives id = file.tree.includes := by
        rw [FileTable.directives, get, Option.map_some, Option.getD_some]
      refine ⟨file.tree, ⟨file, List.mem_of_getElem? get, ?_, rfl⟩, ?_, tree ▸ first⟩
      · rw [FileTable.path, get, Option.map_some, Option.getD_some]
      · rw [LoadState.meaning?, FileTable.lookup_path sound.paths inside, Option.bind_some,
          sound.lookup_answers member, Option.join_some, Option.isNone_iff_eq_none.mp missed,
          Option.map_none]
    · cases held
  · rintro ⟨tree, contains, nothing, first⟩
    obtain ⟨id, answer, same, directives, member, meaning⟩ :=
      loads.exists_answer within contains (List.mem_of_find?_eq_some first)
    have missed : answer = none := Option.map_eq_none_iff.mp (meaning.symm.trans nothing)
    subst missed
    refine ⟨((id, directive.path), none), List.mem_reverse.mpr member, ?_⟩
    simp [directives, first, same]

theorem ends_load (limit : Nat) (consistent : find.Consistent)
    (apart : (roots.map (·.path)).Nodup) (within : (load find limit roots).reported.WithinLimit) :
    (load find limit roots).Ends find roots := by
  have loads := loads find limit roots
  have sourced := sourced_load find limit roots
  constructor
  case files => exact loads.contains_iff sourced within consistent apart
  case found =>
    exact fun _ _ contains _ mine _ meant => (loads.meaning_found within contains mine meant).1
  case missed =>
    exact fun _ _ contains _ mine unfound =>
      loads.meaning_missed sourced within contains mine unfound
  case unresolved => exact loads.mem_unresolved_iff within
  case tells => exact sourced.reported

end IncludeWalk

namespace LoadState

variable {find : Finder} {limit : Nat} {roots roots' : List FileTree}

/--
In another order of the roots the same files are loaded, and includes have the same meanings and
reports except where the resolver finds nothing and the path of a file that is no root is written.
-/
theorem agrees_ofRoots (consistent : find.Consistent) (apart : (roots.map (·.path)).Nodup)
    (perm : roots.Perm roots') (within : (ofRoots find limit roots).reported.WithinLimit)
    (within' : (ofRoots find limit roots').reported.WithinLimit) :
    (ofRoots find limit roots).Agrees
      (find.Incidental roots (ofRoots find limit roots).files) (ofRoots find limit roots') := by
  rw [ofRoots_eq] at within within' ⊢
  rw [ofRoots_eq]
  have apart' : (roots'.map (·.path)).Nodup := (perm.map _).nodup_iff.mp apart
  exact (IncludeWalk.ends_load limit consistent apart within).agrees
    (IncludeWalk.ends_load limit consistent apart' within') perm

/-- A resolver that finds a file for one includer only. -/
def findForOne : Finder := fun includer written =>
  if includer = "b.thrift" ∧ written = "c.thrift" then
    some { path := "c.thrift", tree := Loaded.including "c.thrift" [] }
  else none

/-- Two roots that write the same include. -/
def sharers : List FileTree :=
  [Loaded.including "b.thrift" ["c.thrift"], Loaded.including "a.thrift" ["c.thrift"]]

theorem consistent_findForOne : findForOne.Consistent := by
  intro includer written includer' written' found found' meant meant' _
  unfold findForOne at meant meant'
  split at meant
  · split at meant'
    · rw [← Option.some.inj meant, ← Option.some.inj meant']
    · cases meant'
  · cases meant

theorem agrees_ofRoots_sharers :
    findForOne.Consistent ∧ (sharers.map (·.path)).Nodup ∧ sharers.Perm sharers.reverse ∧
      (ofRoots findForOne 64 sharers).reported.WithinLimit ∧
      (ofRoots findForOne 64 sharers.reverse).reported.WithinLimit ∧
      (ofRoots findForOne 64 sharers).Agrees
        (findForOne.Incidental sharers (ofRoots findForOne 64 sharers).files)
        (ofRoots findForOne 64 sharers.reverse) := by
  have apart : (sharers.map (·.path)).Nodup := by decide +kernel
  have within : (ofRoots findForOne 64 sharers).reported.WithinLimit := by
    unfold Diagnostics.WithinLimit
    decide +kernel
  have within' : (ofRoots findForOne 64 sharers.reverse).reported.WithinLimit := by
    unfold Diagnostics.WithinLimit
    decide +kernel
  have perm := (List.reverse_perm sharers).symm
  exact ⟨consistent_findForOne, apart, perm, within, within',
    agrees_ofRoots consistent_findForOne apart perm within within'⟩

/-- The order of the roots makes no difference to any include. -/
def IgnoresRootOrder (find : Finder) : Prop :=
  ∀ (limit : Nat) (roots roots' : List FileTree), (roots.map (·.path)).Nodup → roots.Perm roots' →
    (ofRoots find limit roots).reported.WithinLimit →
    (ofRoots find limit roots').reported.WithinLimit →
      (ofRoots find limit roots).Agrees (fun _ _ => False) (ofRoots find limit roots')

/-- What one root finds, the other is given if it comes second and misses if it comes first. -/
theorem not_ignoresRootOrder_findForOne :
    findForOne.Consistent ∧ ¬ IgnoresRootOrder findForOne := by
  refine ⟨consistent_findForOne, fun ignores => ?_⟩
  have agrees := ignores 64 sharers sharers.reverse (by decide +kernel)
    (List.reverse_perm sharers).symm (by unfold Diagnostics.WithinLimit; decide +kernel)
    (by unfold Diagnostics.WithinLimit; decide +kernel)
  have contains : (ofRoots findForOne 64 sharers).files.Contains "a.thrift"
      (Loaded.including "a.thrift" ["c.thrift"]) := by
    refine ⟨{ path := "a.thrift", tree := Loaded.including "a.thrift" ["c.thrift"], includes := [⟨2⟩] },
      List.mem_of_getElem? (i := 1) rfl, rfl, rfl⟩
  have same := agrees.meanings _ _ contains _ List.mem_cons_self not_false
  have different : (ofRoots findForOne 64 sharers).meaning? "a.thrift" "c.thrift" ≠
      (ofRoots findForOne 64 sharers.reverse).meaning? "a.thrift" "c.thrift" := by
    decide +kernel
  exact different same

end LoadState
end IdlSchema
