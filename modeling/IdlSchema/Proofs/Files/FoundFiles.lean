import IdlSchema.Proofs.Files.IncludeClosure

/-!
# Where loaded files come from

A file is loaded because it is a root or because the resolver finds it for a directive of a loaded
file; roots come first, so nothing that is found takes the path of a root.  What is loaded can thus
be told without following the includes in any order.  A directive without a meaning is reported
where its file writes it first.
-/

namespace IdlSchema

namespace Finder

/-- The same contents are found wherever the same path is found. -/
def Consistent (find : Finder) : Prop :=
  ∀ {includer written includer' written' : String} {found found' : ResolvedInclude},
    find includer written = some found → find includer' written' = some found' →
      found.path = found'.path → found.tree = found'.tree

/-- A path with the contents of a root, or with contents that are found from there. -/
inductive Finds (find : Finder) (roots : List FileTree) : String → FileTree → Prop
  | root {root : FileTree} (listed : root ∈ roots) : find.Finds roots root.path root
  | included {path : String} {tree : FileTree} {directive : IncludeDecl} {found : ResolvedInclude}
      (includer : find.Finds roots path tree) (mine : directive ∈ tree.includes)
      (meant : find path directive.path = some found)
      (unrooted : found.path ∉ roots.map (·.path)) : find.Finds roots found.path found.tree

variable {find : Finder} {roots roots' : List FileTree} {path : String} {tree tree' : FileTree}

theorem Finds.cases (finds : find.Finds roots path tree) :
    (tree ∈ roots ∧ tree.path = path) ∨
      (path ∉ roots.map (·.path) ∧ ∃ includer written,
        find includer written = some { path, tree }) := by
  cases finds with
  | root listed => exact .inl ⟨listed, rfl⟩
  | included _ _ meant unrooted => exact .inr ⟨unrooted, _, _, meant⟩

theorem Finds.unique (consistent : find.Consistent) (apart : (roots.map (·.path)).Nodup)
    (finds : find.Finds roots path tree) (finds' : find.Finds roots path tree') :
    tree = tree' := by
  rcases finds.cases with ⟨listed, same⟩ | ⟨unrooted, _, _, meant⟩
  · rcases finds'.cases with ⟨listed', same'⟩ | ⟨unrooted, _⟩
    · exact List.inj_on_of_nodup_map apart listed listed' (same.trans same'.symm)
    · exact absurd (same ▸ List.mem_map_of_mem listed) unrooted
  · rcases finds'.cases with ⟨listed', same'⟩ | ⟨_, _, _, meant'⟩
    · exact absurd (same' ▸ List.mem_map_of_mem listed') unrooted
    · exact consistent meant meant' rfl

theorem Finds.perm (perm : roots.Perm roots') (finds : find.Finds roots path tree) :
    find.Finds roots' path tree := by
  induction finds with
  | root listed => exact .root (perm.mem_iff.mp listed)
  | included _ mine meant unrooted induction =>
      exact .included induction mine meant fun rooted =>
        unrooted ((perm.map _).mem_iff.mpr rooted)

end Finder

theorem FileTable.Grows.mem_paths {before after : FileTable} (grows : before.Grows after)
    {path : String} (member : path ∈ before.paths) : path ∈ after.paths := by
  obtain ⟨file, listed, rfl⟩ := List.mem_map.mp member
  obtain ⟨index, found⟩ := List.mem_iff_getElem?.mp listed
  obtain ⟨file', found', same, _⟩ := grows ⟨index⟩ file found
  exact List.mem_map.mpr ⟨file', List.mem_of_getElem? found', same⟩

namespace LoadState

/-- The directives that were found to mean nothing, each with the path of its file. -/
def unresolved (state : LoadState) : List (String × IncludeDecl) :=
  state.answers.reverse.filterMap fun ((id, written), answer) =>
    if answer.isNone then
      ((state.files.directives id).find? (·.path == written)).map (state.files.path id, ·)
    else none

end LoadState

namespace IncludeWalk

variable {find : Finder} {roots : List FileTree} {before walk after : IncludeWalk} {file : FileId}
  {directives more : List IncludeDecl} {directive : IncludeDecl}
  {onwards : FileId → IncludeWalk → IncludeWalk}

/-! ## What lasts -/

/-- A directive whose question is new is the first of its file that asks it. -/
def Leading (walk : IncludeWalk) (file : FileId) (directive : IncludeDecl) : Prop :=
  walk.answers.lookup (file, directive.path) = none →
    (walk.files.directives file).find? (·.path == directive.path) = some directive

/-- What every single step of a walk keeps. -/
structure Lasting (find : Finder) (limit : Nat) (holds : IncludeWalk → Prop) : Prop where
  enter : ∀ {walk} file, holds walk → holds (walk.enter file)
  refuse : ∀ {walk} file, holds walk → holds (walk.refuse limit file)
  take : ∀ {walk file directive}, Sound find walk → file ∈ walk.visited →
    directive ∈ walk.files.directives file → walk.Leading file directive → holds walk →
      holds (walk.take find file directive).2

/-- Where the directives in front of it have been followed, a directive is a leading one. -/
theorem Underway.leading (underway : Underway find file before directives walk)
    (inside : file.index < before.files.size)
    (all : before.files.directives file = directives ++ directive :: more) :
    walk.Leading file directive := by
  intro unanswered
  rw [underway.grows.directives_eq inside, all, List.find?_append, List.find?_eq_none.mpr]
  · simp
  · intro earlier member same
    have answered := underway.complete.answered earlier member
    rw [beq_iff_eq.mp same, unanswered] at answered
    cases answered

/-- What lasts through each step lasts while the directives of a file are followed. -/
theorem Lasting.foldl {limit : Nat} {holds : IncludeWalk → Prop} (lasting : Lasting find limit holds)
    (underway : Underway find file before directives walk)
    (unvisited : file ∉ before.visited) (inside : file.index < before.files.size)
    (advances : ∀ target walk, Sound find walk → target.index < walk.files.size →
      Advances find walk (onwards target walk) ∧ target ∈ (onwards target walk).visited)
    (step : ∀ target walk, Sound find walk → target.index < walk.files.size → holds walk →
      holds (onwards target walk))
    (all : before.files.directives file = directives ++ more) (start : holds walk) :
    holds (more.foldl (IncludeWalk.follow find onwards file) walk) := by
  refine underway.foldl_keeps unvisited inside advances
    (@fun _ directive _ walk all underway kept => ?_) all start
  have mine := underway.mem_directives inside all
  have noted := underway.sound.noted underway.entered mine
  have taken := lasting.take underway.sound underway.entered mine (underway.leading inside all) kept
  rw [follow_eq]
  generalize walk.take find file directive = result at noted taken ⊢
  obtain ⟨answer, between⟩ := result
  cases answer with
  | none => exact taken
  | some target => exact step target between noted.sound (noted.inside target rfl) taken

theorem Lasting.visit {limit : Nat} {holds : IncludeWalk → Prop} (lasting : Lasting find limit holds)
    (remaining : Nat) (file : FileId) (walk : IncludeWalk) (sound : Sound find walk)
    (inside : file.index < walk.files.size) (start : holds walk) :
    holds (walk.visit find limit remaining file) := by
  induction remaining generalizing file walk with
  | zero =>
      rw [IncludeWalk.visit]
      split
      · exact start
      · exact lasting.refuse file (lasting.enter file start)
  | succ remaining induction =>
      rw [IncludeWalk.visit]
      split
      · exact start
      · rename_i unvisited
        exact lasting.foldl (Underway.start sound inside unvisited) unvisited inside
          (advances_visit limit remaining) induction rfl (lasting.enter file start)

theorem Lasting.visits {limit : Nat} {holds : IncludeWalk → Prop} (lasting : Lasting find limit holds)
    (ids : List FileId) (walk : IncludeWalk) (sound : Sound find walk)
    (inside : ∀ id ∈ ids, id.index < walk.files.size) (start : holds walk) :
    holds (ids.foldl (fun walk id => walk.visit find limit limit id) walk) := by
  induction ids generalizing walk with
  | nil => exact start
  | cons id ids induction =>
      obtain ⟨here, inside'⟩ := List.forall_mem_cons.mp inside
      have first := (advances_visit limit limit id walk sound here).1
      exact induction _ first.sound (fun other member => first.grows.lt_size (inside' other member))
        (lasting.visit limit id walk sound here start)

/-- What holds of the table of the roots and lasts holds in the end. -/
theorem Lasting.load {limit : Nat} {holds : IncludeWalk → Prop} (lasting : Lasting find limit holds)
    (roots : List FileTree) (begin : holds (start.withFiles (addRoots roots .empty).2)) :
    holds (load find limit roots) := by
  have added := rootsAdded_addRoots roots .empty
  exact lasting.visits _ _
    (sound_start (added.nodup List.nodup_nil) fun id => (added.includes id).trans (includes_empty id))
    added.inside begin

/-! ## Sources -/

/--
All files are found from the roots, and just the directives that mean nothing are reported, none of
which writes the path of a root.
-/
structure Sourced (find : Finder) (roots : List FileTree) (walk : IncludeWalk) : Prop where
  rooted : ∀ path ∈ roots.map (·.path), path ∈ walk.files.paths
  files : ∀ file ∈ walk.files.files, find.Finds roots file.path file.tree
  missed : ∀ id written, ((id, written), none) ∈ walk.answers → written ∉ roots.map (·.path)
  reported : walk.reported.filter (·.kind = .unresolvedInclude) =
    walk.unresolved.map fun (_, directive) => missing directive

/-- Directives that were found to mean nothing are the same in a table that has grown. -/
theorem unresolved_grows (sound : Sound find before) (grows : before.files.Grows after.files)
    (answers : after.answers = before.answers) : after.unresolved = before.unresolved := by
  rw [LoadState.unresolved, LoadState.unresolved, answers]
  refine List.filterMap_congr ?_
  rintro ⟨⟨id, written⟩, answer⟩ member
  have visited := (sound.answered id written answer (List.mem_reverse.mp member)).1
  have inside := sound.visited id visited
  simp only [grows.directives_eq inside, grows.path_eq inside]

theorem Sourced.addInclude (sourced : Sourced find roots walk) (sound : Sound find walk)
    (target : FileId) : Sourced find roots (walk.withFiles (walk.files.addInclude file target)) := by
  have grows := walk.files.grows_addInclude file target
  constructor
  case rooted => exact fun path member => grows.mem_paths (sourced.rooted path member)
  case files =>
    intro other member
    obtain ⟨index, found⟩ := List.mem_iff_getElem?.mp member
    have earlier := walk.files.get?_addInclude file target ⟨index⟩
    rw [show (walk.files.addInclude file target).get? ⟨index⟩ = some other from found] at earlier
    obtain ⟨original, known, same⟩ := Option.map_eq_some_iff.mp earlier.symm
    have finds := sourced.files original (List.mem_of_getElem? known)
    rw [← same]
    split <;> exact finds
  case missed => exact sourced.missed
  case reported =>
    have same : (walk.withFiles (walk.files.addInclude file target)).unresolved = walk.unresolved :=
      unresolved_grows sound grows rfl
    rw [same]
    exact sourced.reported

/-- What is added to the table for a directive of a file is found from the roots. -/
theorem Sourced.files_ask (sourced : Sourced find roots walk)
    (mine : directive ∈ walk.files.directives file) :
    ∀ other ∈ (walk.ask find file directive).2.files.files,
      find.Finds roots other.path other.tree := by
  rw [ask]
  cases meant : find (walk.files.path file) directive.path with
  | none => exact sourced.files
  | some found =>
      rcases walk.files.add_cases found.path found.tree with ⟨id, _, same⟩ | ⟨unused, same⟩
      · simp only [same]
        exact sourced.files
      · simp only [same, List.forall_mem_append, List.forall_mem_singleton]
        refine ⟨sourced.files, ?_⟩
        cases known : walk.files.get? file with
        | none => simp [FileTable.directives, known] at mine
        | some includer =>
            simp only [FileTable.directives, FileTable.path, known, Option.map_some,
              Option.getD_some] at mine meant
            refine .included (sourced.files includer (List.mem_of_getElem? known)) mine meant ?_
            exact fun rooted => FileTable.lookup_eq_none_iff.mp unused (sourced.rooted _ rooted)

/-- A directive that means nothing does not write the path of any file. -/
theorem not_mem_paths_of_ask (missed : (walk.ask find file directive).1 = none) :
    directive.path ∉ walk.files.paths := by
  rw [ask] at missed
  split at missed
  · cases missed
  · exact FileTable.lookup_eq_none_iff.mp missed

theorem Sourced.keep (sourced : Sourced find roots walk) (sound : Sound find walk)
    (entered : file ∈ walk.visited) (mine : directive ∈ walk.files.directives file)
    (first : (walk.files.directives file).find? (·.path == directive.path) = some directive) :
    Sourced find roots
      ((walk.ask find file directive).2.keep file directive (walk.ask find file directive).1) := by
  have asked := asked_ask find file directive walk
  have inside := sound.visited file entered
  constructor
  case rooted => exact fun path member => asked.grows.mem_paths (sourced.rooted path member)
  case files => exact sourced.files_ask mine
  case missed =>
    intro id written member
    rw [IncludeWalk.keep, asked.answers] at member
    rcases List.mem_cons.mp member with new | old
    · simp only [Prod.mk.injEq] at new
      obtain ⟨⟨_, rfl⟩, missed⟩ := new
      exact fun rooted => not_mem_paths_of_ask missed.symm (sourced.rooted _ rooted)
    · exact sourced.missed id written old
  case reported =>
    have earlier := unresolved_grows sound asked.grows asked.answers
    rw [LoadState.unresolved, asked.answers] at earlier
    rw [LoadState.unresolved, IncludeWalk.keep, asked.answers, asked.reported, List.filter_append,
      sourced.reported, List.reverse_cons, List.filterMap_append, List.map_append, earlier]
    congr 1
    cases (walk.ask find file directive).1 with
    | some target => rfl
    | none =>
        simp [asked.grows.directives_eq inside, first, missing, Diagnostic.detailed,
          Diagnostic.plain]

theorem lasting_sourced (find : Finder) (limit : Nat) (roots : List FileTree) :
    Lasting find limit (Sourced find roots) where
  enter _ sourced := ⟨sourced.rooted, sourced.files, sourced.missed, sourced.reported⟩
  refuse {walk} file sourced := by
    refine ⟨sourced.rooted, sourced.files, sourced.missed, ?_⟩
    have quiet : ((walk.files.directives file).map (Loading.tooDeep limit)).filter
        (·.kind = .unresolvedInclude) = [] := by
      simp [List.filter_eq_nil_iff, Loading.tooDeep, Diagnostic.detailed, Diagnostic.plain]
    rw [refuse, List.filter_append, quiet, List.append_nil]
    exact sourced.reported
  take {walk file directive} sound entered mine leading sourced := by
    have resolved := sound.resolved entered mine
    have sourced' : Sourced find roots (walk.resolve find file directive).2 := by
      rw [resolve]
      cases known : walk.answers.lookup (file, directive.path) with
      | some answer => exact sourced
      | none => exact sourced.keep sound entered mine (leading known)
    rw [take]
    generalize walk.resolve find file directive = result at resolved sourced' ⊢
    obtain ⟨answer, between⟩ := result
    cases answer with
    | none => exact sourced'
    | some target => exact sourced'.addInclude resolved.sound target

theorem mem_files_addRoots {roots : List FileTree} {table : FileTable} {file : SchemaFile}
    (member : file ∈ (addRoots roots table).2.files) :
    file ∈ table.files ∨ ∃ root ∈ roots, file.path = root.path ∧ file.tree = root := by
  induction roots generalizing table with
  | nil => exact .inl member
  | cons root roots induction =>
      rw [addRoots, mapM_cons_apply] at member
      rcases induction member with earlier | ⟨other, listed, same⟩
      · rcases table.add_cases root.path root with ⟨_, _, kept⟩ | ⟨_, added⟩
        · exact .inl (by simpa only [kept] using earlier)
        · simp only [added, List.mem_append, List.mem_singleton] at earlier
          refine earlier.imp_right ?_
          rintro rfl
          exact ⟨root, List.mem_cons_self, rfl, rfl⟩
      · exact .inr ⟨other, List.mem_cons_of_mem _ listed, same⟩

theorem sourced_start (find : Finder) (roots : List FileTree) :
    Sourced find roots (start.withFiles (addRoots roots .empty).2) := by
  have added := rootsAdded_addRoots roots .empty
  constructor
  case rooted =>
    intro path member
    obtain ⟨root, listed, rfl⟩ := List.mem_map.mp member
    obtain ⟨id, place, same⟩ := added.places.exists_of_mem_left listed
    obtain ⟨file, found⟩ := FileTable.get?_eq_some_iff.mpr (added.inside id place)
    rw [FileTable.path, found, Option.map_some, Option.getD_some] at same
    exact List.mem_map.mpr ⟨file, List.mem_of_getElem? found, same⟩
  case files =>
    intro file member
    rcases mem_files_addRoots member with absent | ⟨root, listed, path, tree⟩
    · cases absent
    · rw [path, tree]
      exact .root listed
  case missed => simp [start, withFiles, LoadState.initial]
  case reported => rfl

theorem sourced_load (find : Finder) (limit : Nat) (roots : List FileTree) :
    Sourced find roots (load find limit roots) :=
  (lasting_sourced find limit roots).load roots (sourced_start find roots)

/-! ## What files include -/

/-- The includes of a file are the files that its directives were found to mean, without repetition. -/
structure Notes (walk : IncludeWalk) : Prop where
  mem_includes : ∀ id target, target ∈ walk.files.includes id ↔
    ∃ written, walk.target id written = some target
  nodup : ∀ id, (walk.files.includes id).Nodup

/-- Only the question of the directive is answered. -/
theorem lookup_take_of_ne (find : Finder) (walk : IncludeWalk) (file : FileId)
    (directive : IncludeDecl) {written : String} (differ : written ≠ directive.path) :
    (walk.take find file directive).2.answers.lookup (file, written) =
      walk.answers.lookup (file, written) := by
  have resolved : (walk.resolve find file directive).2.answers.lookup (file, written) =
      walk.answers.lookup (file, written) := by
    rw [resolve]
    cases walk.answers.lookup (file, directive.path) with
    | some _ => rfl
    | none =>
        have other_key : ((file, written) == (file, directive.path)) = false := by simp [differ]
        simp only [IncludeWalk.keep, List.lookup_cons, other_key,
          (asked_ask find file directive walk).answers]
  rw [take]
  generalize walk.resolve find file directive = result at resolved ⊢
  obtain ⟨answer, between⟩ := result
  cases answer <;> exact resolved

namespace Noted

variable {before after : IncludeWalk} {answer : Option FileId}

theorem mem_includes_iff (noted : before.Noted find file directive answer after)
    (target : FileId) : target ∈ after.files.includes file ↔
      target ∈ before.files.includes file ∨ answer = some target := by
  rw [noted.includes]
  cases answer with
  | none => simp
  | some meant =>
      dsimp only
      split
      · rename_i known
        rw [Option.some.injEq]
        refine ⟨.inl, ?_⟩
        rintro (member | rfl)
        · exact member
        · exact known
      · simp [eq_comm]

theorem nodup_includes (noted : before.Noted find file directive answer after)
    (nodup : (before.files.includes file).Nodup) : (after.files.includes file).Nodup := by
  rw [noted.includes]
  cases answer with
  | none => exact nodup
  | some target =>
      dsimp only
      split
      · exact nodup
      · rename_i fresh
        exact nodup.append (List.nodup_singleton target) (List.disjoint_singleton.mpr fresh)

/-- A directive gives its file what it means, where no other question is answered. -/
theorem exists_target_iff (noted : before.Noted find file directive answer after)
    (others : ∀ {written}, written ≠ directive.path →
      after.answers.lookup (file, written) = before.answers.lookup (file, written))
    (target : FileId) : (∃ written, after.target file written = some target) ↔
      (∃ written, before.target file written = some target) ∨ answer = some target := by
  constructor
  · rintro ⟨written, meant⟩
    by_cases same : written = directive.path
    · rw [same, IncludeWalk.target, noted.answered] at meant
      exact .inr meant
    · rw [IncludeWalk.target, others same] at meant
      exact .inl ⟨written, meant⟩
  · rintro (⟨written, meant⟩ | meant)
    · refine ⟨written, ?_⟩
      have known := Option.join_eq_some_iff.mp meant
      rw [IncludeWalk.target, noted.kept written _ known, Option.join_some]
    · exact ⟨directive.path, by rw [IncludeWalk.target, noted.answered, meant, Option.join_some]⟩

end Noted

theorem Notes.take (notes : walk.Notes) (sound : Sound find walk) (entered : file ∈ walk.visited)
    (mine : directive ∈ walk.files.directives file) :
    (walk.take find file directive).2.Notes := by
  have noted := sound.noted entered mine
  constructor
  case mem_includes =>
    intro id target
    by_cases here : id = file
    · rw [here, noted.mem_includes_iff, notes.mem_includes]
      exact (noted.exists_target_iff (lookup_take_of_ne find walk file directive) target).symm
    · have holds := noted.others id here
      simp only [holds.includes, IncludeWalk.target, holds.answers]
      exact notes.mem_includes id target
  case nodup =>
    intro id
    by_cases here : id = file
    · rw [here]
      exact noted.nodup_includes (notes.nodup file)
    · rw [(noted.others id here).includes]
      exact notes.nodup id

theorem lasting_notes (find : Finder) (limit : Nat) : Lasting find limit Notes where
  enter _ notes := ⟨notes.mem_includes, notes.nodup⟩
  refuse _ notes := ⟨notes.mem_includes, notes.nodup⟩
  take sound entered mine _ notes := notes.take sound entered mine

theorem notes_load (find : Finder) (limit : Nat) (roots : List FileTree) :
    (load find limit roots).Notes := by
  have added := rootsAdded_addRoots roots .empty
  have includes (id : FileId) : (addRoots roots .empty).2.includes id = [] :=
    (added.includes id).trans (includes_empty id)
  refine (lasting_notes find limit).load roots ⟨fun id target => ?_, fun id => ?_⟩
  · simp [withFiles, includes, IncludeWalk.target, start, LoadState.initial]
  · exact (includes id).symm ▸ List.nodup_nil

end IncludeWalk
end IdlSchema
