import IdlSchema.Proofs.Files.IncludeProgress

/-!
# Include closures

Loading ends with any resolver: the depth is counted up to the limit and no further.  Each path is
taken once and each question asked once.  Where no directive lies too deep, the files are just those
that can be reached from the roots, each includes what its directives mean, and a larger limit makes
no difference.
-/

namespace IdlSchema
namespace IncludeWalk

variable {find : Finder} {before walk : IncludeWalk} {file : FileId}
  {directives more : List IncludeDecl} {onwards : FileId → IncludeWalk → IncludeWalk}

/-! ## Larger limits -/

/-- What following a directive behind those in front of it keeps is kept by following all of them. -/
theorem Underway.foldl_keeps {holds : IncludeWalk → Prop}
    (underway : Underway find file before directives walk)
    (unvisited : file ∉ before.visited) (inside : file.index < before.files.size)
    (advances : ∀ target walk, Sound find walk → target.index < walk.files.size →
      Advances find walk (onwards target walk) ∧ target ∈ (onwards target walk).visited)
    (step : ∀ {earlier directive later walk},
      before.files.directives file = earlier ++ directive :: later →
      Underway find file before earlier walk → holds walk →
      holds (walk.follow find onwards file directive))
    (all : before.files.directives file = directives ++ more) (start : holds walk) :
    holds (more.foldl (IncludeWalk.follow find onwards file) walk) := by
  induction more generalizing directives walk with
  | nil => exact start
  | cons directive more induction =>
      have mine := underway.mem_directives inside all
      exact induction (underway.follow unvisited mine advances) (by simp [all])
        (step all underway start)

theorem reported_follow {directive : IncludeDecl} (sound : Sound find walk)
    (entered : file ∈ walk.visited) (mine : directive ∈ walk.files.directives file)
    (advances : ∀ target walk, Sound find walk → target.index < walk.files.size →
      Advances find walk (onwards target walk)) :
    walk.reported <+: (walk.follow find onwards file directive).reported := by
  have noted := sound.noted entered mine
  rw [follow_eq]
  generalize walk.take find file directive = result at noted ⊢
  obtain ⟨answer, between⟩ := result
  cases answer with
  | none => exact noted.reported
  | some target =>
      exact noted.reported.trans
        (advances target between noted.sound (noted.inside target rfl)).reported

/-- Where the limit is not exceeded, two ways to go on that agree there make no difference. -/
theorem Underway.foldl_congr {onwards' : FileId → IncludeWalk → IncludeWalk}
    (underway : Underway find file before directives walk)
    (unvisited : file ∉ before.visited) (inside : file.index < before.files.size)
    (advances : ∀ target walk, Sound find walk → target.index < walk.files.size →
      Advances find walk (onwards target walk) ∧ target ∈ (onwards target walk).visited)
    (agree : ∀ target walk, Sound find walk → target.index < walk.files.size →
      (onwards target walk).reported.WithinLimit → onwards' target walk = onwards target walk)
    (all : before.files.directives file = directives ++ more)
    (within : (more.foldl (IncludeWalk.follow find onwards file) walk).reported.WithinLimit) :
    more.foldl (IncludeWalk.follow find onwards' file) walk =
      more.foldl (IncludeWalk.follow find onwards file) walk := by
  induction more generalizing directives walk with
  | nil => rfl
  | cons directive more induction =>
      have mine := underway.mem_directives inside all
      have next := underway.follow unvisited mine advances
      let keeps (after : IncludeWalk) : Prop :=
        (walk.follow find onwards file directive).reported <+: after.reported
      have later : keeps (more.foldl (IncludeWalk.follow find onwards file)
          (walk.follow find onwards file directive)) :=
        next.foldl_keeps unvisited inside advances
          (fun all underway front => front.trans
            (reported_follow underway.sound underway.entered (underway.mem_directives inside all)
              fun target walk sound inside => (advances target walk sound inside).1))
          (by simp [all]) List.prefix_rfl
      have here : walk.follow find onwards' file directive =
          walk.follow find onwards file directive := by
        have noted := underway.sound.noted underway.entered mine
        have quiet := within.front later
        rw [follow_eq] at quiet ⊢
        rw [follow_eq]
        generalize walk.take find file directive = result at noted quiet ⊢
        obtain ⟨answer, between⟩ := result
        cases answer with
        | none => rfl
        | some target => exact agree target between noted.sound (noted.inside target rfl) quiet
      rw [List.foldl_cons, List.foldl_cons, here]
      exact induction next (by simp [all]) within

theorem refuse_of_nil (limit : Nat) (no_directives : walk.files.directives file = []) :
    walk.refuse limit file = walk := by
  simp [refuse, no_directives]

/-- A visit within its limit is the same under any larger one. -/
theorem visit_add (limit limit' more remaining : Nat) (file : FileId) (walk : IncludeWalk)
    (sound : Sound find walk) (inside : file.index < walk.files.size)
    (within : (walk.visit find limit remaining file).reported.WithinLimit) :
    walk.visit find limit' (remaining + more) file = walk.visit find limit remaining file := by
  induction remaining generalizing file walk with
  | zero =>
      rw [visit] at within ⊢
      by_cases visited : file ∈ walk.visited
      · cases more <;> simp [visit, visited]
      · -- A file at the limit has no directives, so it does not matter who follows them.
        rw [if_neg visited] at within ⊢
        have no_directives : walk.files.directives file = [] :=
          List.eq_nil_iff_forall_not_mem.mpr fun directive mine =>
            within (Loading.tooDeep limit directive)
              (List.mem_append_right _ (List.mem_map_of_mem mine)) rfl
        have refused (limit : Nat) : (walk.enter file).refuse limit file = walk.enter file :=
          refuse_of_nil limit no_directives
        cases more <;> simp [visit, visited, refused, no_directives]
  | succ remaining induction =>
      rw [Nat.add_right_comm, visit, visit]
      rw [visit] at within
      by_cases visited : file ∈ walk.visited
      · simp [visited]
      · simp only [if_neg visited] at within ⊢
        exact (Underway.start sound inside visited).foldl_congr visited inside
          (advances_visit limit remaining) induction rfl within

/-! ## Counting the depth -/

/--
Visits a file to which `depth` includes lead.  The depth is counted in 32 bits; the visit fails
where one more does not fit.
-/
def visitFrom (find : Finder) (limit depth : UInt32) (file : FileId) (walk : IncludeWalk) :
    Option IncludeWalk :=
  if file ∈ walk.visited then some walk
  else if depth < limit then
    (walk.files.directives file).foldlM
      (fun walk directive =>
        match walk.take find file directive with
        | (some target, walk) =>
            if depth.toNat + 1 < UInt32.size then visitFrom find limit (depth + 1) target walk
            else none
        | (none, walk) => some walk)
      (walk.enter file)
  else some ((walk.enter file).refuse limit.toNat file)
termination_by limit.toNat - depth.toNat
decreasing_by
  rename_i room fits
  rw [UInt32.lt_iff_toNat_lt] at room
  have next : (depth + 1).toNat = depth.toNat + 1 := by
    rw [UInt32.toNat_add]
    exact Nat.mod_eq_of_lt fits
  omega

/-- The depth is never counted beyond 32 bits. -/
theorem visitFrom_eq (limit depth : UInt32) (bound : depth ≤ limit) (file : FileId)
    (walk : IncludeWalk) :
    visitFrom find limit depth file walk =
      some (walk.visit find limit.toNat (limit.toNat - depth.toNat) file) := by
  have bound' := UInt32.le_iff_toNat_le.mp bound
  generalize remaining_eq : limit.toNat - depth.toNat = remaining
  induction remaining generalizing depth file walk with
  | zero =>
      have full : ¬ depth < limit := by
        rw [UInt32.lt_iff_toNat_lt]
        omega
      rw [visitFrom, visit, if_neg full]
      split <;> rfl
  | succ remaining induction =>
      have room : depth < limit := by
        rw [UInt32.lt_iff_toNat_lt]
        omega
      have fits : depth.toNat + 1 < UInt32.size := by
        have := limit.toNat_lt_size
        omega
      have next : (depth + 1).toNat = depth.toNat + 1 := by
        rw [UInt32.toNat_add]
        exact Nat.mod_eq_of_lt fits
      have onwards (target : FileId) (walk : IncludeWalk) :
          visitFrom find limit (depth + 1) target walk =
            some (walk.visit find limit.toNat remaining target) :=
        induction (depth + 1) (UInt32.le_iff_toNat_le.mpr (by omega)) target walk (by omega)
          (by omega)
      have step (walk : IncludeWalk) (directive : IncludeDecl) :
          (match walk.take find file directive with
            | (some target, walk) =>
                if depth.toNat + 1 < UInt32.size then visitFrom find limit (depth + 1) target walk
                else none
            | (none, walk) => some walk) =
            some (walk.follow find (visit find limit.toNat remaining) file directive) := by
        rw [follow_eq]
        obtain ⟨answer, between⟩ := walk.take find file directive
        cases answer with
        | none => rfl
        | some target => simp only [if_pos fits, onwards]
      rw [visitFrom, visit, if_pos room]
      by_cases visited : file ∈ walk.visited
      · rw [if_pos visited, if_pos visited]
      · rw [if_neg visited, if_neg visited]
        simp only [step]
        exact List.foldlM_pure ..

/-! ## Roots -/

theorem sound_start {files : FileTable} (nodup : files.paths.Nodup)
    (includes : ∀ id, files.includes id = []) : Sound find (start.withFiles files) where
  paths := nodup
  visited := by simp [start, withFiles, LoadState.initial]
  answered := by simp [start, withFiles, LoadState.initial]
  found := by simp [start, withFiles, LoadState.initial]
  missed := by simp [start, withFiles, LoadState.initial]
  nodup := by simp [start, withFiles, LoadState.initial]
  asked := rfl
  untouched id _ := includes id

/-- Visiting some files one after the other. -/
theorem advances_visits (limit : Nat) (ids : List FileId) (walk : IncludeWalk)
    (sound : Sound find walk) (inside : ∀ id ∈ ids, id.index < walk.files.size) :
    Advances find walk (ids.foldl (fun walk id => walk.visit find limit limit id) walk) ∧
      ∀ id ∈ ids, id ∈ (ids.foldl (fun walk id => walk.visit find limit limit id) walk).visited := by
  induction ids generalizing walk with
  | nil => exact ⟨.refl sound, by simp⟩
  | cons id ids induction =>
      obtain ⟨here, inside'⟩ := List.forall_mem_cons.mp inside
      obtain ⟨first, visited⟩ := advances_visit limit limit id walk sound here
      obtain ⟨others, visited'⟩ := induction (walk.visit find limit limit id) first.sound
        fun other member => first.grows.lt_size (inside' other member)
      exact ⟨first.trans others, List.forall_mem_cons.mpr ⟨others.visited id visited, visited'⟩⟩

/-- Visits within their limit are the same under any larger one. -/
theorem visits_add (limit more : Nat) (ids : List FileId) (walk : IncludeWalk)
    (sound : Sound find walk) (inside : ∀ id ∈ ids, id.index < walk.files.size)
    (within : (ids.foldl (fun walk id => walk.visit find limit limit id)
      walk).reported.WithinLimit) :
    ids.foldl (fun walk id => walk.visit find (limit + more) (limit + more) id) walk =
      ids.foldl (fun walk id => walk.visit find limit limit id) walk := by
  induction ids generalizing walk with
  | nil => rw [List.foldl_nil, List.foldl_nil]
  | cons id ids induction =>
      obtain ⟨here, inside'⟩ := List.forall_mem_cons.mp inside
      have first := (advances_visit limit limit id walk sound here).1
      have inside_first (other : FileId) (member : other ∈ ids) :=
        first.grows.lt_size (inside' other member)
      have others := (advances_visits limit ids _ first.sound inside_first).1
      have same := visit_add limit (limit + more) more limit id walk sound here
        (within.front others.reported)
      rw [List.foldl_cons, List.foldl_cons, same]
      exact induction _ first.sound inside_first within

/-! ## The closure -/

/-- Loading with the depth counted in 32 bits. -/
def loadFrom (find : Finder) (limit : UInt32) (roots : List FileTree) : Option IncludeWalk :=
  let (ids, files) := addRoots roots .empty
  ids.foldlM (fun walk id => visitFrom find limit 0 id walk) (start.withFiles files)

theorem loadFrom_eq (limit : UInt32) (roots : List FileTree) :
    loadFrom find limit roots = some (load find limit.toNat roots) := by
  have each (walk : IncludeWalk) (id : FileId) : visitFrom find limit 0 id walk =
      some (walk.visit find limit.toNat limit.toNat id) :=
    visitFrom_eq limit 0 (UInt32.le_iff_toNat_le.mpr (by simp)) id walk
  rw [loadFrom, load]
  simp only [each]
  exact List.foldlM_pure ..

/-- How a load ends, compared with the table of its roots. -/
structure Loads (find : Finder) (roots : List FileTree) (ids : List FileId) (walk : IncludeWalk) :
    Prop where
  sound : Sound find walk
  places : List.Forall₂ (fun root id => walk.files.lookup root.path = some id) roots ids
  reached : walk.files.Reached ids
  visited : ∀ id : FileId, id.index < walk.files.size → id ∈ walk.visited
  finished : walk.reported.WithinLimit → ∀ id ∈ walk.visited, walk.Finished id

theorem includes_empty (id : FileId) : FileTable.empty.includes id = [] := by
  simp [FileTable.includes, FileTable.get?, FileTable.empty]

theorem loads (find : Finder) (limit : Nat) (roots : List FileTree) :
    Loads find roots (addRoots roots .empty).1 (load find limit roots) := by
  have added := rootsAdded_addRoots roots .empty
  have sound : Sound find (start.withFiles (addRoots roots .empty).2) :=
    sound_start (added.nodup List.nodup_nil) fun id => (added.includes id).trans (includes_empty id)
  obtain ⟨advances, visited⟩ := advances_visits limit _ _ sound added.inside
  have at_root {id : FileId} (inside : id.index < (addRoots roots .empty).2.size) :
      id ∈ (addRoots roots .empty).1 :=
    (added.fresh id inside).resolve_left (Nat.not_lt_zero _)
  constructor
  case sound => exact advances.sound
  case places =>
    refine (added.places.flip.imp_of_mem fun id member root path => ?_).flip
    have inside := added.inside id member
    have kept : (load find limit roots).files.path id = root.path :=
      (advances.grows.path_eq inside).trans path
    rw [flip, ← kept]
    exact FileTable.lookup_path advances.sound.paths (advances.grows.lt_size inside)
  case reached =>
    exact advances.reached _ fun id inside => ⟨id, at_root inside, .refl⟩
  case visited =>
    exact fun id inside =>
      (advances.fresh id inside).elim (fun old => visited id (at_root old)) fun new => new
  case finished =>
    exact fun within id member =>
      (advances.finished within id member).resolve_left List.not_mem_nil

end IncludeWalk

/-- The files that were loaded, the problems, and what the resolver was asked. -/
structure Loaded where
  files : FileTable
  reported : Diagnostics
  asked : List (String × String)

namespace Loaded

/-- Loads some roots with a resolver of a function, keeping a list of what it is asked. -/
def ofRoots (find : Finder) (limit : Nat) (roots : List FileTree) : Loaded :=
  let ((files, reported), asked) :=
    (FileTable.load (IncludeWalk.recording find) limit roots).run []
  { files, reported, asked }

/--
The files are those that can be reached from the roots, and each includes the files that its
directives mean, which `target` tells, in order and once each.
-/
structure Closes (find : Finder) (roots : List FileTree) (loaded : Loaded)
    (target : FileId → String → Option FileId) : Prop where
  reached : ∀ id : FileId, id.index < loaded.files.size →
    ∃ root ∈ roots, ∃ place, loaded.files.lookup root.path = some place ∧
      Relation.ReflTransGen loaded.files.Includes place id
  includes : ∀ id, loaded.files.includes id =
    ((loaded.files.directives id).filterMap fun directive => target id directive.path).eraseDups
  nodup : ∀ id, (loaded.files.includes id).Nodup
  meaning : ∀ id written other, target id written = some other →
    loaded.files.lookup (find.meaning (loaded.files.path id) written) = some other
  missing : ∀ id, ∀ directive ∈ loaded.files.directives id, target id directive.path = none →
    find (loaded.files.path id) directive.path = none ∧
      ∃ other ∈ loaded.files.directives id, other.path = directive.path ∧
        IncludeWalk.missing other ∈ loaded.reported

/--
Loading ends, with the depth counted in 32 bits; it takes each path once and asks each question of
a file once.  Where no directive lies too deep, what is loaded is closed under includes, and any
larger limit leads to the same.
-/
structure Complete (find : Finder) (limit : UInt32) (roots : List FileTree) (loaded : Loaded) :
    Prop where
  counted : (IncludeWalk.loadFrom find limit roots).map
    (fun walk => { files := walk.files, reported := walk.reported, asked := walk.asked }) =
      some loaded
  roots_loaded : ∀ root ∈ roots, ∃ id, loaded.files.lookup root.path = some id
  paths : loaded.files.paths.Nodup
  asked_once : loaded.asked.Nodup
  asked_written : ∀ question ∈ loaded.asked, ∃ id : FileId, id.index < loaded.files.size ∧
    loaded.files.path id = question.1 ∧
      ∃ directive ∈ loaded.files.directives id, directive.path = question.2
  closes : loaded.reported.WithinLimit → ∃ target, loaded.Closes find roots target
  larger : loaded.reported.WithinLimit → ∀ larger : UInt32, limit ≤ larger →
    ofRoots find larger.toNat roots = loaded

theorem ofRoots_eq (find : Finder) (limit : Nat) (roots : List FileTree) :
    ofRoots find limit roots =
      { files := (IncludeWalk.load find limit roots).files
        reported := (IncludeWalk.load find limit roots).reported
        asked := (IncludeWalk.load find limit roots).asked } := by
  rw [ofRoots, IncludeWalk.load_recording]

end Loaded

namespace IncludeWalk

variable {find : Finder} {walk : IncludeWalk}

theorem Sound.nodup_asked (sound : Sound find walk) : walk.asked.Nodup := by
  rw [sound.asked, List.nodup_reverse]
  have keys : (walk.answers.map fun answer => (walk.files.path answer.1.1, answer.1.2)) =
      (walk.answers.map Prod.fst).map fun key => (walk.files.path key.1, key.2) := by
    simp [Function.comp_def]
  have inside {key : FileId × String} (member : key ∈ walk.answers.map Prod.fst) :
      key.1.index < walk.files.size := by
    obtain ⟨⟨⟨id, written⟩, answer⟩, listed, rfl⟩ := List.mem_map.mp member
    exact sound.visited id (sound.answered id written answer listed).1
  rw [keys]
  refine sound.nodup.map_on fun key member key' member' same => ?_
  simp only [Prod.mk.injEq] at same
  exact Prod.ext (FileTable.eq_of_path_eq sound.paths (inside member) (inside member') same.1) same.2

theorem Sound.of_mem_asked (sound : Sound find walk) {question : String × String}
    (member : question ∈ walk.asked) : ∃ id : FileId, id.index < walk.files.size ∧
      walk.files.path id = question.1 ∧
        ∃ directive ∈ walk.files.directives id, directive.path = question.2 := by
  rw [sound.asked, List.mem_reverse] at member
  obtain ⟨⟨⟨id, written⟩, answer⟩, listed, rfl⟩ := List.mem_map.mp member
  obtain ⟨visited, mine⟩ := sound.answered id written answer listed
  exact ⟨id, sound.visited id visited, rfl, mine⟩

theorem Sound.mem_answers_of_target (sound : Sound find walk) {id other : FileId}
    {written : String} (meant : walk.target id written = some other) :
    walk.files.lookup (find.meaning (walk.files.path id) written) = some other := by
  have found := Option.join_eq_some_iff.mp meant
  obtain ⟨_, _, same, _⟩ := List.lookup_eq_some_iff.mp found
  have member : ((id, written), some other) ∈ walk.answers := by simp [same]
  obtain ⟨inside, path⟩ := sound.found id written other member
  rw [← path]
  exact FileTable.lookup_path sound.paths inside

theorem Loads.closes {roots : List FileTree} {ids : List FileId}
    (loads : Loads find roots ids walk) (within : walk.reported.WithinLimit) :
    Loaded.Closes find roots
      { files := walk.files, reported := walk.reported, asked := walk.asked } walk.target := by
  have sound := loads.sound
  have includes (id : FileId) : walk.files.includes id =
      ((walk.files.directives id).filterMap fun directive =>
        walk.target id directive.path).eraseDups := by
    rcases Nat.lt_or_ge id.index walk.files.size with inside | outside
    · exact (loads.finished within id (loads.visited id inside)).includes
    · have absent : walk.files.get? id = none := List.getElem?_eq_none outside
      simp [FileTable.includes, FileTable.directives, absent]
  constructor
  case reached =>
    intro id inside
    obtain ⟨place, member, path⟩ := loads.reached id inside
    obtain ⟨root, mine, found⟩ := loads.places.exists_of_mem_right member
    exact ⟨root, mine, place, found, path⟩
  case includes => exact includes
  case nodup => exact fun id => includes id ▸ List.nodup_eraseDups _
  case meaning => exact fun id written other => sound.mem_answers_of_target
  case missing =>
    intro id directive mine unmeant
    have inside : id.index < walk.files.size := by
      by_contra outside
      have absent : walk.files.get? id = none := List.getElem?_eq_none (Nat.le_of_not_lt outside)
      simp [FileTable.directives, absent] at mine
    have answered := (loads.finished within id (loads.visited id inside)).answered directive mine
    obtain ⟨answer, found⟩ := Option.isSome_iff_exists.mp answered
    rw [target, found, Option.join_some] at unmeant
    obtain ⟨_, _, same, _⟩ := List.lookup_eq_some_iff.mp found
    have member : ((id, directive.path), none) ∈ walk.answers := by simp [same, unmeant]
    exact sound.missed id directive.path member

end IncludeWalk

/-- Loading finds the include closure of some roots, whatever the resolver finds. -/
theorem Loaded.complete_ofRoots (find : Finder) (limit : UInt32) (roots : List FileTree) :
    (ofRoots find limit.toNat roots).Complete find limit roots := by
  have loads := IncludeWalk.loads find limit.toNat roots
  have sound := loads.sound
  rw [ofRoots_eq]
  constructor
  case counted => rw [IncludeWalk.loadFrom_eq, Option.map_some]
  case roots_loaded =>
    intro root member
    obtain ⟨id, _, found⟩ := loads.places.exists_of_mem_left member
    exact ⟨id, found⟩
  case paths => exact sound.paths
  case asked_once => exact sound.nodup_asked
  case asked_written => exact fun question => sound.of_mem_asked
  case closes => exact fun within => ⟨_, loads.closes within⟩
  case larger =>
    intro within larger bound
    have added := IncludeWalk.rootsAdded_addRoots roots .empty
    obtain ⟨more, enough⟩ := Nat.exists_eq_add_of_le (UInt32.le_iff_toNat_le.mp bound)
    have same : IncludeWalk.load find (limit.toNat + more) roots =
        IncludeWalk.load find limit.toNat roots :=
      IncludeWalk.visits_add limit.toNat more _ _
        (IncludeWalk.sound_start (added.nodup List.nodup_nil)
          fun id => (added.includes id).trans (IncludeWalk.includes_empty id))
        added.inside within
    rw [ofRoots_eq, enough, same]

end IdlSchema
