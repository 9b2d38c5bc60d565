import IdlSchema.Proofs.Files.IncludeWalks

/-!
# What a walk along includes keeps

While includes are followed, no path is taken twice, the answers are what the resolver says, and
every file can be reached from a root.  A visit changes nothing about the files that were visited
before; unless the limit was exceeded, it is done with every file that it visits, so what such a
file includes are the files that its directives mean.
-/

theorem List.eraseDups_concat {α : Type} [BEq α] [LawfulBEq α] (list : List α) (a : α) :
    (list ++ [a]).eraseDups =
      if a ∈ list.eraseDups then list.eraseDups else list.eraseDups ++ [a] := by
  rw [List.eraseDups_append]
  by_cases known : a ∈ list
  · simp [known, List.removeAll]
  · simp [known, List.removeAll, List.eraseDups_cons]

theorem List.nodup_eraseDups {α : Type} [BEq α] [LawfulBEq α] (list : List α) :
    list.eraseDups.Nodup := by
  induction list using List.reverseRecOn with
  | nil => simp
  | append_singleton list a induction =>
      rw [List.eraseDups_concat]
      split
      · exact induction
      · rename_i fresh
        exact induction.append (List.nodup_singleton a) (List.disjoint_singleton.mpr fresh)

namespace IdlSchema

/-- The path that an include stands for: that of what is found for it, or else what is written. -/
def Finder.meaning (find : Finder) (includer written : String) : String :=
  match find includer written with
  | some found => found.path
  | none => written

/-- No directive was refused because it lies too deep. -/
def Diagnostics.WithinLimit (reported : Diagnostics) : Prop :=
  ∀ diagnostic ∈ reported, diagnostic.kind ≠ .includeDepthExceeded

theorem Diagnostics.WithinLimit.front {before after : Diagnostics} (within : WithinLimit after)
    (front : before <+: after) : WithinLimit before :=
  fun diagnostic member => within diagnostic (front.subset member)

namespace IncludeWalk

/-- The file that an include was found to mean, if any. -/
def target (walk : IncludeWalk) (file : FileId) (written : String) : Option FileId :=
  (walk.answers.lookup (file, written)).join

/-- Some directives of a file were followed, and what it includes is what they mean. -/
structure Complete (walk : IncludeWalk) (file : FileId) (directives : List IncludeDecl) : Prop where
  answered : ∀ directive ∈ directives, (walk.answers.lookup (file, directive.path)).isSome
  includes : walk.files.includes file =
    (directives.filterMap fun directive => walk.target file directive.path).eraseDups

/-- All directives of a file were followed. -/
def Finished (walk : IncludeWalk) (file : FileId) : Prop :=
  walk.Complete file (walk.files.directives file)

/-- Neither what a file includes nor what its directives mean has changed. -/
structure Holds (before after : IncludeWalk) (file : FileId) : Prop where
  includes : after.files.includes file = before.files.includes file
  answers : ∀ written,
    after.answers.lookup (file, written) = before.answers.lookup (file, written)

/-- What every walk satisfies. -/
structure Sound (find : Finder) (walk : IncludeWalk) : Prop where
  paths : walk.files.paths.Nodup
  visited : ∀ id ∈ walk.visited, id.index < walk.files.size
  answered : ∀ id written answer, ((id, written), answer) ∈ walk.answers →
    id ∈ walk.visited ∧ ∃ directive ∈ walk.files.directives id, directive.path = written
  found : ∀ id written target, ((id, written), some target) ∈ walk.answers →
    target.index < walk.files.size ∧
      walk.files.path target = find.meaning (walk.files.path id) written
  missed : ∀ id written, ((id, written), none) ∈ walk.answers →
    find (walk.files.path id) written = none ∧
      ∃ directive ∈ walk.files.directives id, directive.path = written ∧
        missing directive ∈ walk.reported
  nodup : (walk.answers.map Prod.fst).Nodup
  asked : walk.asked =
    (walk.answers.map fun answer => (walk.files.path answer.1.1, answer.1.2)).reverse
  untouched : ∀ id, id ∉ walk.visited → walk.files.includes id = []

variable {find : Finder} {before walk after : IncludeWalk} {file : FileId}

theorem Holds.refl (walk : IncludeWalk) (file : FileId) : walk.Holds walk file :=
  ⟨rfl, fun _ => rfl⟩

theorem Holds.trans (first : before.Holds walk file) (second : walk.Holds after file) :
    before.Holds after file :=
  ⟨second.includes.trans first.includes,
    fun written => (second.answers written).trans (first.answers written)⟩

theorem Holds.complete {directives : List IncludeDecl} (holds : before.Holds after file)
    (complete : before.Complete file directives) : after.Complete file directives where
  answered directive member := by
    rw [holds.answers]
    exact complete.answered directive member
  includes := by
    simp only [holds.includes, complete.includes, target, holds.answers]

theorem Holds.finished (holds : before.Holds after file) (grows : before.files.Grows after.files)
    (inside : file.index < before.files.size) (finished : before.Finished file) :
    after.Finished file := by
  rw [Finished, grows.directives_eq inside]
  exact holds.complete finished

/-! ## Following one directive -/

/-- What asking for a directive does. -/
structure Asked (find : Finder) (file : FileId) (directive : IncludeDecl) (before : IncludeWalk)
    (result : Option FileId × IncludeWalk) : Prop where
  grows : before.files.Grows result.2.files
  paths : before.files.paths.Nodup → result.2.files.paths.Nodup
  includes : ∀ id, result.2.files.includes id = before.files.includes id
  fresh : ∀ id : FileId, id.index < result.2.files.size →
    id.index < before.files.size ∨ result.1 = some id
  visited : result.2.visited = before.visited
  answers : result.2.answers = before.answers
  reported : result.2.reported = before.reported
  asked : result.2.asked = before.asked ++ [(before.files.path file, directive.path)]
  found : ∀ target, result.1 = some target → target.index < result.2.files.size ∧
    result.2.files.path target = find.meaning (before.files.path file) directive.path
  missed : result.1 = none → find (before.files.path file) directive.path = none

theorem asked_ask (find : Finder) (file : FileId) (directive : IncludeDecl) (walk : IncludeWalk) :
    walk.Asked find file directive (walk.ask find file directive) := by
  rw [ask]
  cases found : find (walk.files.path file) directive.path with
  | some meant =>
      have added := walk.files.added_add meant.path meant.tree
      refine ⟨added.grows, added.nodup, added.includes, fun id inside => ?_, rfl, rfl, rfl, rfl,
        ?_, fun missed => by cases missed⟩
      · exact (added.fresh id inside).imp_right fun same => congrArg some same.symm
      · rintro target ⟨⟩
        exact ⟨added.inside, added.path_eq.trans (by rw [Finder.meaning, found])⟩
  | none =>
      refine ⟨.refl _, fun nodup => nodup, fun _ => rfl, fun _ => .inl, rfl, rfl, rfl, rfl, ?_,
        fun _ => found⟩
      intro target known
      obtain ⟨inside, path⟩ := FileTable.exists_of_lookup known
      exact ⟨inside, path.trans (by rw [Finder.meaning, found])⟩

/-- What settling the meaning of a directive does. -/
structure Resolved (find : Finder) (file : FileId) (directive : IncludeDecl) (before : IncludeWalk)
    (answer : Option FileId) (after : IncludeWalk) : Prop where
  sound : Sound find after
  grows : before.files.Grows after.files
  includes : ∀ id, after.files.includes id = before.files.includes id
  fresh : ∀ id : FileId, id.index < after.files.size → id.index < before.files.size ∨ answer = some id
  inside : ∀ target, answer = some target → target.index < after.files.size
  visited : after.visited = before.visited
  reported : before.reported <+: after.reported
  others : ∀ id, id ≠ file → ∀ written,
    after.answers.lookup (id, written) = before.answers.lookup (id, written)
  kept : ∀ written earlier, before.answers.lookup (file, written) = some earlier →
    after.answers.lookup (file, written) = some earlier
  answered : after.answers.lookup (file, directive.path) = some answer

/-- What following a directive does before the walk goes on at the file that it means. -/
structure Noted (find : Finder) (file : FileId) (directive : IncludeDecl) (before : IncludeWalk)
    (answer : Option FileId) (after : IncludeWalk) : Prop where
  sound : Sound find after
  grows : before.files.Grows after.files
  fresh : ∀ id : FileId, id.index < after.files.size → id.index < before.files.size ∨ answer = some id
  inside : ∀ target, answer = some target → target.index < after.files.size
  visited : after.visited = before.visited
  reported : before.reported <+: after.reported
  others : ∀ id, id ≠ file → before.Holds after id
  kept : ∀ written earlier, before.answers.lookup (file, written) = some earlier →
    after.answers.lookup (file, written) = some earlier
  answered : after.answers.lookup (file, directive.path) = some answer
  includes : after.files.includes file =
    match answer with
    | some target =>
        if target ∈ before.files.includes file then before.files.includes file
        else before.files.includes file ++ [target]
    | none => before.files.includes file

namespace Sound

variable {directive : IncludeDecl}

/-- Noting that a visited file includes another keeps a walk sound. -/
theorem addInclude (sound : Sound find walk) (entered : file ∈ walk.visited) (target : FileId) :
    Sound find (walk.withFiles (walk.files.addInclude file target)) := by
  have grows := walk.files.grows_addInclude file target
  have size := walk.files.size_addInclude file target
  have path_eq {id : FileId} (member : id ∈ walk.visited) :
      (walk.files.addInclude file target).path id = walk.files.path id :=
    grows.path_eq (sound.visited id member)
  have directives_eq {id : FileId} (member : id ∈ walk.visited) :
      (walk.files.addInclude file target).directives id = walk.files.directives id :=
    grows.directives_eq (sound.visited id member)
  constructor
  case paths => exact (walk.files.paths_addInclude file target).symm ▸ sound.paths
  case visited => exact fun id member => size.symm ▸ sound.visited id member
  case answered =>
    intro id written answer member
    obtain ⟨visited, directive, mine, same⟩ := sound.answered id written answer member
    exact ⟨visited, directive, (directives_eq visited).symm ▸ mine, same⟩
  case found =>
    intro id written other member
    obtain ⟨inside, path⟩ := sound.found id written other member
    have visited := (sound.answered id written _ member).1
    refine ⟨size.symm ▸ inside, ?_⟩
    dsimp only [withFiles]
    rw [grows.path_eq inside, path, path_eq visited]
  case missed =>
    intro id written member
    obtain ⟨unfound, directive, mine, same, reported⟩ := sound.missed id written member
    have visited := (sound.answered id written _ member).1
    refine ⟨?_, directive, (directives_eq visited).symm ▸ mine, same, reported⟩
    dsimp only [withFiles]
    rw [path_eq visited, unfound]
  case nodup => exact sound.nodup
  case asked =>
    refine sound.asked.trans (congrArg List.reverse (List.map_congr_left ?_))
    rintro ⟨⟨id, written⟩, answer⟩ member
    exact congrArg (·, written) (path_eq (sound.answered id written answer member).1).symm
  case untouched =>
    intro id unvisited
    have differ : file ≠ id := fun same => unvisited (same ▸ entered)
    exact (walk.files.includes_addInclude_of_ne target differ).trans (sound.untouched id unvisited)

/-- Keeping the answer for a directive that was not asked for before keeps a walk sound. -/
theorem keep (sound : Sound find walk) (entered : file ∈ walk.visited)
    (mine : directive ∈ walk.files.directives file)
    (unanswered : walk.answers.lookup (file, directive.path) = none)
    {result : Option FileId × IncludeWalk} (asked : walk.Asked find file directive result) :
    Sound find (result.2.keep file directive result.1) := by
  have path_eq {id : FileId} (member : id ∈ walk.visited) :
      result.2.files.path id = walk.files.path id :=
    asked.grows.path_eq (sound.visited id member)
  have directives_eq {id : FileId} (member : id ∈ walk.visited) :
      result.2.files.directives id = walk.files.directives id :=
    asked.grows.directives_eq (sound.visited id member)
  have answers : (result.2.keep file directive result.1).answers =
      ((file, directive.path), result.1) :: walk.answers := by
    rw [IncludeWalk.keep, asked.answers]
  constructor
  case paths => exact asked.paths sound.paths
  case visited =>
    intro id member
    exact asked.grows.lt_size (sound.visited id (asked.visited ▸ member))
  case answered =>
    intro id written answer member
    rw [answers] at member
    rcases List.mem_cons.mp member with new | old
    · cases new
      exact ⟨asked.visited.symm ▸ entered, directive, (directives_eq entered).symm ▸ mine, rfl⟩
    · obtain ⟨visited, directive, mine, same⟩ := sound.answered id written answer old
      exact ⟨asked.visited.symm ▸ visited, directive, (directives_eq visited).symm ▸ mine, same⟩
  case found =>
    intro id written target member
    rw [answers] at member
    rcases List.mem_cons.mp member with new | old
    · simp only [Prod.mk.injEq] at new
      obtain ⟨⟨rfl, rfl⟩, found⟩ := new
      obtain ⟨inside, path⟩ := asked.found target found.symm
      exact ⟨inside, path.trans (by rw [← path_eq entered]; rfl)⟩
    · obtain ⟨inside, path⟩ := sound.found id written target old
      have visited := (sound.answered id written _ old).1
      refine ⟨asked.grows.lt_size inside, ?_⟩
      exact (asked.grows.path_eq inside).trans (path.trans (by rw [← path_eq visited]; rfl))
  case missed =>
    intro id written member
    rw [answers] at member
    rcases List.mem_cons.mp member with new | old
    · simp only [Prod.mk.injEq] at new
      obtain ⟨⟨rfl, rfl⟩, missed⟩ := new
      refine ⟨?_, directive, (directives_eq entered).symm ▸ mine, rfl, ?_⟩
      · exact (congrArg (find · _) (path_eq entered)).trans (asked.missed missed.symm)
      · simp [IncludeWalk.keep, ← missed]
    · obtain ⟨unfound, directive, mine, same, reported⟩ := sound.missed id written old
      have visited := (sound.answered id written _ old).1
      refine ⟨?_, directive, (directives_eq visited).symm ▸ mine, same, ?_⟩
      · exact (congrArg (find · written) (path_eq visited)).trans unfound
      · exact List.mem_append_left _ (asked.reported.symm ▸ reported)
  case nodup =>
    rw [answers, List.map_cons, List.nodup_cons]
    refine ⟨fun known => ?_, sound.nodup⟩
    obtain ⟨answer, member, same⟩ := List.mem_map.mp known
    simpa [same] using List.lookup_eq_none_iff.mp unanswered answer member
  case asked =>
    rw [answers, List.map_cons, List.reverse_cons]
    refine asked.asked.trans ?_
    rw [sound.asked]
    refine congr (congrArg _ (congrArg List.reverse (List.map_congr_left ?_))) ?_
    · rintro ⟨⟨id, written⟩, answer⟩ member
      exact congrArg (·, written) (path_eq (sound.answered id written answer member).1).symm
    · exact congrArg (fun path => [(path, directive.path)]) (path_eq entered).symm
  case untouched =>
    intro id unvisited
    exact (asked.includes id).trans (sound.untouched id (asked.visited ▸ unvisited))

theorem resolved (sound : Sound find walk) (entered : file ∈ walk.visited)
    (mine : directive ∈ walk.files.directives file) :
    walk.Resolved find file directive (walk.resolve find file directive).1
      (walk.resolve find file directive).2 := by
  rw [resolve]
  cases known : walk.answers.lookup (file, directive.path) with
  | some answer =>
      refine ⟨sound, .refl _, fun _ => rfl, fun _ => .inl, ?_, rfl, List.prefix_rfl,
        fun _ _ _ => rfl, fun _ _ => id, known⟩
      rintro target rfl
      obtain ⟨_, _, same, _⟩ := List.lookup_eq_some_iff.mp known
      have member : ((file, directive.path), some target) ∈ walk.answers := by simp [same]
      exact (sound.found file directive.path target member).1
  | none =>
      have asked := asked_ask find file directive walk
      have answers : ((walk.ask find file directive).2.keep file directive
          (walk.ask find file directive).1).answers =
          ((file, directive.path), (walk.ask find file directive).1) :: walk.answers := by
        rw [IncludeWalk.keep, asked.answers]
      constructor
      case sound => exact sound.keep entered mine known asked
      case grows => exact asked.grows
      case includes => exact asked.includes
      case fresh => exact asked.fresh
      case inside => exact fun target found => (asked.found target found).1
      case visited => exact asked.visited
      case reported => exact asked.reported ▸ List.prefix_append ..
      case others =>
        intro id differ written
        have other_key : ((id, written) == (file, directive.path)) = false := by simp [differ]
        simp only [answers, List.lookup_cons, other_key]
      case kept =>
        intro written earlier before
        have differ : written ≠ directive.path := by
          rintro rfl
          rw [known] at before
          cases before
        have other_key : ((file, written) == (file, directive.path)) = false := by simp [differ]
        simpa only [answers, List.lookup_cons, other_key] using before
      case answered => simp [answers]

end Sound

/-- Follows a directive up to the file that it means, and notes that the file is included. -/
def take (find : Finder) (file : FileId) (walk : IncludeWalk) (directive : IncludeDecl) :
    Option FileId × IncludeWalk :=
  match walk.resolve find file directive with
  | (some target, walk) => (some target, walk.withFiles (walk.files.addInclude file target))
  | (none, walk) => (none, walk)

theorem follow_eq (find : Finder) (onwards : FileId → IncludeWalk → IncludeWalk) (file : FileId)
    (walk : IncludeWalk) (directive : IncludeDecl) :
    walk.follow find onwards file directive =
      match walk.take find file directive with
      | (some target, walk) => onwards target walk
      | (none, walk) => walk := by
  rw [follow, take]
  obtain ⟨answer, after⟩ := walk.resolve find file directive
  cases answer <;> rfl

theorem Sound.noted {directive : IncludeDecl} (sound : Sound find walk)
    (entered : file ∈ walk.visited) (mine : directive ∈ walk.files.directives file) :
    walk.Noted find file directive (walk.take find file directive).1
      (walk.take find file directive).2 := by
  have resolved := sound.resolved entered mine
  rw [take]
  generalize walk.resolve find file directive = result at resolved ⊢
  obtain ⟨answer, after⟩ := result
  have entered' : file ∈ after.visited := resolved.visited.symm ▸ entered
  cases answer with
  | none =>
      exact ⟨resolved.sound, resolved.grows, resolved.fresh, resolved.inside, resolved.visited,
        resolved.reported, fun id differ => ⟨resolved.includes id, resolved.others id differ⟩,
        resolved.kept, resolved.answered, resolved.includes file⟩
  | some target =>
      have size := after.files.size_addInclude file target
      constructor
      case sound => exact resolved.sound.addInclude entered' target
      case grows => exact resolved.grows.trans (after.files.grows_addInclude file target)
      case fresh => exact fun id inside => resolved.fresh id (size ▸ inside)
      case inside => exact fun other same => size.symm ▸ resolved.inside other same
      case visited => exact resolved.visited
      case reported => exact resolved.reported
      case others =>
        refine fun id differ => ⟨?_, resolved.others id differ⟩
        exact (after.files.includes_addInclude_of_ne target differ.symm).trans (resolved.includes id)
      case kept => exact resolved.kept
      case answered => exact resolved.answered
      case includes =>
        have inside := resolved.sound.visited file entered'
        refine (after.files.includes_addInclude_self target inside).trans ?_
        dsimp only
        rw [resolved.includes]

theorem Noted.included {directive : IncludeDecl} {target : FileId}
    (noted : before.Noted find file directive (some target) after) :
    after.files.Includes file target := by
  rw [FileTable.Includes, noted.includes]
  dsimp only
  split
  · assumption
  · simp

theorem Noted.reached {directive : IncludeDecl} {answer : Option FileId} {roots : List FileId}
    (noted : before.Noted find file directive answer after)
    (inside : file.index < before.files.size) (reached : before.files.Reached roots) :
    after.files.Reached roots := by
  refine noted.grows.reached reached inside fun id id_inside => ?_
  refine (noted.fresh id id_inside).imp_right ?_
  rintro rfl
  exact noted.included

/-- Following one more directive adds what it means to what the file includes. -/
theorem Complete.concat {directives : List IncludeDecl} {directive : IncludeDecl}
    {answer : Option FileId} (complete : before.Complete file directives)
    (noted : before.Noted find file directive answer after) :
    after.Complete file (directives ++ [directive]) := by
  have kept {other : IncludeDecl} (member : other ∈ directives) :
      after.answers.lookup (file, other.path) = before.answers.lookup (file, other.path) := by
    obtain ⟨earlier, found⟩ := Option.isSome_iff_exists.mp (complete.answered other member)
    rw [found, noted.kept _ _ found]
  have meanings : (directives.filterMap fun other => after.target file other.path) =
      directives.filterMap fun other => before.target file other.path :=
    List.filterMap_congr fun other member => by rw [target, target, kept member]
  have meaning : after.target file directive.path = answer := by
    rw [target, noted.answered, Option.join_some]
  constructor
  · intro other member
    rcases List.mem_append.mp member with old | last
    · rw [kept old]
      exact complete.answered other old
    · rw [List.mem_singleton.mp last, noted.answered]
      rfl
  · rw [noted.includes, complete.includes, List.filterMap_append, meanings]
    cases answer with
    | none => simp [meaning]
    | some target =>
        simp only [List.filterMap_cons, List.filterMap_nil, meaning]
        exact (List.eraseDups_concat ..).symm

/-! ## Visits -/

/-- What a visit does, which leaves the files alone that were visited before. -/
structure Advances (find : Finder) (before after : IncludeWalk) : Prop where
  sound : Sound find after
  grows : before.files.Grows after.files
  visited : ∀ id ∈ before.visited, id ∈ after.visited
  holds : ∀ id ∈ before.visited, before.Holds after id
  reported : before.reported <+: after.reported
  fresh : ∀ id : FileId, id.index < after.files.size → id.index < before.files.size ∨ id ∈ after.visited
  reached : ∀ roots, before.files.Reached roots → after.files.Reached roots
  finished : after.reported.WithinLimit → ∀ id ∈ after.visited, id ∈ before.visited ∨ after.Finished id

theorem Advances.refl (sound : Sound find walk) : Advances find walk walk :=
  ⟨sound, .refl _, fun _ => id, fun _ _ => .refl .., List.prefix_rfl, fun _ => .inl, fun _ => id,
    fun _ _ => .inl⟩

theorem Advances.trans (first : Advances find before walk) (second : Advances find walk after) :
    Advances find before after where
  sound := second.sound
  grows := first.grows.trans second.grows
  visited id member := second.visited id (first.visited id member)
  holds id member := (first.holds id member).trans (second.holds id (first.visited id member))
  reported := first.reported.trans second.reported
  fresh id inside := by
    rcases second.fresh id inside with old | new
    · exact (first.fresh id old).imp_right (second.visited id)
    · exact .inr new
  reached roots := second.reached roots ∘ first.reached roots
  finished within id member := by
    rcases second.finished within id member with old | done
    · refine (first.finished (within.front second.reported) id old).imp_right fun done => ?_
      exact (second.holds id old).finished second.grows (first.sound.visited id old) done
    · exact .inr done

/-- A file has been entered, and some of its directives were followed. -/
structure Underway (find : Finder) (file : FileId) (before : IncludeWalk)
    (directives : List IncludeDecl) (after : IncludeWalk) : Prop where
  sound : Sound find after
  grows : before.files.Grows after.files
  entered : file ∈ after.visited
  visited : ∀ id ∈ before.visited, id ∈ after.visited
  holds : ∀ id ∈ before.visited, before.Holds after id
  reported : before.reported <+: after.reported
  fresh : ∀ id : FileId, id.index < after.files.size → id.index < before.files.size ∨ id ∈ after.visited
  reached : ∀ roots, before.files.Reached roots → after.files.Reached roots
  complete : after.Complete file directives
  finished : after.reported.WithinLimit → ∀ id ∈ after.visited,
    id ∈ before.visited ∨ id = file ∨ after.Finished id

theorem Sound.enter (sound : Sound find walk) (inside : file.index < walk.files.size) :
    Sound find (walk.enter file) where
  paths := sound.paths
  visited := List.forall_mem_cons.mpr ⟨inside, sound.visited⟩
  answered id written answer member :=
    (sound.answered id written answer member).imp_left (List.mem_cons_of_mem _)
  found := sound.found
  missed := sound.missed
  nodup := sound.nodup
  asked := sound.asked
  untouched id unvisited :=
    sound.untouched id fun member => unvisited (List.mem_cons_of_mem _ member)

namespace Underway

variable {directives : List IncludeDecl} {directive : IncludeDecl}

theorem start (sound : Sound find walk) (inside : file.index < walk.files.size)
    (unvisited : file ∉ walk.visited) : Underway find file walk [] (walk.enter file) where
  sound := sound.enter inside
  grows := .refl _
  entered := List.mem_cons_self
  visited _ := List.mem_cons_of_mem _
  holds _ _ := ⟨rfl, fun _ => rfl⟩
  reported := List.prefix_rfl
  fresh _ := .inl
  reached _ := id
  complete := ⟨by simp, sound.untouched file unvisited⟩
  finished _ id member := (List.mem_cons.mp member).symm.imp_right .inl

/-- The directive that comes next is one of those of the file. -/
theorem mem_directives {more : List IncludeDecl}
    (underway : Underway find file before directives walk) (inside : file.index < before.files.size)
    (all : before.files.directives file = directives ++ directive :: more) :
    directive ∈ walk.files.directives file := by
  rw [underway.grows.directives_eq inside, all]
  exact List.mem_append_right _ List.mem_cons_self

theorem follow (underway : Underway find file before directives walk)
    (unvisited : file ∉ before.visited) (mine : directive ∈ walk.files.directives file)
    {onwards : FileId → IncludeWalk → IncludeWalk}
    (advances : ∀ target walk, Sound find walk → target.index < walk.files.size →
      Advances find walk (onwards target walk) ∧ target ∈ (onwards target walk).visited) :
    Underway find file before (directives ++ [directive]) (walk.follow find onwards file directive) := by
  have noted := underway.sound.noted underway.entered mine
  rw [follow_eq]
  generalize walk.take find file directive = result at noted ⊢
  obtain ⟨answer, between⟩ := result
  have complete := underway.complete.concat noted
  have holds {id : FileId} (member : id ∈ before.visited) : before.Holds between id :=
    (underway.holds id member).trans (noted.others id fun same => unvisited (same ▸ member))
  have finished (within : between.reported.WithinLimit) {id : FileId} (member : id ∈ walk.visited) :
      id ∈ before.visited ∨ id = file ∨ between.Finished id := by
    by_cases here : id = file
    · exact .inr (.inl here)
    · refine (underway.finished (within.front noted.reported) id member).imp_right
        (Or.imp_right fun done => ?_)
      exact (noted.others id here).finished noted.grows (underway.sound.visited id member) done
  have visited {id : FileId} : id ∈ between.visited ↔ id ∈ walk.visited := by rw [noted.visited]
  have inside := underway.sound.visited file underway.entered
  cases answer with
  | none =>
      constructor
      case sound => exact noted.sound
      case grows => exact underway.grows.trans noted.grows
      case entered => exact visited.mpr underway.entered
      case visited => exact fun id member => visited.mpr (underway.visited id member)
      case holds => exact fun id => holds
      case reported => exact underway.reported.trans noted.reported
      case fresh =>
        intro id inside
        rcases noted.fresh id inside with old | new
        · exact (underway.fresh id old).imp_right visited.mpr
        · cases new
      case reached => exact fun roots reached => noted.reached inside (underway.reached roots reached)
      case complete => exact complete
      case finished => exact fun within id member => finished within (visited.mp member)
  | some target =>
      obtain ⟨advances, arrived⟩ := advances target between noted.sound (noted.inside target rfl)
      have entered := visited.mpr underway.entered
      have onwards_directives := advances.holds file entered
      constructor
      case sound => exact advances.sound
      case grows => exact underway.grows.trans (noted.grows.trans advances.grows)
      case entered => exact advances.visited file entered
      case visited =>
        exact fun id member => advances.visited id (visited.mpr (underway.visited id member))
      case holds =>
        intro id member
        exact (holds member).trans (advances.holds id (visited.mpr (underway.visited id member)))
      case reported => exact underway.reported.trans (noted.reported.trans advances.reported)
      case fresh =>
        intro id inside
        rcases advances.fresh id inside with old | new
        · rcases noted.fresh id old with older | meant
          · exact (underway.fresh id older).imp_right fun member =>
              advances.visited id (visited.mpr member)
          · exact .inr (Option.some.inj meant ▸ arrived)
        · exact .inr new
      case reached =>
        exact fun roots reached =>
          advances.reached roots (noted.reached inside (underway.reached roots reached))
      case complete => exact onwards_directives.complete complete
      case finished =>
        intro within id member
        rcases advances.finished within id member with old | done
        · refine (finished (within.front advances.reported) (visited.mp old)).imp_right
            (Or.imp_right fun done => ?_)
          exact (advances.holds id old).finished advances.grows (noted.sound.visited id old) done
        · exact .inr (.inr done)

/-- All directives of an entered file are followed one after the other. -/
theorem foldl (underway : Underway find file before directives walk)
    (unvisited : file ∉ before.visited) (inside : file.index < before.files.size)
    {onwards : FileId → IncludeWalk → IncludeWalk}
    (advances : ∀ target walk, Sound find walk → target.index < walk.files.size →
      Advances find walk (onwards target walk) ∧ target ∈ (onwards target walk).visited)
    {more : List IncludeDecl} (all : before.files.directives file = directives ++ more) :
    Underway find file before (before.files.directives file)
      (more.foldl (IncludeWalk.follow find onwards file) walk) := by
  induction more generalizing directives walk with
  | nil => simpa [all] using underway
  | cons directive more induction =>
      have mine := underway.mem_directives inside all
      exact induction (underway.follow unvisited mine advances) (by simp [all])

/-- A file whose directives were all followed has been visited. -/
theorem advances (underway : Underway find file before (before.files.directives file) after)
    (inside : file.index < before.files.size) : Advances find before after where
  sound := underway.sound
  grows := underway.grows
  visited := underway.visited
  holds := underway.holds
  reported := underway.reported
  fresh := underway.fresh
  reached := underway.reached
  finished within id member := by
    rcases underway.finished within id member with old | rfl | done
    · exact .inl old
    · refine .inr ?_
      rw [Finished, underway.grows.directives_eq inside]
      exact underway.complete
    · exact .inr done

end Underway

theorem Sound.refuse (sound : Sound find walk) (limit : Nat) (file : FileId) :
    Sound find (walk.refuse limit file) where
  paths := sound.paths
  visited := sound.visited
  answered := sound.answered
  found := sound.found
  missed id written member := by
    obtain ⟨unfound, directive, mine, same, reported⟩ := sound.missed id written member
    exact ⟨unfound, directive, mine, same, List.mem_append_left _ reported⟩
  nodup := sound.nodup
  asked := sound.asked
  untouched := sound.untouched

/-- A file at the limit is done with only if it has no directives. -/
theorem advances_refuse (sound : Sound find walk) (limit : Nat)
    (inside : file.index < walk.files.size) (unvisited : file ∉ walk.visited) :
    Advances find walk ((walk.enter file).refuse limit file) where
  sound := (sound.enter inside).refuse limit file
  grows := .refl _
  visited _ := List.mem_cons_of_mem _
  holds _ _ := ⟨rfl, fun _ => rfl⟩
  reported := List.prefix_append ..
  fresh _ := .inl
  reached _ := id
  finished within id member := by
    rcases List.mem_cons.mp member with rfl | old
    · right
      have refused : ∀ directive ∈ walk.files.directives id,
          Loading.tooDeep limit directive ∈ ((walk.enter id).refuse limit id).reported :=
        fun directive mine => List.mem_append_right _ (List.mem_map_of_mem mine)
      have no_directives : walk.files.directives id = [] :=
        List.eq_nil_iff_forall_not_mem.mpr fun directive mine =>
          within _ (refused directive mine) rfl
      refine ⟨fun directive mine => ?_, ?_⟩
      · exact absurd (no_directives ▸ mine) List.not_mem_nil
      · rw [show ((walk.enter id).refuse limit id).files = walk.files from rfl, no_directives]
        exact sound.untouched id unvisited
    · exact .inl old

theorem advances_visit (limit remaining : Nat) (file : FileId) (walk : IncludeWalk)
    (sound : Sound find walk) (inside : file.index < walk.files.size) :
    Advances find walk (walk.visit find limit remaining file) ∧
      file ∈ (walk.visit find limit remaining file).visited := by
  induction remaining generalizing file walk with
  | zero =>
      rw [visit]
      split
      · exact ⟨.refl sound, by assumption⟩
      · rename_i unvisited
        exact ⟨advances_refuse sound limit inside unvisited, List.mem_cons_self⟩
  | succ remaining induction =>
      rw [visit]
      split
      · exact ⟨.refl sound, by assumption⟩
      · rename_i unvisited
        have done := (Underway.start sound inside unvisited).foldl unvisited inside induction rfl
        exact ⟨done.advances inside, done.entered⟩

end IncludeWalk
end IdlSchema
