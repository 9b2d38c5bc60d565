import IdlSchema.Proofs.Files.IncludeClosure

/-!
# The depth at which directives are refused

Files are visited depth first, and the depth of a file is the number of includes that led to its
first visit.  The directives that are refused are those of files whose first visit came at the end
of a chain of just as many includes as the limit allows; a shorter chain, even an empty one, may
lead to the same file.
-/

namespace IdlSchema

/-- A chain of so many includes leads from one file to another. -/
inductive FileTable.Chain (table : FileTable) (source : FileId) : Nat → FileId → Prop
  | here : table.Chain source 0 source
  | step {length : Nat} {middle target : FileId} (first : table.Chain source length middle)
      (last : table.Includes middle target) : table.Chain source (length + 1) target

theorem FileTable.Grows.chain {before after : FileTable} (grows : before.Grows after)
    {source target : FileId} {length : Nat} (chain : before.Chain source length target) :
    after.Chain source length target := by
  induction chain with
  | here => exact .here
  | step _ last induction => exact .step induction (grows.includes last)

namespace IncludeWalk

variable {find : Finder} {before walk after : IncludeWalk} {file : FileId} {limit : Nat}
  {roots refused : List FileId}

/-- The problems of directives that lie too deep. -/
def tooDeep (walk : IncludeWalk) : Diagnostics :=
  walk.reported.filter (·.kind = .includeDepthExceeded)

/--
All directives of some visited files were refused, file by file, and no others.  The files lie at
the ends of chains of as many includes as the limit allows.
-/
structure Refused (limit : Nat) (roots : List FileId) (walk : IncludeWalk)
    (refused : List FileId) : Prop where
  nodup : refused.Nodup
  visited : ∀ id ∈ refused, id ∈ walk.visited
  deep : ∀ id ∈ refused, ∃ root ∈ roots, walk.files.Chain root limit id
  reported : walk.tooDeep = refused.flatMap fun id =>
    (walk.files.directives id).map (Loading.tooDeep limit)

theorem Refused.kept (holds : before.Refused limit roots refused) (sound : Sound find before)
    (grows : before.files.Grows after.files) (visited : ∀ id ∈ before.visited, id ∈ after.visited)
    (same : after.tooDeep = before.tooDeep) : after.Refused limit roots refused where
  nodup := holds.nodup
  visited id member := visited id (holds.visited id member)
  deep id member := by
    obtain ⟨root, listed, chain⟩ := holds.deep id member
    exact ⟨root, listed, grows.chain chain⟩
  reported := by
    rw [same, holds.reported]
    refine List.flatMap_congr fun id member => ?_
    rw [grows.directives_eq (sound.visited id (holds.visited id member))]

/-- Settling what a directive means refuses nothing. -/
theorem tooDeep_take (find : Finder) (file : FileId) (walk : IncludeWalk)
    (directive : IncludeDecl) : (walk.take find file directive).2.tooDeep = walk.tooDeep := by
  have resolved : (walk.resolve find file directive).2.tooDeep = walk.tooDeep := by
    rw [resolve]
    cases walk.answers.lookup (file, directive.path) with
    | some _ => rfl
    | none =>
        have asked := (asked_ask find file directive walk).reported
        dsimp only [keep, tooDeep]
        rw [asked, List.filter_append]
        split <;> simp [missing, Diagnostic.detailed, Diagnostic.plain]
  rw [take]
  generalize walk.resolve find file directive = result at resolved ⊢
  obtain ⟨answer, between⟩ := result
  cases answer <;> exact resolved

/-- A file at the limit is refused with all its directives. -/
theorem Refused.refuse (holds : walk.Refused limit roots refused) (unvisited : file ∉ walk.visited)
    (deep : ∃ root ∈ roots, walk.files.Chain root limit file) :
    ((walk.enter file).refuse limit file).Refused limit roots (refused ++ [file]) where
  nodup := by
    have fresh : file ∉ refused := fun member => unvisited (holds.visited file member)
    exact holds.nodup.append (List.nodup_singleton file) (List.disjoint_singleton.mpr fresh)
  visited := by
    simp only [List.forall_mem_append, List.forall_mem_singleton]
    exact ⟨fun id member => List.mem_cons_of_mem _ (holds.visited id member), List.mem_cons_self⟩
  deep := by
    simp only [List.forall_mem_append, List.forall_mem_singleton]
    exact ⟨holds.deep, deep⟩
  reported := by
    have own : ((walk.files.directives file).map (Loading.tooDeep limit)).filter
        (·.kind = .includeDepthExceeded) =
        (walk.files.directives file).map (Loading.tooDeep limit) := by
      simp [List.filter_eq_self, Loading.tooDeep, Diagnostic.detailed, Diagnostic.plain]
    have old := holds.reported
    unfold tooDeep at old ⊢
    simp only [IncludeWalk.refuse, enter, List.filter_append, old, own, List.flatMap_append,
      List.flatMap_singleton]

/--
A visit of a file at the end of a chain refuses files that were not visited before.  It refuses the
file itself only if no include may lead onwards.
-/
theorem refused_visit (remaining depth : Nat) (file : FileId) (walk : IncludeWalk)
    (refused : List FileId) (depth_eq : depth + remaining = limit) (sound : Sound find walk)
    (inside : file.index < walk.files.size)
    (chain : ∃ root ∈ roots, walk.files.Chain root depth file)
    (holds : walk.Refused limit roots refused) :
    ∃ more, (walk.visit find limit remaining file).Refused limit roots (refused ++ more) ∧
      (∀ id ∈ more, id ∉ walk.visited) ∧ (0 < remaining → file ∉ more) := by
  induction remaining generalizing depth file walk refused with
  | zero =>
      rw [visit]
      split
      · exact ⟨[], by simpa using holds, by simp, by simp⟩
      · rename_i unvisited
        obtain rfl : depth = limit := depth_eq
        exact ⟨[file], holds.refuse unvisited chain, by simpa using unvisited, by simp⟩
  | succ remaining induction =>
      rw [visit]
      split
      · exact ⟨[], by simpa using holds, by simp, by simp⟩
      · rename_i unvisited
        let keeps (after : IncludeWalk) : Prop :=
          (∀ id ∈ (walk.enter file).visited, id ∈ after.visited) ∧
            (∃ root ∈ roots, after.files.Chain root depth file) ∧
              ∃ more, after.Refused limit roots (refused ++ more) ∧
                ∀ id ∈ more, id ∉ (walk.enter file).visited
        have kept : keeps ((walk.files.directives file).foldl
            (IncludeWalk.follow find (visit find limit remaining) file) (walk.enter file)) := by
          refine (Underway.start sound inside unvisited).foldl_keeps unvisited inside
            (advances_visit limit remaining)
            (@fun _ directive _ after all underway keeps => ?_) rfl
            ⟨fun _ => id, chain, [], ?_, by simp⟩
          · obtain ⟨earlier, ⟨root, listed, chain⟩, more, holds, fresh⟩ := keeps
            have noted := underway.sound.noted underway.entered (underway.mem_directives inside all)
            have quiet := tooDeep_take find file after directive
            rw [follow_eq]
            generalize after.take find file directive = result at noted quiet ⊢
            obtain ⟨answer, between⟩ := result
            have visited (id : FileId) : id ∈ after.visited → id ∈ between.visited :=
              fun member => noted.visited.symm ▸ member
            have holds' := holds.kept underway.sound noted.grows visited quiet
            have chain' := noted.grows.chain chain
            cases answer with
            | none =>
                exact ⟨fun id member => visited id (earlier id member), ⟨root, listed, chain'⟩,
                  more, holds', fresh⟩
            | some target =>
                have target_inside := noted.inside target rfl
                have advances := (advances_visit limit remaining target between noted.sound
                  target_inside).1
                obtain ⟨more', holds'', fresh', _⟩ := induction (depth + 1) target between
                  (refused ++ more) (by omega) noted.sound target_inside
                  ⟨root, listed, .step chain' noted.included⟩ holds'
                refine ⟨fun id member => advances.visited id (visited id (earlier id member)),
                  ⟨root, listed, advances.grows.chain chain'⟩, more ++ more', ?_, ?_⟩
                · simpa only [List.append_assoc] using holds''
                · simp only [List.forall_mem_append]
                  exact ⟨fresh, fun id member known =>
                    fresh' id member (visited id (earlier id known))⟩
          · have entered : (walk.enter file).Refused limit roots refused :=
              holds.kept sound (.refl _) (fun _ => List.mem_cons_of_mem _) rfl
            simpa using entered
        obtain ⟨_, _, more, holds, fresh⟩ := kept
        exact ⟨more, holds, fun id member known => fresh id member (List.mem_cons_of_mem _ known),
          fun _ member => fresh file member List.mem_cons_self⟩

theorem refused_visits (ids : List FileId) (walk : IncludeWalk) (refused : List FileId)
    (sound : Sound find walk) (inside : ∀ id ∈ ids, id.index < walk.files.size)
    (listed : ∀ id ∈ ids, id ∈ roots) (holds : walk.Refused limit roots refused) :
    ∃ more, (ids.foldl (fun walk id => walk.visit find limit limit id) walk).Refused limit roots
        (refused ++ more) ∧
      (∀ id ∈ more, id ∉ walk.visited) ∧
      ∀ first, ids.head? = some first → 0 < limit → first ∉ more := by
  induction ids generalizing walk refused with
  | nil => exact ⟨[], by simpa using holds, by simp, by simp⟩
  | cons id ids induction =>
      obtain ⟨here, inside'⟩ := List.forall_mem_cons.mp inside
      obtain ⟨root, listed'⟩ := List.forall_mem_cons.mp listed
      obtain ⟨advances, visited⟩ := advances_visit limit limit id walk sound here
      obtain ⟨more, holds, fresh, own⟩ :=
        refused_visit limit 0 id walk refused (Nat.zero_add _) sound here ⟨id, root, .here⟩ holds
      obtain ⟨more', holds', fresh', _⟩ := induction _ _ advances.sound
        (fun other member => advances.grows.lt_size (inside' other member)) listed' holds
      refine ⟨more ++ more', ?_, ?_, ?_⟩
      · rw [List.foldl_cons, ← List.append_assoc]
        exact holds'
      · simp only [List.forall_mem_append]
        exact ⟨fresh, fun other member known => fresh' other member (advances.visited other known)⟩
      · rintro first ⟨⟩ room member
        rcases List.mem_append.mp member with early | late
        · exact own room early
        · exact fresh' id late visited

theorem refused_load (find : Finder) (limit : Nat) (roots : List FileTree) :
    ∃ refused, (load find limit roots).Refused limit (addRoots roots .empty).1 refused ∧
      ∀ first, (addRoots roots .empty).1.head? = some first → 0 < limit → first ∉ refused := by
  have added := rootsAdded_addRoots roots .empty
  have sound : Sound find (start.withFiles (addRoots roots .empty).2) :=
    sound_start (added.nodup List.nodup_nil) fun id => (added.includes id).trans (includes_empty id)
  have nothing : (start.withFiles (addRoots roots .empty).2).Refused limit
      (addRoots roots .empty).1 [] :=
    ⟨List.nodup_nil, by simp, by simp, by simp [tooDeep, start, withFiles, LoadState.initial]⟩
  obtain ⟨more, holds, _, first⟩ := refused_visits _ _ [] sound added.inside (fun _ => id) nothing
  exact ⟨more, holds, first⟩

end IncludeWalk

namespace Loaded

/-- A chain of so many includes leads from a root to a file. -/
def Leads (loaded : Loaded) (roots : List FileTree) (length : Nat) (file : FileId) : Prop :=
  ∃ root ∈ roots, ∃ place, loaded.files.lookup root.path = some place ∧
    loaded.files.Chain place length file

/--
The directives that are refused are all those of some files, each at the end of a chain of as many
includes as the limit allows.  The first root is none of them unless the limit allows no include.
-/
structure Refuses (limit : Nat) (roots : List FileTree) (loaded : Loaded)
    (refused : List FileId) : Prop where
  nodup : refused.Nodup
  deep : ∀ id ∈ refused, loaded.Leads roots limit id
  reported : loaded.reported.filter (·.kind = .includeDepthExceeded) =
    refused.flatMap fun id => (loaded.files.directives id).map (Loading.tooDeep limit)
  first : 0 < limit → ∀ root, roots.head? = some root →
    ∀ place, loaded.files.lookup root.path = some place → place ∉ refused

/-- Loading refuses the directives of files whose first visit comes at the limit, and no others. -/
theorem exists_refuses_ofRoots (find : Finder) (limit : Nat) (roots : List FileTree) :
    ∃ refused, (ofRoots find limit roots).Refuses limit roots refused := by
  obtain ⟨refused, holds, first⟩ := IncludeWalk.refused_load find limit roots
  have places := (IncludeWalk.loads find limit roots).places
  rw [ofRoots_eq]
  refine ⟨refused, holds.nodup, fun id member => ?_, holds.reported, ?_⟩
  · obtain ⟨place, listed, chain⟩ := holds.deep id member
    obtain ⟨root, mine, found⟩ := places.exists_of_mem_right listed
    exact ⟨root, mine, place, found, chain⟩
  · intro room root head place found
    refine first place ?_ room
    generalize (IncludeWalk.addRoots roots .empty).1 = ids at places
    cases places with
    | nil => cases head
    | cons first_found _ =>
        cases head
        exact first_found.symm.trans found

/-- A directive is refused only if no chain with fewer includes than the limit leads to its file. -/
def RefusesNested (limit : Nat) (roots : List FileTree) (loaded : Loaded) : Prop :=
  ∀ file, ∀ directive ∈ loaded.files.directives file,
    Loading.tooDeep limit directive ∈ loaded.reported →
      ∀ length, loaded.Leads roots length file → limit ≤ length

/-- A file that includes some others. -/
def including (path : String) (includes : List String) : FileTree :=
  { location := { path, line := 1, column := 1 }
    namespaces := []
    includes := includes.map fun included =>
      { location := { path, line := 1, column := 1 }, path := included }
    constants := [], typedefs := [], enums := [], structs := [], services := [] }

/-- Three roots, each of which includes the next. -/
def chainOfRoots : List FileTree :=
  [including "a.thrift" ["b.thrift"], including "b.thrift" ["c.thrift"], including "c.thrift" []]

/-- The second root is met first as an include of the first one, and refused in spite of its place. -/
theorem not_refusesNested_chainOfRoots :
    ¬ (ofRoots (fun _ _ => none) 1 chainOfRoots).RefusesNested 1 chainOfRoots := by
  intro nested
  obtain ⟨directive, mine, refused⟩ :
      ∃ directive ∈ (ofRoots (fun _ _ => none) 1 chainOfRoots).files.directives ⟨1⟩,
        Loading.tooDeep 1 directive ∈ (ofRoots (fun _ _ => none) 1 chainOfRoots).reported := by
    decide +kernel
  have leads : (ofRoots (fun _ _ => none) 1 chainOfRoots).Leads chainOfRoots 0 ⟨1⟩ :=
    ⟨including "b.thrift" ["c.thrift"], List.mem_cons_of_mem _ List.mem_cons_self, ⟨1⟩,
      by decide +kernel, .here⟩
  exact Nat.not_succ_le_zero 0 (nested ⟨1⟩ directive mine refused 0 leads)

end Loaded
end IdlSchema
