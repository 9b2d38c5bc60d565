import IdlSchema.Proofs.Files.FileTables
import IdlSchema.Proofs.Link.AcceptedNames
import IdlSchema.Proofs.Link.KeptDeclarations
import IdlSchema.Proofs.Types.Renumbering

/-!
# Files in another order

The declarations of a file may stand in any order, kind by kind, and the files may be linked in any
order.  The same is written then, so the same names are accepted, and the same types are declared,
each of them in another place.
-/

namespace IdlSchema

open Diagnostics TypeGraph

/-- The same declarations, kind by kind, in another order. -/
structure FileTree.Shuffled (tree tree' : FileTree) : Prop where
  constants : tree.constants.Perm tree'.constants
  typedefs : tree.typedefs.Perm tree'.typedefs
  enums : tree.enums.Perm tree'.enums
  structs : tree.structs.Perm tree'.structs
  services : tree.services.Perm tree'.services

/-- The same file with its declarations in another order. -/
structure SchemaFile.Shuffled (file file' : SchemaFile) : Prop where
  path : file'.path = file.path
  includes : file'.includes = file.includes
  tree : file.tree.Shuffled file'.tree

namespace FileTable

/-- The same files in the same places, each with its declarations in another order. -/
def Shuffled (files files' : FileTable) : Prop :=
  List.Forall₂ SchemaFile.Shuffled files.files files'.files

end FileTable

namespace FileTree

variable {tree tree' : FileTree}

theorem Shuffled.refl (tree : FileTree) : tree.Shuffled tree :=
  ⟨.refl _, .refl _, .refl _, .refl _, .refl _⟩

theorem Shuffled.symm (shuffled : tree.Shuffled tree') : tree'.Shuffled tree :=
  ⟨shuffled.constants.symm, shuffled.typedefs.symm, shuffled.enums.symm, shuffled.structs.symm,
    shuffled.services.symm⟩

theorem Shuffled.typeNames (shuffled : tree.Shuffled tree') :
    tree.typeNames.Perm tree'.typeNames :=
  (((shuffled.typedefs.map _).append (shuffled.enums.map _)).append
    (shuffled.structs.map _)).append (shuffled.services.map _)

theorem Shuffled.uses (shuffled : tree.Shuffled tree') : tree.uses.Perm tree'.uses :=
  (((shuffled.typedefs.flatMap_right _).append (shuffled.structs.flatMap_right _)).append
    (shuffled.services.flatMap_right _)).append (shuffled.constants.flatMap_right _)

end FileTree

namespace FileTable

variable {files files' : FileTable} {order order' : List FileId}

namespace Shuffled

theorem symm (shuffled : files.Shuffled files') : files'.Shuffled files :=
  shuffled.flip.imp fun _ _ both => ⟨both.path.symm, both.includes.symm, both.tree.symm⟩

theorem includes (shuffled : files.Shuffled files') (file : FileId) :
    files'.includes file = files.includes file :=
  getD_get?_eq shuffled (fun _ _ both => both.includes) file

theorem path (shuffled : files.Shuffled files') (file : FileId) :
    files'.path file = files.path file :=
  getD_get?_eq shuffled (fun _ _ both => both.path) file

theorem qualifier (shuffled : files.Shuffled files') (file : FileId) :
    files'.qualifier file = files.qualifier file :=
  getD_get?_eq shuffled (fun _ _ both => congrArg fileQualifier both.path) file

theorem tree (shuffled : files.Shuffled files') (file : FileId) :
    (files.tree file).Shuffled (files'.tree file) := by
  have both := get?_rel shuffled file
  rw [FileTable.tree, FileTable.tree]
  generalize files.get? file = found, files'.get? file = found' at both
  cases both with
  | some same => exact same.tree
  | none => exact .refl _

end Shuffled

/-! ## The same is written -/

/-- The same files, each with its declarations in another order, are linked in another order. -/
structure Rearranges (files : FileTable) (order : List FileId) (files' : FileTable)
    (order' : List FileId) : Prop where
  files : files.Shuffled files'
  order : order.Perm order'

namespace Rearranges

theorem symm (rearranges : files.Rearranges order files' order') :
    files'.Rearranges order' files order :=
  ⟨rearranges.files.symm, rearranges.order.symm⟩

theorem flatMap_perm {α : Type} (rearranges : files.Rearranges order files' order')
    {what what' : FileId → List α} (each : ∀ file, (what file).Perm (what' file)) :
    (order.flatMap what).Perm (order'.flatMap what') :=
  (List.Perm.flatMap_left order fun file _ => each file).trans
    (rearranges.order.flatMap_right what')

theorem written_perm {δ : Type} (rearranges : files.Rearranges order files' order')
    {decls : FileTree → List δ}
    (each : ∀ tree tree' : FileTree, tree.Shuffled tree' → (decls tree).Perm (decls tree')) :
    (files.written order decls).Perm (files'.written order' decls) :=
  rearranges.flatMap_perm fun file => (each _ _ (rearranges.files.tree file)).map (file, ·)

/-- Names that can all be declared can be declared in any order. -/
theorem clear_declared (rearranges : files.Rearranges order files' order')
    (clear : Clear ((files.declared order).1.flatMap (·.problems))) :
    Clear ((files'.declared order').1.flatMap (·.problems)) := by
  rw [clear_declared_iff] at clear ⊢
  exact clear.perm (rearranges.written_perm fun _ _ shuffled => shuffled.typeNames)
    (rearranges.written_perm fun _ _ shuffled => shuffled.constants.map _)

end Rearranges

/-! ## The same types are declared -/

/-- The types that are written in some files, wherever they are declared. -/
def writtenTypes (files : FileTable) (order : List FileId) : List UserType :=
  (files.written order (·.typedefs)).map (fun (file, decl) =>
      .declared files file decl.header .typedef .invalid) ++
    (files.written order (·.enums)).map (fun (file, decl) =>
      .declared files file decl.header .enum .invalid) ++
    (files.written order (·.structs)).map (fun (file, decl) =>
      .declared files file decl.header (.struct decl.kind) .invalid) ++
    (files.written order (·.services)).map (fun (file, decl) =>
      .declared files file decl.header .service .invalid)

theorem Rearranges.writtenTypes_perm (rearranges : files.Rearranges order files' order') :
    (files.writtenTypes order).Perm (files'.writtenTypes order') := by
  have same (file : FileId) (header : Header) (kind : UserTypeKind) (id : TypeId) :
      UserType.declared files' file header kind id = .declared files file header kind id := by
    rw [UserType.declared, UserType.declared, rearranges.files.qualifier]
  simp only [writtenTypes, same]
  refine .append (.append (.append ?_ ?_) ?_) ?_
  · exact (rearranges.written_perm fun _ _ shuffled => shuffled.typedefs).map _
  · exact (rearranges.written_perm fun _ _ shuffled => shuffled.enums).map _
  · exact (rearranges.written_perm fun _ _ shuffled => shuffled.structs).map _
  · exact (rearranges.written_perm fun _ _ shuffled => shuffled.services).map _

open FileDeclarations

/-- All that is written in some files is accepted, in order. -/
structure AcceptsAll (files : FileTable) (order : List FileId) : Prop where
  typedefs : (acceptedTypedefs (files.declared order).1).map (fun (file, decl, _) => (file, decl)) =
    files.written order (·.typedefs)
  enums : (acceptedEnums (files.declared order).1).map (fun (file, decl, _) => (file, decl)) =
    files.written order (·.enums)
  structs : (acceptedStructs (files.declared order).1).map (fun (file, decl, _) => (file, decl)) =
    files.written order (·.structs)
  services : (acceptedServices (files.declared order).1).map (fun (file, decl, _) => (file, decl)) =
    files.written order (·.services)
  constants : (acceptedConstants (files.declared order).1).map
    (fun (file, decl, _) => (file, decl)) = files.written order (·.constants)

theorem acceptsAll_of_clear (clear : Clear ((files.declared order).1.flatMap (·.problems))) :
    files.AcceptsAll order := by
  have records := files.records_declared order
  have each (declarations : FileDeclarations) (listed : declarations ∈ (files.declared order).1) :=
    FileDeclarations.clear_problems.mp (clear_flatMap.mp clear declarations listed)
  exact
    { typedefs := accepted_eq_written (records.imp fun _ _ recorded => recorded.typedefs)
        fun declarations listed => (each declarations listed).1
      enums := accepted_eq_written (records.imp fun _ _ recorded => recorded.enums)
        fun declarations listed => (each declarations listed).2.1
      structs := accepted_eq_written (records.imp fun _ _ recorded => recorded.structs)
        fun declarations listed => (each declarations listed).2.2.1
      services := accepted_eq_written (records.imp fun _ _ recorded => recorded.services)
        fun declarations listed => (each declarations listed).2.2.2.1
      constants := accepted_eq_written (records.imp fun _ _ recorded => recorded.constants)
        fun declarations listed => (each declarations listed).2.2.2.2 }

/-- The types that are declared are those that are written. -/
theorem AcceptsAll.users_perm (accepts : files.AcceptsAll order) :
    ((files.declared order).2.graph.users.map UserType.written).Perm (files.writtenTypes order) := by
  have users : (files.declared order).2.graph.users =
      (files.declared order).1.flatMap (·.users files) := (adds_declared files order).users
  rw [users, writtenTypes, ← accepts.typedefs, ← accepts.enums, ← accepts.structs,
    ← accepts.services]
  refine ((FileDeclarations.users_perm files (files.declared order).1).map UserType.written).trans
    (.of_eq ?_)
  simp only [List.map_append, List.map_map]
  rfl

/-- Declared types correspond if the same is written of them, in some order. -/
theorem corresponds_of_written {users users' : List UserType}
    (perm : (users.map UserType.written).Perm (users'.map UserType.written)) :
    Corresponds (fun user user' => user'.written = user.written) users users' := by
  have written (list : List UserType) :
      List.Forall₂ (fun written user => UserType.written user = written)
        (list.map UserType.written) list := by
    rw [List.forall₂_map_left_iff, List.forall₂_same]
    exact fun _ _ => rfl
  exact .of_perm (written users) (written users') perm fun _ user user' at_user at_user' =>
    at_user'.trans at_user.symm

theorem target?_of_mem_declared {user : UserType}
    (listed : user ∈ (files.declared order).2.graph.users) : user.target? = none := by
  rcases mem_users_iff.mp ((mem_users_typeScope files order false user).mp listed) with
    ⟨_, _, rfl⟩ | ⟨_, _, rfl⟩ | ⟨_, _, rfl⟩ | ⟨_, _, rfl⟩ <;> rfl

theorem apart_declared (files : FileTable) (order : List FileId) : (files.declared order).2.Apart :=
  Names.apart_declareFiles files order wellFormed_initial ⟨List.nodup_nil, List.forall_mem_nil _⟩

namespace Rearranges

/-- What is declared in one order is what is declared in the other. -/
theorem renumbers_declared (rearranges : files.Rearranges order files' order')
    (clear : Clear ((files.declared order).1.flatMap (·.problems))) :
    (files.declared order).2.graph.Renumbers (files'.declared order').2.graph where
  wellFormed := (adds_declared files order).wellFormed
  wellFormed' := (adds_declared files' order').wellFormed
  nodup := (apart_declared files order).nodup
  nodup' := (apart_declared files' order').nodup
  users := by
    have users := (acceptsAll_of_clear clear).users_perm
    have users' := (acceptsAll_of_clear (rearranges.clear_declared clear)).users_perm
    have same := corresponds_of_written ((users.trans rearranges.writtenTypes_perm).trans users'.symm)
    refine same.imp_of_mem fun user listed user' listed' same => ⟨same, ?_⟩
    rw [target?_of_mem_declared listed, target?_of_mem_declared listed']
    exact .none

end Rearranges
end FileTable
end IdlSchema
