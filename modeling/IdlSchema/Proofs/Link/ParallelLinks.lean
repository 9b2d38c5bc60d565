import IdlSchema.Proofs.Link.DeclaredConstants
import IdlSchema.Proofs.Link.ParallelNames
import IdlSchema.Proofs.Link.ResolvedTypes

/-!
# Linking in parallel

Two tables of files go in parallel if they declare the same types and write alike declarations, where
what the types of one stand for is what those of the other stand for or something weaker.  Linking
them gives scopes of which one mirrors the other.

Where the types of one table are weaker than those of another, its typedefs mention no more and its
services keep their methods, while the bases of some may be left out.  So no cycle comes up.
-/

namespace IdlSchema

open TypeGraph

/-- Two scopes have the same declared types, and files include the same files in both. -/
structure Scope.Alike (scope scope' : Scope) : Prop where
  graph : scope'.graph = scope.graph
  includes : ∀ file, scope'.files.includes file = scope.files.includes file
  qualifier : ∀ file, scope'.files.qualifier file = scope.files.qualifier file

namespace Scope.Alike

variable {scope scope' : Scope} (alike : scope.Alike scope') (file : FileId)

include alike

/-- A name stands for the same in alike scopes. -/
theorem resolveName_eq (name : String) :
    scope'.resolveName file name = scope.resolveName file name := by
  simp only [resolveName, resolveDeclared, resolveQualified, resolveUnqualified, includesQualified,
    alike.graph, alike.includes, alike.qualifier]

theorem denote_eq (reference : TypeReference) :
    scope'.denote file reference = scope.denote file reference := by
  induction reference with
  | named location name annotations => rw [denote, denote, alike.resolveName_eq]
  | list location element annotations induction => rw [denote, denote, induction]
  | set location element annotations induction => rw [denote, denote, induction]
  | map location key value annotations induction induction' =>
      rw [denote, denote, induction, induction']

end Scope.Alike

/-- What a reference in a file stands for is weaker than what another one does in another scope. -/
def Scope.Weakens (loose : Prop) (scope scope' : Scope) (file : FileId)
    (reference reference' : TypeReference) : Prop :=
  (scope.denote file reference).Weakens loose (scope'.denote file reference')

namespace Scope

variable {loose : Prop} {scope scope' : Scope} {graph graph' : TypeGraph} {file : FileId}

theorem Stores.image {reference reference' : TypeReference} {a b : TypeId}
    (stores : scope.Stores graph file reference a)
    (stores' : scope'.Stores graph' file reference' b)
    (weakens : Weakens loose scope scope' file reference reference') :
    Image loose graph graph' a b where
  inside := stores.inside
  inside' := stores'.inside
  weakens := by
    rw [stores.expression, stores'.expression]
    exact weakens

theorem LinksField.image {decl decl' : FieldDecl} {field field' : Field Literal}
    (links : scope.LinksField graph file decl field)
    (links' : scope'.LinksField graph' file decl' field')
    (like : decl.Like (Weakens loose scope scope' file) decl') :
    FieldImage loose graph graph' field field' where
  header := by rw [links'.header, like.header, links.header]
  id := by rw [links'.id, like.id, links.id]
  requiredness := by rw [links'.requiredness, like.requiredness, links.requiredness]
  type := links.type.image links'.type like.type
  default? := by rw [links'.default?, like.default?, links.default?]

theorem fieldImages {decls decls' : List FieldDecl} {fields fields' : List (Field Literal)}
    (links : List.Forall₂ (scope.LinksField graph file) decls fields)
    (links' : List.Forall₂ (scope'.LinksField graph' file) decls' fields')
    (like : List.Forall₂ (FieldDecl.Like (Weakens loose scope scope' file)) decls decls') :
    List.Forall₂ (FieldImage loose graph graph') fields fields' :=
  links.square like links' fun _ _ _ _ links like links' => links.image links' like

end Scope

theorem ConstantScope.constantIn?_eq_some_iff {scope : ConstantScope} (distinct : scope.Distinct)
    {file : FileId} {name : String} {index : Nat} :
    scope.constantIn? file name = some index ↔ ∃ constant,
      scope.model.constants[index]? = some constant ∧ constant.file = file ∧
        constant.name = name := by
  constructor
  · intro found
    obtain ⟨inside, same, _⟩ := List.findIdx?_eq_some_iff_getElem.mp found
    rw [Bool.and_eq_true, beq_iff_eq, beq_iff_eq] at same
    exact ⟨_, List.getElem?_eq_getElem inside, same⟩
  · rintro ⟨constant, found, rfl, rfl⟩
    obtain ⟨inside, at_index⟩ := List.getElem?_eq_some_iff.mp found
    refine List.findIdx?_eq_some_iff_getElem.mpr ⟨inside, by simp [at_index], fun other before => ?_⟩
    rw [Bool.not_eq_true, Bool.and_eq_false_iff]
    by_contra both
    simp only [not_or, Bool.not_eq_false, beq_iff_eq] at both
    exact before.ne (distinct.index_eq (List.getElem?_eq_getElem (before.trans inside)) found
      both.1 both.2)

namespace FileTable

open FileDeclarations

/-- Two tables declare the same types, in alike declarations. -/
structure Parallel (loose : Prop) (files files' : FileTable) (order : List FileId)
    (warnDeprecated : Bool) : Prop where
  includes : ∀ file, files'.includes file = files.includes file
  qualifier : ∀ file, files'.qualifier file = files.qualifier file
  graph : (files'.declared order).2.graph = (files.declared order).2.graph
  declarations : List.Forall₂ (FileDeclarations.Parallel (Scope.Weakens loose
    (files.typeScope order warnDeprecated) (files'.typeScope order warnDeprecated)))
    (files.declared order).1 (files'.declared order).1
  constants : ∀ accepted ∈ acceptedConstants (files.declared order).1,
    ∃ accepted' ∈ acceptedConstants (files'.declared order).1, accepted'.1 = accepted.1 ∧
      accepted.2.1.Like (Scope.Weakens loose (files.typeScope order warnDeprecated)
        (files'.typeScope order warnDeprecated) accepted.1) accepted'.2.1
  constants_back : ∀ accepted' ∈ acceptedConstants (files'.declared order).1,
    ∃ accepted ∈ acceptedConstants (files.declared order).1, accepted'.1 = accepted.1 ∧
      accepted.2.1.Like (Scope.Weakens loose (files.typeScope order warnDeprecated)
        (files'.typeScope order warnDeprecated) accepted.1) accepted'.2.1

namespace Parallel

variable {loose : Prop} {files files' : FileTable} {order : List FileId} {warnDeprecated : Bool}

section

variable (parallel : files.Parallel loose files' order warnDeprecated)

include parallel

theorem acceptedTypedefs : List.Forall₂ (AcceptedParallel fun file => TypedefDecl.Like
    (Scope.Weakens loose (files.typeScope order warnDeprecated)
      (files'.typeScope order warnDeprecated) file))
    (FileDeclarations.acceptedTypedefs (files.declared order).1)
    (FileDeclarations.acceptedTypedefs (files'.declared order).1) :=
  forall₂_accepted (List.rel_flatMap parallel.declarations fun _ _ both => both.typedefs)

theorem acceptedEnums : List.Forall₂ (AcceptedParallel fun _ decl decl' => decl' = decl)
    (FileDeclarations.acceptedEnums (files.declared order).1)
    (FileDeclarations.acceptedEnums (files'.declared order).1) :=
  forall₂_accepted (List.rel_flatMap parallel.declarations fun _ _ both => both.enums)

theorem acceptedStructs : List.Forall₂ (AcceptedParallel fun file => StructDecl.Like
    (Scope.Weakens loose (files.typeScope order warnDeprecated)
      (files'.typeScope order warnDeprecated) file))
    (FileDeclarations.acceptedStructs (files.declared order).1)
    (FileDeclarations.acceptedStructs (files'.declared order).1) :=
  forall₂_accepted (List.rel_flatMap parallel.declarations fun _ _ both => both.structs)

theorem acceptedServices : List.Forall₂ (AcceptedParallel fun file => ServiceDecl.Like
    (Scope.Weakens loose (files.typeScope order warnDeprecated)
      (files'.typeScope order warnDeprecated) file))
    (FileDeclarations.acceptedServices (files.declared order).1)
    (FileDeclarations.acceptedServices (files'.declared order).1) :=
  forall₂_accepted (List.rel_flatMap parallel.declarations fun _ _ both => both.services)

/-- The typedefs that are linked stand for images of the same targets. -/
theorem typedefs : List.Forall₂ (TypedefImage loose (files.literals order warnDeprecated).2
      (files'.literals order warnDeprecated).2)
    (files.literals order warnDeprecated).1.typedefs
    (files'.literals order warnDeprecated).1.typedefs := by
  refine (linksModel_literals files order warnDeprecated).typedefs.square
    parallel.acceptedTypedefs (linksModel_literals files' order warnDeprecated).typedefs ?_
  rintro ⟨file, decl, id⟩ typedef ⟨file', decl', id'⟩ typedef' links ⟨rfl, like, rfl⟩ links'
  refine ⟨?_, links'.id.trans links.id.symm, links.target.image links'.target like.target⟩
  rw [links'.header, like.header, links.header]

/-- The enums that are linked are the same. -/
theorem enums : (files'.literals order warnDeprecated).1.enums =
    (files.literals order warnDeprecated).1.enums := by
  have same : List.Forall₂ (fun enum enum' : EnumType => enum' = enum)
      (files.literals order warnDeprecated).1.enums
      (files'.literals order warnDeprecated).1.enums := by
    refine (linksModel_literals files order warnDeprecated).enums.square
      parallel.acceptedEnums (linksModel_literals files' order warnDeprecated).enums ?_
    rintro ⟨file, decl, id⟩ enum ⟨file', decl', id'⟩ enum' links ⟨rfl, rfl, rfl⟩ links'
    exact links'.same.trans links.same.symm
  exact List.forall₂_eq_eq_eq ▸ same.flip

/-- The structs that are linked have fields of images of the same types. -/
theorem structs : List.Forall₂ (StructImage loose (files.literals order warnDeprecated).2
      (files'.literals order warnDeprecated).2)
    (files.literals order warnDeprecated).1.structs
    (files'.literals order warnDeprecated).1.structs := by
  refine (linksModel_literals files order warnDeprecated).structs.square
    parallel.acceptedStructs (linksModel_literals files' order warnDeprecated).structs ?_
  rintro ⟨file, decl, id⟩ struct ⟨file', decl', id'⟩ struct' links ⟨rfl, like, rfl⟩ links'
  refine ⟨?_, ?_, ?_, ?_, Scope.fieldImages links.fields links'.fields like.fields⟩
  · rw [links'.header, like.header, links.header]
  · rw [links'.file, links.file]
  · rw [links'.id, links.id]
  · rw [links'.kind, like.kind, links.kind]

theorem mirrors_graph
    (behind : loose → ∀ id, ∃ actual, (files.literals order warnDeprecated).2.trueType id =
      some actual) :
    TypeGraph.Mirrors loose (files.literals order warnDeprecated).2
      (files'.literals order warnDeprecated).2 where
  wellFormed := wellFormed_literals files order warnDeprecated
  wellFormed' := wellFormed_literals files' order warnDeprecated
  kind? id := by
    rw [← LinksClearly.kind?_eq, ← LinksClearly.kind?_eq, typeScope, typeScope, parallel.graph]
  target a b leads := by
    have complete := complete_literals files order warnDeprecated
    have complete' := complete_literals files' order warnDeprecated
    have aliased := leads
    obtain ⟨user, found, is_typedef, _⟩ := aliased
    obtain ⟨typedef, listed, rfl⟩ := complete.listed a user found is_typedef
    obtain rfl := leads.unique (complete.aliased typedef listed)
    obtain ⟨typedef', listed', _, same, image⟩ := parallel.typedefs.exists_of_mem_left listed
    exact ⟨typedef'.target, same ▸ complete'.aliased typedef' listed', image⟩
  target_back a b' leads := by
    have complete := complete_literals files order warnDeprecated
    have complete' := complete_literals files' order warnDeprecated
    have aliased := leads
    obtain ⟨user, found, is_typedef, _⟩ := aliased
    obtain ⟨typedef', listed', rfl⟩ := complete'.listed a user found is_typedef
    obtain rfl := leads.unique (complete'.aliased typedef' listed')
    obtain ⟨typedef, listed, _, same, image⟩ := parallel.typedefs.exists_of_mem_right listed'
    exact ⟨typedef.target, same ▸ complete.aliased typedef listed, image⟩
  behind := behind

omit parallel in
theorem twins {index index' : Nat} {constant constant' : Constant Literal}
    (found : (files.literals order warnDeprecated).1.constants[index]? = some constant)
    (found' : (files'.literals order warnDeprecated).1.constants[index']? = some constant')
    {accepted accepted' : FileId × ConstantDecl × ConstantId}
    (links : (files.typeScope order warnDeprecated).LinksConstant
      (files.literals order warnDeprecated).2 accepted constant)
    (links' : (files'.typeScope order warnDeprecated).LinksConstant
      (files'.literals order warnDeprecated).2 accepted' constant')
    (same : accepted'.1 = accepted.1)
    (like : accepted.2.1.Like (Scope.Weakens loose (files.typeScope order warnDeprecated)
      (files'.typeScope order warnDeprecated) accepted.1) accepted'.2.1) :
    ConstantScope.Twins loose (files.constantScope order warnDeprecated)
      (files'.constantScope order warnDeprecated) index index' := by
  refine ⟨constant, constant', found, found', ?_, ?_, ?_, ?_⟩
  · rw [links'.header, like.header, links.header]
  · rw [links'.file, same, links.file]
  · exact links.type.image (same ▸ links'.type) like.type
  · rw [links'.value, like.value, links.value]

/-- A name stands for twins, or for nothing on either side. -/
theorem constantIn?_rel (file : FileId) (name : String) :
    Option.Rel (ConstantScope.Twins loose (files.constantScope order warnDeprecated)
        (files'.constantScope order warnDeprecated))
      ((files.constantScope order warnDeprecated).constantIn? file name)
      ((files'.constantScope order warnDeprecated).constantIn? file name) := by
  have distinct := distinct_constantScope files order warnDeprecated
  have distinct' := distinct_constantScope files' order warnDeprecated
  have linked := (linksModel_literals files order warnDeprecated).constants
  have linked' := (linksModel_literals files' order warnDeprecated).constants
  cases here : (files.constantScope order warnDeprecated).constantIn? file name with
  | some index =>
      obtain ⟨constant, found, rfl, rfl⟩ := (ConstantScope.constantIn?_eq_some_iff distinct).mp here
      obtain ⟨accepted, listed, links⟩ :=
        linked.exists_of_mem_right (List.mem_of_getElem? found)
      obtain ⟨accepted', listed', same, like⟩ := parallel.constants accepted listed
      obtain ⟨constant', member, links'⟩ := linked'.exists_of_mem_left listed'
      obtain ⟨index', found'⟩ := List.getElem?_of_mem member
      have there : (files'.constantScope order warnDeprecated).constantIn? constant.file
          constant.name = some index' := by
        refine (ConstantScope.constantIn?_eq_some_iff distinct').mpr ⟨constant', found', ?_, ?_⟩
        · rw [links'.file, same, links.file]
        · rw [Constant.name, links'.header, like.header, Constant.name, links.header]
      rw [there]
      exact .some (twins found found' links links' same like)
  | none =>
      cases there : (files'.constantScope order warnDeprecated).constantIn? file name with
      | none => exact .none
      | some index' =>
          obtain ⟨constant', found', rfl, rfl⟩ :=
            (ConstantScope.constantIn?_eq_some_iff distinct').mp there
          obtain ⟨accepted', listed', links'⟩ :=
            linked'.exists_of_mem_right (List.mem_of_getElem? found')
          obtain ⟨accepted, listed, same, like⟩ := parallel.constants_back accepted' listed'
          obtain ⟨constant, member, links⟩ := linked.exists_of_mem_left listed
          obtain ⟨index, found⟩ := List.getElem?_of_mem member
          have again : (files.constantScope order warnDeprecated).constantIn? constant'.file
              constant'.name = some index := by
            refine (ConstantScope.constantIn?_eq_some_iff distinct).mpr ⟨constant, found, ?_, ?_⟩
            · rw [links'.file, same, links.file]
            · rw [Constant.name, links.header, Constant.name, links'.header, like.header]
          rw [again] at here
          cases here

/-- Of the scopes that parallel linking gives, one mirrors the other. -/
theorem mirrors
    (behind : loose → ∀ id, ∃ actual, (files.literals order warnDeprecated).2.trueType id =
      some actual) :
    ConstantScope.Mirrors loose (files.constantScope order warnDeprecated)
      (files'.constantScope order warnDeprecated) where
  graph := parallel.mirrors_graph behind
  includes := parallel.includes
  qualifier := parallel.qualifier
  enums := parallel.enums
  enumKind _ := kind?_of_mem_enums files order warnDeprecated
  structs := parallel.structs
  structKind _ member := ⟨_, kind?_of_mem_structs files order warnDeprecated member⟩
  constantIn? := parallel.constantIn?_rel

end

end Parallel
end FileTable
end IdlSchema

/-! # Typedefs and services that are linked in parallel -/

namespace IdlSchema

open Diagnostics TypeGraph

/-- A method is the same as another with images of its types. -/
structure MethodImage (loose : Prop) (graph mirror : TypeGraph) (method method' : Method Literal) :
    Prop where
  header : method'.header = method.header
  oneWay : method'.oneWay = method.oneWay
  returnType : Image loose graph mirror method.returnType method'.returnType
  parameters : List.Forall₂ (FieldImage loose graph mirror) method.parameters method'.parameters
  exceptions : List.Forall₂ (FieldImage loose graph mirror) method.exceptions method'.exceptions

/-- A service is the same as another with images of its types, if its base is not left out. -/
structure ServiceImage (loose : Prop) (graph mirror : TypeGraph)
    (service service' : ServiceType Literal) : Prop where
  header : service'.header = service.header
  file : service'.file = service.file
  id : service'.id = service.id
  base? : ∀ base', service'.base? = some base' →
    ∃ base, service.base? = some base ∧ Image loose graph mirror base base'
  methods : List.Forall₂ (MethodImage loose graph mirror) service.methods service'.methods

namespace Scope

variable {loose : Prop} {scope scope' : Scope} {graph graph' : TypeGraph} {file : FileId}

theorem LinksMethod.image {decl decl' : FunctionDecl} {method method' : Method Literal}
    (links : scope.LinksMethod graph file decl method)
    (links' : scope'.LinksMethod graph' file decl' method')
    (like : decl.Like (Weakens loose scope scope' file) decl') :
    MethodImage loose graph graph' method method' where
  header := by rw [links'.header, like.header, links.header]
  oneWay := by rw [links'.oneWay, like.oneWay, links.oneWay]
  returnType := links.returnType.image links'.returnType like.returnType
  parameters := fieldImages links.parameters links'.parameters like.parameters
  exceptions := fieldImages links.exceptions links'.exceptions like.exceptions

/-- A base that is not left out was not left out before. -/
theorem LinksBase.exists_image (wellFormed : graph.WellFormed) (wellFormed' : graph'.WellFormed)
    {reference? reference?' : Option TypeReference} {base? base?' : Option TypeId}
    (links : scope.LinksBase graph file reference? base?)
    (links' : scope'.LinksBase graph' file reference?' base?')
    (like : Option.Rel (Weakens loose scope scope' file) reference? reference?') {base' : TypeId}
    (given : base?' = Option.some base') :
    ∃ base, base? = Option.some base ∧ Image loose graph graph' base base' := by
  cases links' with
  | none => cases given
  | failed _ => cases given
  | some stores' valid =>
      obtain rfl := Option.some.inj given
      cases like with
      | some weakens =>
          cases links with
          | some stores _ => exact ⟨_, rfl, stores.image stores' weakens⟩
          | failed stores =>
              have failed := (stores.image stores' weakens).weakens
              rw [expression_invalid wellFormed.invalid] at failed
              generalize at_base : graph'.expression _ = expression at failed
              refine absurd (wellFormed'.eq_of_expression_invalid stores'.inside ?_) valid
              rw [at_base]
              cases failed <;> rfl

end Scope

namespace TypedefType

variable {loose : Prop} {graph mirror : TypeGraph} {typedefs typedefs' : List TypedefType}

/-- What typedefs mention in a mirror, they mention. -/
theorem points_of_images (images : List.Forall₂ (TypedefImage loose graph mirror) typedefs typedefs')
    {place other : Nat} (points : (mentionGraph mirror typedefs').Points place other) :
    (mentionGraph graph typedefs).Points place other := by
  have places (id : TypeId) : typedefs'.findIdx? (·.id == id) = typedefs.findIdx? (·.id == id) :=
    images.findIdx?_eq fun _ _ image => congrArg (· == id) image.id
  have inside := Digraph.lt_size_of_points points
  rw [Digraph.size, mentionGraph, List.length_map] at inside
  obtain ⟨typedef, found, image⟩ := images.flip.getElem? (List.getElem?_eq_getElem inside)
  simp only [Digraph.Points, Digraph.successors, mentionGraph, List.getD_eq_getElem?_getD,
    List.getElem?_map, List.getElem?_eq_getElem inside, found, Option.map_some, Option.getD_some,
    mentions, List.mem_eraseDups, List.mem_filterMap] at points ⊢
  obtain ⟨id, mentioned, at_id⟩ := points
  exact ⟨id, image.target.weakens.users_subset mentioned, places id ▸ at_id⟩

theorem clear_cycleProblems_of_images
    (images : List.Forall₂ (TypedefImage loose graph mirror) typedefs typedefs')
    (clear : Clear (cycleProblems graph typedefs)) : Clear (cycleProblems mirror typedefs') := by
  rw [clear_cycleProblems_iff] at clear ⊢
  exact fun place cycle =>
    clear place (Relation.TransGen.mono (fun _ _ => points_of_images images) place place cycle)

end TypedefType

namespace FileTable

variable {loose : Prop} {files files' : FileTable} {order : List FileId} {warnDeprecated : Bool}

/-- The services that are linked have methods of images of the same types. -/
theorem Parallel.services (parallel : files.Parallel loose files' order warnDeprecated) :
    List.Forall₂ (ServiceImage loose (files.literals order warnDeprecated).2
        (files'.literals order warnDeprecated).2)
      (files.literals order warnDeprecated).1.services
      (files'.literals order warnDeprecated).1.services := by
  have wellFormed := wellFormed_literals files order warnDeprecated
  have wellFormed' := wellFormed_literals files' order warnDeprecated
  refine (linksModel_literals files order warnDeprecated).services.square
    parallel.acceptedServices (linksModel_literals files' order warnDeprecated).services ?_
  rintro ⟨file, decl, id⟩ service ⟨file', decl', id'⟩ service' links ⟨rfl, like, rfl⟩ links'
  refine ⟨?_, ?_, ?_, fun base' given => ?_, ?_⟩
  · rw [links'.header, like.header, links.header]
  · rw [links'.file, links.file]
  · rw [links'.id, links.id]
  · exact links.base?.exists_image wellFormed wellFormed' links'.base? like.base? given
  · exact links.methods.square like.functions links'.methods
      fun _ _ _ _ links like links' => links.image links' like

theorem kind?_of_mem_services (files : FileTable) (order : List FileId) (warnDeprecated : Bool)
    {service : ServiceType Literal}
    (member : service ∈ (files.literals order warnDeprecated).1.services) :
    (files.literals order warnDeprecated).2.kind? service.id = some .service := by
  obtain ⟨accepted, listed, links⟩ :=
    (linksModel_literals files order warnDeprecated).services.exists_of_mem_right member
  rw [links.id]
  exact kind?_literals_of_mem files order warnDeprecated
    (FileDeclarations.mem_users_iff.mpr (.inr (.inr (.inr ⟨accepted, listed, rfl⟩))))

end FileTable
end IdlSchema
