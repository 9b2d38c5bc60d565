import Mathlib
import IdlSchema.Proofs.Link.EnumValues
import IdlSchema.Proofs.Link.TypeResolution
import IdlSchema.Proofs.Schema.KeptRoots
import IdlSchema.Schema.Dump

/-!
# Blocks as they are written

The declarations of a schema are kept in the order in which the files are linked, and the text of a
schema has them file by file.  As nothing is left out of a schema that is built, and nothing else
comes in, each block can be read off the tree of its file alone: the declarations that are written
there, kind by kind and in the order of the source, with names for what their types stand for.
-/

namespace IdlSchema

open Schema (annotationLines)

/-! ## The text of what is written -/

namespace Scope

variable (scope : Scope) (value : FileId → TypeId → Literal → Option ConstantValue) (file : FileId)

/-- The qualified name of what is declared in a file. -/
def writtenName (header : Header) : String :=
  QualifiedName.text { file, qualifier := scope.files.qualifier file, name := header.name }

/-- A type reference, with the qualified name of each declared type in it. -/
def writtenType (reference : TypeReference) : String :=
  (scope.denote file reference).text scope.graph.userName

/-- The place of the type that a reference stands for. -/
def typeOf (reference : TypeReference) : TypeId :=
  (scope.link file reference scope.graph).1

/-- The value of a literal at a type.  There is nothing to show of a literal without a value. -/
def writtenValue (type : TypeReference) (literal : Literal) : String :=
  ((value file (scope.typeOf file type) literal).map (Schema.valueText scope.graph)).getD ""

/-- A field that is written, without its number and its requiredness. -/
def writtenParameter (decl : FieldDecl) : String :=
  let default := (decl.default?.map fun literal =>
    " = " ++ scope.writtenValue value file decl.type literal).getD ""
  scope.writtenType file decl.type ++ " " ++ decl.header.name ++ default

/-- The line of a field that is written in a struct. -/
def writtenField (decl : FieldDecl) : String :=
  "  " ++ (toString decl.id.toInt ++ ": " ++ decl.requiredness.text ++ " " ++
    scope.writtenParameter value file decl)

/-- Parameters or exceptions that are written. -/
def writtenParameters (decls : List FieldDecl) : String :=
  "(" ++ ", ".intercalate (decls.map fun decl =>
    toString decl.id.toInt ++ ": " ++ scope.writtenParameter value file decl) ++ ")"

/-- The lines of a typedef that is written. -/
def writtenTypedef (annotations : Bool) (decl : TypedefDecl) : List String :=
  ("typedef " ++ scope.writtenName file decl.header ++ " = " ++
      scope.writtenType file decl.target) ::
    annotationLines annotations decl.header

/-- The lines of an enum that is written. -/
def writtenEnum (annotations : Bool) (decl : EnumDecl) : List String :=
  ("enum " ++ scope.writtenName file decl.header) ::
    (annotationLines annotations decl.header ++
      (withIdealValues none decl.members).map fun (member, value) =>
        "  " ++ member.header.name ++ " = " ++ toString value)

/-- The lines of a struct, a union or an exception that is written. -/
def writtenStruct (annotations : Bool) (decl : StructDecl) : List String :=
  (decl.kind.text ++ " " ++ scope.writtenName file decl.header) ::
    (annotationLines annotations decl.header ++
      decl.fields.map (scope.writtenField value file))

/-- The line of a method that is written. -/
def writtenMethod (decl : FunctionDecl) : String :=
  let throws := if decl.exceptions.isEmpty then ""
    else " throws " ++ scope.writtenParameters value file decl.exceptions
  "  " ++ (if decl.oneWay then "oneway " else "") ++ scope.writtenType file decl.returnType ++ " " ++
    decl.header.name ++ scope.writtenParameters value file decl.parameters ++ throws

/-- The lines of a service that is written. -/
def writtenService (annotations : Bool) (decl : ServiceDecl) : List String :=
  let base := (decl.base?.map fun base => " extends " ++ scope.writtenType file base).getD ""
  ("service " ++ scope.writtenName file decl.header ++ base) ::
    (annotationLines annotations decl.header ++
      decl.functions.map (scope.writtenMethod value file))

/-- The line of a constant that is written. -/
def writtenConstant (decl : ConstantDecl) : String :=
  "const " ++ decl.header.name ++ ": " ++ scope.writtenType file decl.type ++ " = " ++
    scope.writtenValue value file decl.type decl.value

/-- The lines of all that is declared in the tree of a file: each declaration once, in order. -/
def writtenDeclarations (annotations : Bool) (tree : FileTree) : List String :=
  tree.typedefs.flatMap (scope.writtenTypedef file annotations) ++
    tree.enums.flatMap (scope.writtenEnum file annotations) ++
    tree.structs.flatMap (scope.writtenStruct value file annotations) ++
    tree.services.flatMap (scope.writtenService value file annotations) ++
    tree.constants.map (scope.writtenConstant value file)

end Scope

namespace FileTable

variable (files : FileTable) (annotations : Bool)

/-- The block of a file, read off its tree. -/
def writtenBlock (id : FileId) (file : SchemaFile) : List String :=
  ("file " ++ file.path ++ " (prefix " ++ file.qualifier ++ ")") ::
    (file.tree.namespaces.map (fun decl => "  namespace " ++ decl.scope ++ " " ++ decl.name) ++
      file.includes.map (fun included => "  include " ++ files.path included) ++
      (files.linkedScope files.dependencyOrder true).writtenDeclarations
        (files.literalValue files.dependencyOrder true) id annotations file.tree)

/-- The blocks of all files in the order of the table, with a blank line between. -/
def writtenText : String :=
  "\n".intercalate (files.files.zipIdx.map fun (file, index) =>
    String.join ((files.writtenBlock annotations ⟨index⟩ file).map (· ++ "\n")))

end FileTable

/-! ## What is kept is shown as it is written -/

namespace Scope

variable {scope : Scope} {value : FileId → TypeId → Literal → Option ConstantValue} {file : FileId}

theorem Stores.typeName {reference : TypeReference} {id : TypeId}
    (stores : scope.Stores scope.graph file reference id) :
    scope.graph.typeName id = scope.writtenType file reference := by
  rw [TypeGraph.typeName, stores.expression, writtenType]

/-- A stored type is found again, and nothing is added for it. -/
theorem Stores.typeOf_eq (wellFormed : scope.graph.WellFormed) {reference : TypeReference}
    {id : TypeId} (stores : scope.Stores scope.graph file reference id) :
    scope.typeOf file reference = id := by
  have adds := TypeGraph.adds_internExpression wellFormed (declares_denote wellFormed file reference)
  have kept := wellFormed.expression_extends adds.wellFormed adds.extension stores.inside
  refine adds.wellFormed.expression_inj adds.inside ?_ ?_
  · exact stores.inside.trans_le adds.extension.size_le
  · exact adds.expression.trans (stores.expression.symm.trans kept.symm)

theorem Stores.writtenValue (wellFormed : scope.graph.WellFormed) {type : TypeReference}
    {id : TypeId} (stores : scope.Stores scope.graph file type id) {literal : Literal}
    {constant : ConstantValue} (known : value file id literal = some constant) :
    scope.writtenValue value file type literal = Schema.valueText scope.graph constant := by
  rw [Scope.writtenValue, stores.typeOf_eq wellFormed, known]
  rfl

/-- The graph knows a declared type by the name that is written. -/
theorem typeName_eq_writtenName {header : Header} {kind : UserTypeKind} {id : TypeId}
    {target? : Option TypeId} (declares : scope.graph.user? id =
      some (.linked scope.files file header kind id target?)) :
    scope.graph.typeName id = scope.writtenName file header :=
  TypeGraph.typeName_of_user? declares

theorem MirrorsField.parameterText (wellFormed : scope.graph.WellFormed) {decl : FieldDecl}
    {field : Field ConstantValue} (mirrors : scope.MirrorsField value file decl field)
    (keeps : KeepsField decl field) :
    Schema.parameterText scope.graph field = scope.writtenParameter value file decl := by
  have name : field.name = decl.header.name := congrArg Header.name mirrors.header
  have default : (field.default?.map fun value => " = " ++ Schema.valueText scope.graph value) =
      decl.default?.map fun literal => " = " ++ scope.writtenValue value file decl.type literal := by
    have found := mirrors.default?
    have kept := keeps.default?
    cases written : decl.default? with
    | none => rw [found, written, Option.bind_none, Option.map_none, Option.map_none]
    | some literal =>
        rw [written, Option.isSome_some] at kept
        obtain ⟨constant, known⟩ := Option.isSome_iff_exists.mp kept
        rw [written, known, Option.bind_some] at found
        rw [known, Option.map_some, Option.map_some,
          mirrors.type.writtenValue wellFormed found.symm]
  rw [Schema.parameterText, writtenParameter, mirrors.type.typeName, name, default]

end Scope

namespace Schema

variable {schema : Schema} (wellFormed : schema.graph.WellFormed) {file : FileId}
  (annotations : Bool)

theorem typedefLines_eq {decl : TypedefDecl} {typedef : TypedefType}
    (mirrors : schema.scope.MirrorsTypedef (file, decl) typedef) :
    schema.typedefLines annotations typedef = schema.scope.writtenTypedef file annotations decl := by
  have name : schema.graph.typeName typedef.id = schema.scope.writtenName file decl.header :=
    Scope.typeName_eq_writtenName mirrors.declares
  have target : schema.graph.typeName typedef.target = schema.scope.writtenType file decl.target :=
    mirrors.target.typeName
  rw [typedefLines, Scope.writtenTypedef, name, target, mirrors.header]

/-- No member is left out of an enum that is kept, and each has its value over all integers. -/
theorem members_eq {decl : EnumDecl} {enum : EnumType}
    (keeps : KeepsEnum (file, decl) enum) (mirrors : schema.scope.MirrorsEnum (file, decl) enum) :
    enum.members.map (fun member => (member.header, member.value.toInt)) =
      (withIdealValues none decl.members).map fun entry => (entry.1.header, entry.2) := by
  have counted := (map_linkMembers decl.members inStep_zero).1
  rw [← mirrors.members] at counted
  have all : ((withIdealValues none decl.members).filter fun entry => IsInt32 entry.2).length =
      (withIdealValues none decl.members).length := by
    have lengths := congrArg List.length counted
    rw [List.length_map, List.length_map] at lengths
    rw [← lengths, ← keeps.members.length_eq, length_withIdealValues]
  rw [counted, List.filter_eq_self.mpr (List.length_filter_eq_length_iff.mp all)]

theorem enumLines_eq {decl : EnumDecl} {enum : EnumType}
    (keeps : KeepsEnum (file, decl) enum) (mirrors : schema.scope.MirrorsEnum (file, decl) enum) :
    schema.enumLines annotations enum = schema.scope.writtenEnum file annotations decl := by
  have name : schema.graph.typeName enum.id = schema.scope.writtenName file decl.header :=
    Scope.typeName_eq_writtenName mirrors.declares
  have members := congrArg
    (List.map fun entry : Header × Int => "  " ++ entry.1.name ++ " = " ++ toString entry.2)
    (members_eq keeps mirrors)
  rw [List.map_map, List.map_map] at members
  rw [enumLines, Scope.writtenEnum, name, mirrors.header]
  exact congrArg (fun lines => _ :: (_ ++ lines)) members

include wellFormed

theorem structLines_eq {decl : StructDecl} {struct : StructType ConstantValue}
    (keeps : KeepsStruct (file, decl) struct)
    (mirrors : schema.scope.MirrorsStruct schema.literalValue (file, decl) struct) :
    schema.structLines annotations struct =
      schema.scope.writtenStruct schema.literalValue file annotations decl := by
  have name : schema.graph.typeName struct.id = schema.scope.writtenName file decl.header :=
    Scope.typeName_eq_writtenName mirrors.declares
  have fields : struct.fields.map (fun field => "  " ++ numberedField schema.graph field) =
      decl.fields.map (schema.scope.writtenField schema.literalValue file) := by
    refine (keeps.fields.and mirrors.fields).map_eq fun decl field both => ?_
    have text : parameterText schema.graph field = _ := both.2.parameterText wellFormed both.1
    rw [numberedField, Scope.writtenField, text, both.1.id, both.1.requiredness]
  rw [structLines, Scope.writtenStruct, name, mirrors.header, mirrors.kind, fields]

theorem numberedParameters_eq {decls : List FieldDecl} {fields : List (Field ConstantValue)}
    (keeps : List.Forall₂ KeepsField decls fields)
    (mirrors : List.Forall₂ (schema.scope.MirrorsField schema.literalValue file) decls fields) :
    "(" ++ ", ".intercalate (fields.map (numberedParameter schema.graph)) ++ ")" =
      schema.scope.writtenParameters schema.literalValue file decls := by
  have each : fields.map (numberedParameter schema.graph) = decls.map fun decl =>
      toString decl.id.toInt ++ ": " ++
        schema.scope.writtenParameter schema.literalValue file decl := by
    refine (keeps.and mirrors).map_eq fun decl field both => ?_
    have text : parameterText schema.graph field = _ := both.2.parameterText wellFormed both.1
    rw [numberedParameter, text, both.1.id]
  rw [Scope.writtenParameters, each]

theorem methodLine_eq {decl : FunctionDecl} {method : Method ConstantValue}
    (keeps : KeepsMethod decl method)
    (mirrors : schema.scope.MirrorsMethod schema.literalValue file decl method) :
    schema.methodLine method = schema.scope.writtenMethod schema.literalValue file decl := by
  have name : method.name = decl.header.name := congrArg Header.name mirrors.header
  have result : schema.graph.typeName method.returnType = _ := mirrors.returnType.typeName
  have unthrown : method.exceptions.isEmpty = decl.exceptions.isEmpty := by
    rw [Bool.eq_iff_iff, List.isEmpty_iff_length_eq_zero, List.isEmpty_iff_length_eq_zero,
      keeps.exceptions.length_eq]
  rw [methodLine, Scope.writtenMethod]
  dsimp only
  rw [numberedParameters_eq wellFormed keeps.parameters mirrors.parameters,
    numberedParameters_eq wellFormed keeps.exceptions mirrors.exceptions, name, result, unthrown,
    mirrors.oneWay]

theorem serviceLines_eq {decl : ServiceDecl} {service : ServiceType ConstantValue}
    (keeps : KeepsService (file, decl) service)
    (mirrors : schema.scope.MirrorsService schema.literalValue (file, decl) service) :
    schema.serviceLines annotations service =
      schema.scope.writtenService schema.literalValue file annotations decl := by
  have name : schema.graph.typeName service.id = schema.scope.writtenName file decl.header :=
    Scope.typeName_eq_writtenName mirrors.declares
  have base : (service.base?.map fun base => " extends " ++ schema.graph.typeName base) =
      decl.base?.map fun base => " extends " ++ schema.scope.writtenType file base := by
    have kept := keeps.base?
    have links := mirrors.base?
    generalize decl.base? = base? at kept links
    generalize service.base? = id? at kept links
    cases links with
    | none => rfl
    | failed _ => cases kept
    | some stores _ =>
        exact congrArg (fun text => some (" extends " ++ text)) stores.typeName
  have methods : service.methods.map schema.methodLine =
      decl.functions.map (schema.scope.writtenMethod schema.literalValue file) :=
    (keeps.methods.and mirrors.methods).map_eq fun _ _ both =>
      methodLine_eq wellFormed both.1 both.2
  rw [serviceLines, Scope.writtenService, name, base, mirrors.header, methods]

theorem constantLine_eq {decl : ConstantDecl} {constant : Constant ConstantValue}
    (mirrors : schema.scope.MirrorsConstant schema.literalValue (file, decl) (some constant)) :
    schema.constantLine constant =
      schema.scope.writtenConstant schema.literalValue file decl := by
  obtain ⟨type, stores, valued⟩ := mirrors
  obtain ⟨value, known, rfl⟩ := Option.map_eq_some_iff.mp valued.symm
  have name : schema.graph.typeName type = _ := stores.typeName
  have text : schema.scope.writtenValue schema.literalValue file decl.type decl.value =
      valueText schema.graph value := stores.writtenValue wellFormed known
  rw [constantLine, Scope.writtenConstant, text, ← name]
  rfl

/-- The declarations of a file that is kept are shown as they are written in its tree. -/
theorem declarationLines_eq {tree : FileTree} (keeps : schema.Keeps file tree) :
    schema.declarationLines annotations file =
      schema.scope.writtenDeclarations schema.literalValue file annotations tree := by
  have typedefs := (List.forall₂_map_left_iff.mp keeps.typedefs).map_eq
    fun _ _ mirrors => typedefLines_eq annotations mirrors
  have enums := (List.forall₂_map_left_iff.mp keeps.enums).map_eq
    fun _ _ both => enumLines_eq annotations both.1 both.2
  have structs := (List.forall₂_map_left_iff.mp keeps.structs).map_eq
    fun _ _ both => structLines_eq wellFormed annotations both.1 both.2
  have services := (List.forall₂_map_left_iff.mp keeps.services).map_eq
    fun _ _ both => serviceLines_eq wellFormed annotations both.1 both.2
  have constants := (List.forall₂_map_left_iff.mp keeps.constants).map_eq
    fun _ _ both => constantLine_eq wellFormed both.2
  simp only [declarationLines, Scope.writtenDeclarations, List.flatMap_def, typedefs, enums, structs,
    services, constants]

end Schema

/-! ## Whole texts -/

namespace Build

variable {files : FileTable} {found : Diagnostics} {warnDeprecated strict : Bool} {schema : Schema}

/-- In a schema that is built, names stand for what they do where all warnings are wanted. -/
theorem scope_of_finish (succeeds : (ofFiles files found warnDeprecated).finish strict = .ok schema) :
    schema.scope = files.linkedScope files.dependencyOrder true := by
  obtain ⟨_, rfl⟩ := clear_of_finish succeeds
  rw [Schema.scope, FileTable.linkedScope, files.graph_link_eq _ warnDeprecated]

/-- A schema that is built is shown as it is written in its files. -/
theorem dump_of_finish (succeeds : (ofFiles files found warnDeprecated).finish strict = .ok schema)
    (annotations : Bool) : schema.dump annotations = files.writtenText annotations := by
  obtain ⟨same_files, keeps⟩ := keeps_of_finish succeeds
  have scope := scope_of_finish succeeds
  have value : schema.literalValue = files.literalValue files.dependencyOrder true := by
    rw [Schema.literalValue, same_files]
  have wellFormed : schema.scope.graph.WellFormed :=
    scope ▸ files.wellFormed_literals files.dependencyOrder true
  have blocks : (schema.files.files.zipIdx.map fun entry =>
        schema.fileLines annotations ⟨entry.2⟩ entry.1) =
      files.files.zipIdx.map fun entry => files.writtenBlock annotations ⟨entry.2⟩ entry.1 := by
    rw [same_files]
    refine List.map_congr_left fun entry member => ?_
    obtain ⟨file, index⟩ := entry
    have at_index : files.get? ⟨index⟩ = some file := List.mem_zipIdx_iff_getElem?.mp member
    have listed : (⟨index⟩ : FileId) ∈ files.ids :=
      (FileTable.mem_ids files).mpr (FileTable.get?_eq_some_iff.mp ⟨file, at_index⟩)
    have tree : files.tree ⟨index⟩ = file.tree := by
      rw [FileTable.tree, at_index, Option.map_some, Option.getD_some]
    have declarations := Schema.declarationLines_eq wellFormed annotations (keeps ⟨index⟩ listed)
    rw [tree, scope, value] at declarations
    dsimp only
    rw [Schema.fileLines, FileTable.writtenBlock, declarations, same_files]
  rw [Schema.dump, FileTable.writtenText]
  dsimp only
  rw [blocks, List.map_map]
  rfl

end Build

namespace Schema

variable {m : Type → Type} [Monad m] [LawfulMonad m]

/--
Whatever the resolver finds, the text of a schema that is built is what is written in the files that
are loaded.
-/
theorem dump_build (resolver : IncludeResolver m) (config : SchemaConfig) (roots : List FileTree)
    (annotations : Bool) :
    (fun result => result.map (·.dump annotations)) <$> build resolver config roots =
      (fun (files, found) =>
        ((Build.ofFiles files found config.warnDeprecated).finish config.strict).map
          fun _ => files.writtenText annotations) <$>
        FileTable.load resolver config.maxIncludeDepth.toNat roots := by
  rw [build, map_bind]
  simp only [map_pure]
  rw [← bind_pure_comp]
  refine bind_congr fun loaded => ?_
  obtain ⟨files, found⟩ := loaded
  dsimp only
  cases finished : (Build.ofFiles files found config.warnDeprecated).finish config.strict with
  | error _ => rfl
  | ok schema => rw [Except.map, Except.map, Build.dump_of_finish finished]

end Schema

/-- Two files with one prefix, where a struct of the first one has an enum of the second one. -/
def orderAndSize : List FileTree :=
  let header (name : String) : Header := .plain name (.start "shop.thrift")
  let size : TypeReference := .named (.start "shop.thrift") "Size" .empty
  [{ FileTree.empty "x/shop.thrift" with
      includes := [⟨.start "x/shop.thrift", "y/shop.thrift"⟩]
      structs := [⟨header "Order", .struct, [⟨header "size", 1, .required, size, none⟩]⟩] },
    { FileTree.empty "y/shop.thrift" with
      enums := [⟨header "Size", [⟨header "SMALL", none⟩, ⟨header "LARGE", some 4⟩]⟩] }]

namespace Schema

set_option maxRecDepth 10000 in
/-- The second file is linked before the first one and shown behind it. -/
theorem dump_build_orderAndSize :
    (build (m := Id) .none .standard orderAndSize).map (·.dump false) =
      .ok ("file x/shop.thrift (prefix shop)\n  include y/shop.thrift\n" ++
        "struct shop.Order\n  1: required shop.Size size\n\n" ++
        "file y/shop.thrift (prefix shop)\nenum shop.Size\n  SMALL = 0\n  LARGE = 4\n") := by
  have shown := dump_build (m := Id) .none .standard orderAndSize false
  exact shown.trans (by cbv)

end Schema
end IdlSchema
