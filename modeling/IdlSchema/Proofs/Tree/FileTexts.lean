import Mathlib
import IdlSchema.Disk.Origins
import IdlSchema.Proofs.Tree.RestoredTrees

/-!
# Files through JSON text

Whatever is written for a file is text in every part, so reading it gives its encoding, and decoding
that gives the file.  The main result is `FileTree.ofText?_compact_toJson`; all it assumes of
doubles is that each of the file's own is read back from what is written for it.
-/

namespace IdlSchema

namespace Json

/-- The text that is written for a double is read as the same double. -/
def ReadsBack (x : Float) : Prop :=
  ∃ json, read (float x).compact = .ok json ∧ json.float? = some x

theorem isText_int (i : Int) : (int i).IsText :=
  .number fun _ member => nomatch member

theorem isText_float (x : Float) : (float x).IsText := by
  rw [float]
  cases found : Numeral.ofFloat? x with
  | none => exact .null
  | some numeral => exact .number (.of_float found)

/-- A double is read back exactly when its numeral is read as the same double. -/
theorem readsBack_iff {x : Float} : ReadsBack x ↔ Restored x := by
  rw [ReadsBack, read_compact (isText_float x), Restored]
  constructor
  · rintro ⟨json, found, same⟩
    rw [Except.ok.inj found]
    exact same
  · exact fun same => ⟨_, rfl, same⟩

end Json

/-! ## What is written for a file is text -/

namespace Encode

open Json (IsText isText_int)

theorem isText_nullable {α : Type} {encode : α → Json} (each : ∀ value, (encode value).IsText)
    (value? : Option α) : (nullable encode value?).IsText := by
  cases value? with
  | none => exact .null
  | some value => exact each value

theorem isText_list {α : Type} {encode : α → Json} (each : ∀ value, (encode value).IsText)
    (values : List α) : (list encode values).IsText := by
  refine .array fun item member => ?_
  obtain ⟨value, _, rfl⟩ := List.mem_map.mp member
  exact each value

theorem isText_location (place : Location) : (location place).IsText := by
  refine .object ?_
  simp only [List.forall_mem_cons]
  exact ⟨.string _, isText_int _, isText_int _, List.forall_mem_nil _⟩

theorem isText_annotations (notes : Annotations) : (annotations notes).IsText := by
  refine .object fun field member => ?_
  obtain ⟨entry, _, rfl⟩ := List.mem_map.mp member
  exact .string _

/-- A declaration is text when its own fields are. -/
theorem isText_declaration (header : Header) {own : List (String × Json)}
    (each : ∀ field ∈ own, field.2.IsText) : (Json.object (headerFields header ++ own)).IsText := by
  refine .object (List.forall_mem_append.mpr ⟨?_, each⟩)
  simp only [headerFields, List.forall_mem_cons]
  exact ⟨.string _, isText_location _, .string _, isText_annotations _, List.forall_mem_nil _⟩

theorem isText_type (reference : TypeReference) : (type reference).IsText := by
  induction reference with
  | named start name notes =>
      refine .object ?_
      simp only [List.forall_mem_cons]
      exact ⟨.string _, isText_location _, .string _, isText_annotations _, List.forall_mem_nil _⟩
  | list start element notes text | set start element notes text =>
      refine .object ?_
      simp only [List.forall_mem_cons]
      exact ⟨.string _, isText_location _, text, isText_annotations _, List.forall_mem_nil _⟩
  | map start key value notes key_text value_text =>
      refine .object ?_
      simp only [List.forall_mem_cons]
      exact ⟨.string _, isText_location _, key_text, value_text, isText_annotations _,
        List.forall_mem_nil _⟩

theorem isText_tagged (start : Location) (kind : String) {content : Json} (text : content.IsText) :
    (tagged start kind content).IsText := by
  have inside : (Json.object [("kind", .string kind), ("value", content)]).IsText := by
    refine .object ?_
    simp only [List.forall_mem_cons]
    exact ⟨.string _, text, List.forall_mem_nil _⟩
  refine .object ?_
  simp only [List.forall_mem_cons]
  exact ⟨isText_location _, inside, List.forall_mem_nil _⟩

mutual

theorem isText_value (v : Literal) : (value v).IsText := by
  cases v with
  | integer start i => exact isText_tagged start _ (isText_int _)
  | double start x => exact isText_tagged start _ (Json.isText_float x)
  | string start text | identifier start text => exact isText_tagged start _ (.string _)
  | list start items => exact isText_tagged start _ (.array (isText_values items))
  | map start pairs => exact isText_tagged start _ (.array (isText_entries pairs))

theorem isText_values (items : List Literal) : ∀ item ∈ values items, item.IsText := by
  cases items with
  | nil => exact fun _ member => nomatch member
  | cons item items => exact List.forall_mem_cons.mpr ⟨isText_value item, isText_values items⟩

theorem isText_entries (pairs : List (Literal × Literal)) :
    ∀ entry ∈ entries pairs, entry.IsText := by
  cases pairs with
  | nil => exact fun _ member => nomatch member
  | cons entry pairs =>
      obtain ⟨k, v⟩ := entry
      have pair : (Json.array [value k, value v]).IsText := by
        refine .array ?_
        simp only [List.forall_mem_cons]
        exact ⟨isText_value k, isText_value v, List.forall_mem_nil _⟩
      exact List.forall_mem_cons.mpr ⟨pair, isText_entries pairs⟩

end

theorem isText_field (decl : FieldDecl) : (field decl).IsText := by
  refine isText_declaration _ ?_
  simp only [List.forall_mem_cons]
  exact ⟨isText_int _, .string _, isText_type _, isText_nullable isText_value _,
    List.forall_mem_nil _⟩

theorem isText_function (decl : FunctionDecl) : (function decl).IsText := by
  refine isText_declaration _ ?_
  simp only [List.forall_mem_cons]
  exact ⟨.bool _, isText_type _, isText_list isText_field _, isText_list isText_field _,
    List.forall_mem_nil _⟩

theorem isText_member (decl : MemberDecl) : (member decl).IsText := by
  refine isText_declaration _ ?_
  simp only [List.forall_mem_cons]
  exact ⟨isText_nullable (fun _ => isText_int _) _, List.forall_mem_nil _⟩

theorem isText_enum (decl : EnumDecl) : (enum decl).IsText := by
  refine isText_declaration _ ?_
  simp only [List.forall_mem_cons]
  exact ⟨isText_list isText_member _, List.forall_mem_nil _⟩

theorem isText_struct (decl : StructDecl) : (struct decl).IsText := by
  refine isText_declaration _ ?_
  simp only [List.forall_mem_cons]
  exact ⟨.string _, isText_list isText_field _, List.forall_mem_nil _⟩

theorem isText_typedef (decl : TypedefDecl) : (typedef decl).IsText := by
  refine isText_declaration _ ?_
  simp only [List.forall_mem_cons]
  exact ⟨isText_type _, List.forall_mem_nil _⟩

theorem isText_service (decl : ServiceDecl) : (service decl).IsText := by
  refine isText_declaration _ ?_
  simp only [List.forall_mem_cons]
  exact ⟨isText_nullable isText_type _, isText_list isText_function _, List.forall_mem_nil _⟩

theorem isText_constant (decl : ConstantDecl) : (constant decl).IsText := by
  refine isText_declaration _ ?_
  simp only [List.forall_mem_cons]
  exact ⟨isText_type _, isText_value _, List.forall_mem_nil _⟩

theorem isText_inclusion (decl : IncludeDecl) : (inclusion decl).IsText := by
  refine .object ?_
  simp only [List.forall_mem_cons]
  exact ⟨isText_location _, .string _, List.forall_mem_nil _⟩

theorem isText_namespaceDecl (decl : NamespaceDecl) : (namespaceDecl decl).IsText := by
  refine .object ?_
  simp only [List.forall_mem_cons]
  exact ⟨isText_location _, .string _, .string _, List.forall_mem_nil _⟩

end Encode

namespace FileTree

theorem isText_toJson (file : FileTree) : file.toJson.IsText := by
  refine .object ?_
  simp only [List.forall_mem_cons]
  exact ⟨Encode.isText_location _, Encode.isText_list Encode.isText_namespaceDecl _,
    Encode.isText_list Encode.isText_inclusion _, Encode.isText_list Encode.isText_constant _,
    Encode.isText_list Encode.isText_typedef _, Encode.isText_list Encode.isText_enum _,
    Encode.isText_list Encode.isText_struct _, Encode.isText_list Encode.isText_service _,
    List.forall_mem_nil _⟩

/--
A file is given back by what is written for it: every position, annotation in its order, number and
part that is empty or absent.  Its doubles must be finite, and its encoding must not be too deep.
-/
theorem ofText?_compact_toJson (file : FileTree) (finite : ∀ x ∈ file.doubles, x.isFinite = true)
    (read_back : ∀ x ∈ file.doubles, x.isFinite = true → Json.ReadsBack x)
    (shallow : file.toJson.depth ≤ Json.depthLimit) :
    ofText? file.toJson.compact = some file := by
  have kept : ∀ x ∈ file.doubles, Json.Restored x :=
    fun x member => Json.readsBack_iff.mp (read_back x member (finite x member))
  rw [ofText?, Json.read_compact file.isText_toJson]
  exact Decode.restores_file file kept Json.depthLimit shallow

/--
A file with the least and largest integers, a negative zero and a double with an exponent,
annotations out of order, and parts that are empty or absent.
-/
def extremes : FileTree :=
  let place : Location := { path := "a.thrift", line := 4294967295, column := 0 }
  let notes : Annotations := .ofList [("z", ""), ("a", "\"\\\x01")]
  let header (name : String) : Header :=
    { name, location := place, documentation := "", annotations := notes }
  let field (id : Int16) (default? : Option Literal) : FieldDecl :=
    { header := header "f", id, requiredness := .optional, type := .named place "i64" notes, default? }
  { location := place
    namespaces := []
    includes := [{ location := place, path := "" }]
    constants := [{
      header := header "K"
      type := .map place (.named place "i64" .empty) (.list place (.named place "double" notes) .empty)
        notes
      value := .map place [
        (.integer place (-9223372036854775808), .list place [.double place (-0.0)]),
        (.integer place 9223372036854775807, .list place [.double place 6.02214076e23])] }]
    typedefs := []
    enums := [{
      header := header "E"
      members := [
        { header := header "M", value? := none },
        { header := header "N", value? := some (-2147483648) }] }]
    structs := [{
      header := header "S"
      kind := .union
      fields := [field (-32768) none, field 32767 (some (.identifier place "K"))] }]
    services := [{
      header := header "V"
      base? := none
      functions := [{
        header := header "g"
        oneWay := true
        returnType := .named place "void" .empty
        parameters := []
        exceptions := [field 0 (some (.string place ""))] }] }] }

/-- The least and largest values survive. -/
theorem ofText?_compact_toJson_extremes :
    (∀ x ∈ extremes.doubles, x.isFinite = true) ∧
      (∀ x ∈ extremes.doubles, x.isFinite = true → Json.ReadsBack x) ∧
      extremes.toJson.depth ≤ Json.depthLimit ∧
      ofText? extremes.toJson.compact = some extremes := by
  have doubles : extremes.doubles = [-0.0, 6.02214076e23] := rfl
  have finite : ∀ x ∈ extremes.doubles, x.isFinite = true := by
    rw [doubles]
    simp only [List.forall_mem_cons]
    exact ⟨rfl, rfl, List.forall_mem_nil _⟩
  have read_back : ∀ x ∈ extremes.doubles, x.isFinite = true → Json.ReadsBack x := by
    rw [doubles]
    simp only [List.forall_mem_cons]
    exact ⟨fun _ => Json.readsBack_iff.mpr rfl, fun _ => Json.readsBack_iff.mpr rfl,
      List.forall_mem_nil _⟩
  have shallow : extremes.toJson.depth ≤ Json.depthLimit := by decide +kernel
  exact ⟨finite, read_back, shallow, ofText?_compact_toJson extremes finite read_back shallow⟩

end FileTree
end IdlSchema
