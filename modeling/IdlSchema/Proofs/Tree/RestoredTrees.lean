import Mathlib
import IdlSchema.Proofs.Tree.RestoredRecords

/-!
# Files through JSON

A file is decoded from its own encoding, part by part.  Every part but a double is restored by
itself; a double is restored when its numeral is read as the same float.
-/

namespace IdlSchema

open Json (Nested)

/-! ## The doubles of a file -/

namespace Literal

mutual

/-- The doubles in a literal. -/
def doubles : Literal → List Float
  | integer _ _ => []
  | double _ x => [x]
  | string _ _ => []
  | identifier _ _ => []
  | list _ items => itemsDoubles items
  | map _ entries => entriesDoubles entries

/-- The doubles in some literals. -/
def itemsDoubles : List Literal → List Float
  | [] => []
  | item :: items => item.doubles ++ itemsDoubles items

/-- The doubles in some entries. -/
def entriesDoubles : List (Literal × Literal) → List Float
  | [] => []
  | (key, value) :: entries => key.doubles ++ value.doubles ++ entriesDoubles entries

end

end Literal

/-- The doubles in the default of a field. -/
def FieldDecl.doubles (decl : FieldDecl) : List Float :=
  decl.default?.toList.flatMap Literal.doubles

/-- The doubles in the defaults of a function. -/
def FunctionDecl.doubles (decl : FunctionDecl) : List Float :=
  decl.parameters.flatMap FieldDecl.doubles ++ decl.exceptions.flatMap FieldDecl.doubles

/-- The doubles in the defaults of a struct. -/
def StructDecl.doubles (decl : StructDecl) : List Float :=
  decl.fields.flatMap FieldDecl.doubles

/-- The doubles in the defaults of a service. -/
def ServiceDecl.doubles (decl : ServiceDecl) : List Float :=
  decl.functions.flatMap FunctionDecl.doubles

/-- The doubles in the value of a constant. -/
def ConstantDecl.doubles (decl : ConstantDecl) : List Float :=
  decl.value.doubles

/-- The doubles in the values and defaults of a file. -/
def FileTree.doubles (file : FileTree) : List Float :=
  file.constants.flatMap ConstantDecl.doubles ++ file.structs.flatMap StructDecl.doubles ++
    file.services.flatMap ServiceDecl.doubles

namespace Json

/-- The numeral of a double is read as the same double. -/
def Restored (x : Float) : Prop :=
  (float x).float? = some x

end Json

namespace Decode

/-! ## Type references -/

/-- A reference to a type is sound. -/
theorem isSound_type (reference : TypeReference) : (Encode.type reference).isSound = true := by
  induction reference with
  | named start name notes =>
      apply Json.isSound_object
      simp only [List.forall_mem_cons]
      exact ⟨rfl, isSound_location _, rfl, isSound_annotations _, fun _ member => nomatch member⟩
  | list start element notes sound | set start element notes sound =>
      apply Json.isSound_object
      simp only [List.forall_mem_cons]
      exact ⟨rfl, isSound_location _, sound, isSound_annotations _, fun _ member => nomatch member⟩
  | map start key value notes key_sound value_sound =>
      apply Json.isSound_object
      simp only [List.forall_mem_cons]
      exact ⟨rfl, isSound_location _, key_sound, value_sound, isSound_annotations _,
        fun _ member => nomatch member⟩

/-- The kind of a type reference and its fields. -/
theorem typeFields?_object {kind : String} {fields : List (String × Json)} {room : Nat}
    (whole : Bool) (entered : Entered (("kind", .string kind) :: fields) room) :
    typeFields? whole { json := .object (("kind", .string kind) :: fields), room := room + 1 } =
      some (kind, within room (("kind", .string kind) :: fields)) := by
  have restores : Restores Json.string (kindAmong typeKinds whole) kind := fun _ _ => rfl
  have found := entered.required "kind" restores List.mem_cons_self
  have items : Nested.items?
      { json := .object (("kind", .string kind) :: fields), room := room + 1 } = none := rfl
  have inside : Nested.fields?
      { json := .object (("kind", .string kind) :: fields), room := room + 1 } =
        some (within room (("kind", .string kind) :: fields)) := rfl
  rw [typeFields?, items]
  simp [inside, found]

/-- A type reference is restored, whether it has been read as a whole or not. -/
theorem restores_typeReference (reference : TypeReference) {fuel : Nat} (whole : Bool)
    (fueled : (Encode.type reference).depth ≤ fuel) :
    Restores Encode.type (typeReference fuel whole) reference := by
  induction reference generalizing fuel whole with
  | named start name notes =>
      intro room fits
      have distinct : ["kind", "location", "name", "annotations"].Nodup := by decide
      obtain ⟨room, rfl, entered⟩ := exists_entered fits distinct
      obtain ⟨fuel, rfl, -⟩ := exists_entered fueled distinct
      have start_found := entered.required "location" (restores_location start) (by simp)
      have name_found := entered.required "name" (restores_string name) (by simp)
      have notes_found : annotationsOf _ = some notes := annotationsOf_within entered (by simp)
      rw [typeReference, Encode.type, typeFields?_object whole entered]
      simp [start_found, name_found, notes_found]
  | list start element notes induction | set start element notes induction =>
      intro room fits
      have distinct : ["kind", "location", "element", "annotations"].Nodup := by decide
      obtain ⟨room, rfl, entered⟩ := exists_entered fits distinct
      obtain ⟨fuel, rfl, within_fuel⟩ := exists_entered fueled distinct
      have element_restores := induction true (within_fuel.depth_le "element" (by simp))
      have start_found := entered.required "location" (restores_location start) (by simp)
      have element_found := entered.required "element" element_restores (by simp)
      have notes_found : annotationsOf _ = some notes := annotationsOf_within entered (by simp)
      rw [typeReference, Encode.type, typeFields?_object whole entered]
      simp [start_found, element_found, notes_found]
  | map start key value notes key_induction value_induction =>
      intro room fits
      have distinct : ["kind", "location", "key", "value", "annotations"].Nodup := by decide
      obtain ⟨room, rfl, entered⟩ := exists_entered fits distinct
      obtain ⟨fuel, rfl, within_fuel⟩ := exists_entered fueled distinct
      have key_restores := key_induction true (within_fuel.depth_le "key" (by simp))
      have value_restores := value_induction true (within_fuel.depth_le "value" (by simp))
      have start_found := entered.required "location" (restores_location start) (by simp)
      have key_found := entered.required "key" key_restores (by simp)
      have value_found := entered.required "value" value_restores (by simp)
      have notes_found : annotationsOf _ = some notes := annotationsOf_within entered (by simp)
      rw [typeReference, Encode.type, typeFields?_object whole entered]
      simp [start_found, key_found, value_found, notes_found]

theorem restores_type (reference : TypeReference) : Restores Encode.type type reference := by
  intro room fits
  have readable : Nested.isReadable { json := Encode.type reference, room } = true := by
    simp [Nested.isReadable, isSound_type reference, fits]
  rw [type, if_pos readable]
  exact restores_typeReference reference false fits room fits

theorem type_ne_null (reference : TypeReference) : Encode.type reference ≠ .null := by
  cases reference <;> rw [Encode.type] <;> exact nofun

/-! ## Literals -/

/-- An entry of a map as it is encoded. -/
def encodeEntry (entry : Literal × Literal) : Json :=
  .array [Encode.value entry.1, Encode.value entry.2]

theorem value_list (start : Location) (items : List Literal) :
    Encode.value (.list start items) =
      Encode.tagged start "list" (Encode.list Encode.value items) := by
  have same : Encode.values items = items.map Encode.value := by
    induction items with
    | nil => rfl
    | cons item items induction => rw [Encode.values, induction, List.map_cons]
  rw [Encode.value, same, Encode.list]

theorem value_map (start : Location) (pairs : List (Literal × Literal)) :
    Encode.value (.map start pairs) =
      Encode.tagged start "map" (Encode.list encodeEntry pairs) := by
  have same : Encode.entries pairs = pairs.map encodeEntry := by
    induction pairs with
    | nil => rfl
    | cons entry pairs induction =>
        obtain ⟨key, value⟩ := entry
        rw [Encode.entries, induction, List.map_cons, encodeEntry]
  rw [Encode.value, same, Encode.list]

/-- The content of a literal comes behind its kind, so it has not been read as a whole. -/
theorem literalContent?_object {kind : String} {content : Json} {room : Nat}
    (entered : Entered [("kind", .string kind), ("value", content)] room) :
    literalContent? false
        { json := .object [("kind", .string kind), ("value", content)], room := room + 1 } =
      some (kind, { json := content, room }, false) := by
  have kind_restores : Restores Json.string (name isNull) kind := fun _ _ => rfl
  have kind_found := entered.required "kind" kind_restores (by simp)
  have content_found : required (within room [("kind", .string kind), ("value", content)]) "value"
      some = some { json := content, room } := by
    rw [required, find?_within entered.distinct (List.mem_cons_of_mem _ List.mem_cons_self)]
  have order : precedes "value" "kind" (within room [("kind", .string kind), ("value", content)]) =
      false := rfl
  have inside : Nested.fields?
      { json := .object [("kind", .string kind), ("value", content)], room := room + 1 } =
        some (within room [("kind", .string kind), ("value", content)]) := rfl
  have items : Nested.items?
      { json := .object [("kind", .string kind), ("value", content)], room := room + 1 } =
        none := rfl
  rw [literalContent?, items]
  simp [inside, kind_found, content_found, order]

/-- A literal is entered to its position and its content. -/
theorem exists_content {start : Location} {kind : String} {content : Json} {room : Nat}
    (fits : (Encode.tagged start kind content).depth ≤ room) :
    ∃ fields inner, content.depth ≤ inner ∧
      record? ["location", "value"] { json := Encode.tagged start kind content, room } =
        some fields ∧
      required fields "location" location = some start ∧
      required fields "value" (literalContent? false) =
        some (kind, { json := content, room := inner }, false) := by
  obtain ⟨room, rfl, entered⟩ := exists_entered fits (show ["location", "value"].Nodup by decide)
  obtain ⟨inner, rfl, content_entered⟩ := exists_entered
    (entered.depth_le "value" (List.mem_cons_of_mem _ List.mem_cons_self))
    (show ["kind", "value"].Nodup by decide)
  have start_found := entered.required "location" (restores_location start) (by simp)
  refine ⟨_, inner, content_entered.depth_le "value" (by simp), record?_object _ _ _,
    start_found, ?_⟩
  rw [required, find?_within entered.distinct (List.mem_cons_of_mem _ List.mem_cons_self)]
  exact literalContent?_object content_entered

/-- What the fuel for a literal leaves for its content. -/
theorem exists_fuel {start : Location} {kind : String} {content : Json} {fuel : Nat}
    (fueled : (Encode.tagged start kind content).depth ≤ fuel) :
    ∃ less, fuel = less + 1 ∧ content.depth ≤ less := by
  obtain ⟨less, rfl, outside⟩ := exists_entered fueled (show ["location", "value"].Nodup by decide)
  have inside : (Json.object [("kind", .string kind), ("value", content)]).depth ≤ less :=
    outside.depth_le "value" (by simp)
  obtain ⟨less, rfl, content_fits⟩ := exists_entered inside
    (show ["kind", "value"].Nodup by decide)
  exact ⟨less + 1, rfl, (content_fits.depth_le "value" (by simp)).trans (Nat.le_succ _)⟩

theorem depth_list_cons_le_iff {α : Type} {encode : α → Json} {value : α} {values : List α}
    {room : Nat} : (Encode.list encode (value :: values)).depth ≤ room ↔
      (encode value).depth < room ∧ (Encode.list encode values).depth ≤ room := by
  simp only [Encode.list, List.map_cons, Json.depth, Json.depthOfItems]
  omega

/-- An entry is an array of its key and its value. -/
theorem exists_room_in_entry {key value : Literal} {room : Nat}
    (fits : (encodeEntry (key, value)).depth ≤ room) :
    ∃ inner, room = inner + 1 ∧ (Encode.value key).depth ≤ inner ∧
      (Encode.value value).depth ≤ inner := by
  simp only [encodeEntry, Json.depth, Json.depthOfItems] at fits
  exact ⟨room - 1, by omega, by omega, by omega⟩

/-- An entry is restored when its key and its value are. -/
theorem restores_entry {key value : Literal} {decode : Nested → Option Literal}
    (key_restores : Restores Encode.value decode key)
    (value_restores : Restores Encode.value decode value) :
    Restores encodeEntry (pair decode) (key, value) := by
  intro room fits
  obtain ⟨room, rfl, key_fits, value_fits⟩ := exists_room_in_entry fits
  have items : Nested.items? { json := encodeEntry (key, value), room := room + 1 } =
      some [{ json := Encode.value key, room }, { json := Encode.value value, room }] := rfl
  rw [pair, items]
  simp [key_restores room key_fits, value_restores room value_fits]

mutual

/-- A literal is restored when its doubles are. -/
theorem restores_literal (v : Literal) (kept : ∀ x ∈ v.doubles, Json.Restored x) {fuel : Nat}
    (fueled : (Encode.value v).depth ≤ fuel) :
    Restores Encode.value (literal fuel false) v := by
  intro room fits
  cases v with
  | integer start i =>
      rw [Encode.value] at fueled fits ⊢
      obtain ⟨fuel, rfl, -⟩ := exists_fuel fueled
      obtain ⟨fields, inner, within_room, entered, start_found, found⟩ := exists_content fits
      have read := restores_int64 i inner within_room
      rw [literal, entered]
      simp [start_found, found, read]
  | double start x =>
      rw [Encode.value] at fueled fits ⊢
      obtain ⟨fuel, rfl, -⟩ := exists_fuel fueled
      obtain ⟨fields, inner, within_room, entered, start_found, found⟩ := exists_content fits
      have read : (Json.float x).float? = some x := kept x List.mem_cons_self
      rw [literal, entered]
      simp [start_found, found, Nested.float?, read]
  | string start text | identifier start text =>
      rw [Encode.value] at fueled fits ⊢
      obtain ⟨fuel, rfl, -⟩ := exists_fuel fueled
      obtain ⟨fields, inner, within_room, entered, start_found, found⟩ := exists_content fits
      have read := restores_string text inner within_room
      rw [literal, entered]
      simp [start_found, found, read]
  | list start items =>
      rw [value_list] at fueled fits ⊢
      obtain ⟨fuel, rfl, within_fuel⟩ := exists_fuel fueled
      obtain ⟨fields, inner, within_room, entered, start_found, found⟩ := exists_content fits
      have read := restores_list items (restores_items items kept within_fuel) inner within_room
      rw [literal, entered]
      simp [start_found, found, read]
  | map start pairs =>
      rw [value_map] at fueled fits ⊢
      obtain ⟨fuel, rfl, within_fuel⟩ := exists_fuel fueled
      obtain ⟨fields, inner, within_room, entered, start_found, found⟩ := exists_content fits
      have read := restores_list pairs (restores_entries pairs kept within_fuel) inner within_room
      rw [literal, entered]
      simp [start_found, found, read]

/-- The items of a list are restored when their doubles are. -/
theorem restores_items (items : List Literal)
    (kept : ∀ x ∈ Literal.itemsDoubles items, Json.Restored x) {fuel : Nat}
    (fueled : (Encode.list Encode.value items).depth ≤ fuel) :
    ∀ item ∈ items, Restores Encode.value (literal fuel false) item := by
  cases items with
  | nil => exact fun _ member => nomatch member
  | cons first items =>
      obtain ⟨first_fueled, others_fueled⟩ := depth_list_cons_le_iff.mp fueled
      rw [Literal.itemsDoubles, List.forall_mem_append] at kept
      rw [List.forall_mem_cons]
      exact ⟨restores_literal first kept.1 first_fueled.le,
        restores_items items kept.2 others_fueled⟩

/-- The entries of a map are restored when their doubles are. -/
theorem restores_entries (pairs : List (Literal × Literal))
    (kept : ∀ x ∈ Literal.entriesDoubles pairs, Json.Restored x) {fuel : Nat}
    (fueled : (Encode.list encodeEntry pairs).depth ≤ fuel) :
    ∀ entry ∈ pairs, Restores encodeEntry (pair (literal fuel false)) entry := by
  cases pairs with
  | nil => exact fun _ member => nomatch member
  | cons entry pairs =>
      obtain ⟨key, value⟩ := entry
      obtain ⟨entry_fueled, others_fueled⟩ := depth_list_cons_le_iff.mp fueled
      obtain ⟨less, rfl, key_fueled, value_fueled⟩ := exists_room_in_entry entry_fueled.le
      rw [Literal.entriesDoubles, List.forall_mem_append, List.forall_mem_append] at kept
      rw [List.forall_mem_cons]
      exact ⟨restores_entry (restores_literal key kept.1.1 (key_fueled.trans (Nat.le_succ _)))
        (restores_literal value kept.1.2 (value_fueled.trans (Nat.le_succ _))),
        restores_entries pairs kept.2 others_fueled⟩

end

/-! ## Declarations -/

theorem restores_value (v : Literal) (kept : ∀ x ∈ v.doubles, Json.Restored x) :
    Restores Encode.value value v :=
  fun room fits => restores_literal v kept fits room fits

theorem value_ne_null (v : Literal) : Encode.value v ≠ .null := by
  cases v <;> rw [Encode.value] <;> exact nofun

theorem restores_requiredness (requiredness : Requiredness) :
    Restores (fun requiredness => .string requiredness.text)
      (fun nested => (name isNull nested).bind Requiredness.ofText?) requiredness :=
  fun _ _ => by cases requiredness <;> rfl

theorem restores_kind (kind : StructKind) :
    Restores (fun kind => .string kind.text)
      (fun nested => (name isNull nested).bind StructKind.ofText?) kind :=
  fun _ _ => by cases kind <;> rfl

/-- The keys of a header. -/
def headerKeys : List String :=
  ["name", "location", "documentation", "annotations"]

theorem restores_field (decl : FieldDecl) (kept : ∀ x ∈ decl.doubles, Json.Restored x) :
    Restores Encode.field field decl := by
  intro room fits
  obtain ⟨room, rfl, entered⟩ := exists_entered fits
    (show (headerKeys ++ ["id", "requiredness", "type", "default_value"]).Nodup by decide)
  have fields : declaration? ["id", "requiredness", "type", "default_value"]
      { json := Encode.field decl, room := room + 1 } = some _ := declaration?_object entered
  have default_restores : Restores (Encode.nullable Encode.value) (nullable value) decl.default? :=
    restores_nullable decl.default?
      (fun v present => restores_value v fun x member =>
        kept x (List.mem_flatMap.mpr ⟨v, Option.mem_toList.mpr present, member⟩))
      fun v _ => value_ne_null v
  have header := headerOf_within entered
  have id := entered.required "id" (restores_int16 decl.id) (by simp)
  have requiredness := entered.defaulted "requiredness" .default
    (restores_requiredness decl.requiredness) (by simp)
  have type := entered.required "type" (restores_type decl.type) (by simp)
  have default := entered.defaulted "default_value" none default_restores (by simp)
  rw [field, fields]
  simp [header, id, requiredness, type, default]

theorem restores_function (decl : FunctionDecl) (kept : ∀ x ∈ decl.doubles, Json.Restored x) :
    Restores Encode.function function decl := by
  intro room fits
  obtain ⟨room, rfl, entered⟩ := exists_entered fits
    (show (headerKeys ++ ["one_way", "return_type", "params", "exceptions"]).Nodup by decide)
  have fields : declaration? ["one_way", "return_type", "params", "exceptions"]
      { json := Encode.function decl, room := room + 1 } = some _ := declaration?_object entered
  rw [FunctionDecl.doubles, List.forall_mem_append, List.forall_mem_flatMap,
    List.forall_mem_flatMap] at kept
  have header := headerOf_within entered
  have one_way := entered.defaulted "one_way" false (restores_bool decl.oneWay) (by simp)
  have return_type := entered.required "return_type" (restores_type decl.returnType) (by simp)
  have parameters := entered.defaulted "params" []
    (restores_list decl.parameters fun decl member => restores_field decl (kept.1 decl member))
    (by simp)
  have exceptions := entered.defaulted "exceptions" []
    (restores_list decl.exceptions fun decl member => restores_field decl (kept.2 decl member))
    (by simp)
  rw [function, fields]
  simp [header, one_way, return_type, parameters, exceptions]

theorem restores_member (decl : MemberDecl) : Restores Encode.member member decl := by
  intro room fits
  obtain ⟨room, rfl, entered⟩ := exists_entered fits
    (show (headerKeys ++ ["value"]).Nodup by decide)
  have fields : declaration? ["value"] { json := Encode.member decl, room := room + 1 } = some _ :=
    declaration?_object entered
  have header := headerOf_within entered
  have value := entered.defaulted "value" none
    (restores_nullable decl.value? (fun i _ => restores_int32 i) fun i _ => nofun) (by simp)
  rw [member, fields]
  simp [header, value]

theorem restores_enum (decl : EnumDecl) : Restores Encode.enum enum decl := by
  intro room fits
  obtain ⟨room, rfl, entered⟩ := exists_entered fits
    (show (headerKeys ++ ["members"]).Nodup by decide)
  have fields : declaration? ["members"] { json := Encode.enum decl, room := room + 1 } = some _ :=
    declaration?_object entered
  have header := headerOf_within entered
  have members := entered.defaulted "members" []
    (restores_list decl.members fun member _ => restores_member member) (by simp)
  rw [enum, fields]
  simp [header, members]

theorem restores_struct (decl : StructDecl) (kept : ∀ x ∈ decl.doubles, Json.Restored x) :
    Restores Encode.struct struct decl := by
  intro room fits
  obtain ⟨room, rfl, entered⟩ := exists_entered fits
    (show (headerKeys ++ ["kind", "fields"]).Nodup by decide)
  have fields : declaration? ["kind", "fields"]
      { json := Encode.struct decl, room := room + 1 } = some _ := declaration?_object entered
  rw [StructDecl.doubles, List.forall_mem_flatMap] at kept
  have header := headerOf_within entered
  have kind := entered.defaulted "kind" .struct (restores_kind decl.kind) (by simp)
  have own := entered.defaulted "fields" []
    (restores_list decl.fields fun decl member => restores_field decl (kept decl member)) (by simp)
  rw [struct, fields]
  simp [header, kind, own]

theorem restores_typedef (decl : TypedefDecl) : Restores Encode.typedef typedef decl := by
  intro room fits
  obtain ⟨room, rfl, entered⟩ := exists_entered fits
    (show (headerKeys ++ ["old_type"]).Nodup by decide)
  have fields : declaration? ["old_type"]
      { json := Encode.typedef decl, room := room + 1 } = some _ := declaration?_object entered
  have header := headerOf_within entered
  have target := entered.required "old_type" (restores_type decl.target) (by simp)
  rw [typedef, fields]
  simp [header, target]

theorem restores_service (decl : ServiceDecl) (kept : ∀ x ∈ decl.doubles, Json.Restored x) :
    Restores Encode.service service decl := by
  intro room fits
  obtain ⟨room, rfl, entered⟩ := exists_entered fits
    (show (headerKeys ++ ["extends", "functions"]).Nodup by decide)
  have fields : declaration? ["extends", "functions"]
      { json := Encode.service decl, room := room + 1 } = some _ := declaration?_object entered
  rw [ServiceDecl.doubles, List.forall_mem_flatMap] at kept
  have header := headerOf_within entered
  have base := entered.defaulted "extends" none
    (restores_nullable decl.base? (fun base _ => restores_type base) fun base _ =>
      type_ne_null base) (by simp)
  have functions := entered.defaulted "functions" []
    (restores_list decl.functions fun decl member => restores_function decl (kept decl member))
    (by simp)
  rw [service, fields]
  simp [header, base, functions]

theorem restores_constant (decl : ConstantDecl) (kept : ∀ x ∈ decl.doubles, Json.Restored x) :
    Restores Encode.constant constant decl := by
  intro room fits
  obtain ⟨room, rfl, entered⟩ := exists_entered fits
    (show (headerKeys ++ ["type", "value"]).Nodup by decide)
  have fields : declaration? ["type", "value"]
      { json := Encode.constant decl, room := room + 1 } = some _ := declaration?_object entered
  have header := headerOf_within entered
  have type := entered.required "type" (restores_type decl.type) (by simp)
  have value := entered.required "value" (restores_value decl.value kept) (by simp)
  rw [constant, fields]
  simp [header, type, value]

theorem restores_inclusion (decl : IncludeDecl) : Restores Encode.inclusion inclusion decl := by
  intro room fits
  obtain ⟨room, rfl, entered⟩ := exists_entered fits (show ["location", "path"].Nodup by decide)
  have location := entered.required "location" (restores_location decl.location) (by simp)
  have path := entered.required "path" (restores_string decl.path) (by simp)
  rw [inclusion, Encode.inclusion, record?_object]
  simp [location, path]

theorem restores_namespaceDecl (decl : NamespaceDecl) :
    Restores Encode.namespaceDecl namespaceDecl decl := by
  intro room fits
  obtain ⟨room, rfl, entered⟩ := exists_entered fits
    (show ["location", "scope", "namespace"].Nodup by decide)
  have location := entered.required "location" (restores_location decl.location) (by simp)
  have scope := entered.required "scope" (restores_string decl.scope) (by simp)
  have name := entered.required "namespace" (restores_string decl.name) (by simp)
  rw [namespaceDecl, Encode.namespaceDecl, record?_object]
  simp [location, scope, name]

/-- A file is decoded from its own encoding. -/
theorem restores_file (tree : FileTree) (kept : ∀ x ∈ tree.doubles, Json.Restored x) :
    Restores FileTree.toJson file tree := by
  intro room fits
  obtain ⟨room, rfl, entered⟩ := exists_entered fits (show fileKeys.Nodup by decide)
  simp only [FileTree.doubles, List.forall_mem_append, List.forall_mem_flatMap] at kept
  obtain ⟨⟨constants_kept, structs_kept⟩, services_kept⟩ := kept
  have location := entered.required "location" (restores_location tree.location) (by simp)
  have namespaces := entered.defaulted "namespaces" []
    (restores_list tree.namespaces fun decl _ => restores_namespaceDecl decl) (by simp)
  have includes := entered.defaulted "includes" []
    (restores_list tree.includes fun decl _ => restores_inclusion decl) (by simp)
  have constants := entered.defaulted "constants" []
    (restores_list tree.constants fun decl member => restores_constant decl (constants_kept decl member))
    (by simp)
  have typedefs := entered.defaulted "typedefs" []
    (restores_list tree.typedefs fun decl _ => restores_typedef decl) (by simp)
  have enums := entered.defaulted "enums" []
    (restores_list tree.enums fun decl _ => restores_enum decl) (by simp)
  have structs := entered.defaulted "structs" []
    (restores_list tree.structs fun decl member => restores_struct decl (structs_kept decl member))
    (by simp)
  have services := entered.defaulted "services" []
    (restores_list tree.services fun decl member => restores_service decl (services_kept decl member))
    (by simp)
  rw [file, FileTree.toJson, record?_object]
  simp [location, namespaces, includes, constants, typedefs, enums, structs, services]

end Decode
end IdlSchema
