import Mathlib
import IdlSchema.Proofs.Json.CompactTexts
import IdlSchema.Tree.Decode
import IdlSchema.Tree.Encode

/-!
# Decoding what was encoded

A value is restored if it is decoded from its encoding wherever there is room for that.  A record is
an object with different keys, so each of its fields is found again; a header, whose fields stand
among those of its declaration, can be read as a whole besides.
-/

namespace IdlSchema

open Json (Nested)

/-! ## Depth and soundness of parts -/

namespace Json

theorem depth_le_depthOfItems {item : Json} {items : List Json} (member : item ∈ items) :
    item.depth ≤ depthOfItems items := by
  induction member with
  | head => exact Nat.le_max_left _ _
  | tail _ _ induction => exact induction.trans (Nat.le_max_right _ _)

theorem depth_le_depthOfFields {field : String × Json} {fields : List (String × Json)}
    (member : field ∈ fields) : field.2.depth ≤ depthOfFields fields := by
  induction member with
  | head => exact Nat.le_max_left _ _
  | tail _ _ induction => exact induction.trans (Nat.le_max_right _ _)

/-- An object is sound when its values are. -/
theorem isSound_object {fields : List (String × Json)}
    (each : ∀ field ∈ fields, field.2.isSound = true) : (object fields).isSound = true := by
  rw [isSound]
  induction fields with
  | nil => rfl
  | cons field fields induction =>
      rw [areSoundFields, each field List.mem_cons_self,
        induction fun field member => each field (.tail _ member)]
      rfl

/-- An integer of 64 bits is sound. -/
theorem isSound_int {i : Int} (small : i.natAbs ≤ Numeral.significandLimit) :
    (int i).isSound = true :=
  Numeral.isSome_toFloat?_ofInt small

end Json

namespace Decode

/-! ## Restored values -/

/-- A value is decoded from its encoding wherever there is room for that. -/
def Restores {α : Type} (encode : α → Json) (decode : Nested → Option α) (value : α) : Prop :=
  ∀ room, (encode value).depth ≤ room → decode { json := encode value, room } = some value

theorem restores_string (text : String) : Restores Json.string Nested.string? text :=
  fun _ _ => rfl

theorem restores_bool (value : Bool) : Restores Json.bool Nested.bool? value :=
  fun _ _ => rfl

/-- An integer within the bounds is restored. -/
theorem integerBetween_int {low high i : Int} (above : low ≤ i) (below : i ≤ high) (room : Nat) :
    integerBetween low high { json := .int i, room } = some i := by
  simp [integerBetween, Json.integerBetween?, Json.integer?, Json.int, above, below]

theorem restores_uint32 (n : UInt32) : Restores (fun n => .nat n.toNat) uint32 n := by
  intro room _
  have bound := n.toNat_lt
  have size : UInt32.size = 2 ^ 32 := rfl
  have read : integerBetween 0 (UInt32.size - 1) { json := .nat n.toNat, room } =
      some (n.toNat : Int) :=
    integerBetween_int (Int.natCast_nonneg _) (by omega) room
  dsimp only
  rw [uint32, read, Option.map_some, Int.toNat_natCast, UInt32.ofNat_toNat]

theorem restores_int16 (i : Int16) : Restores (fun i => .int i.toInt) int16 i := by
  intro room _
  rw [int16, integerBetween_int i.minValue_le_toInt i.toInt_le, Option.map_some, Int16.ofInt_toInt]

theorem restores_int32 (i : Int32) : Restores (fun i => .int i.toInt) int32 i := by
  intro room _
  rw [int32, integerBetween_int i.minValue_le_toInt i.toInt_le, Option.map_some, Int32.ofInt_toInt]

theorem restores_int64 (i : Int64) : Restores (fun i => .int i.toInt) int64 i := by
  intro room _
  rw [int64, integerBetween_int i.minValue_le_toInt i.toInt_le, Option.map_some, Int64.ofInt_toInt]

/-- A list is restored when its items are. -/
theorem restores_list {α : Type} {encode : α → Json} {decode : Nested → Option α}
    (values : List α) (each : ∀ value ∈ values, Restores encode decode value) :
    Restores (Encode.list encode) (list decode) values := by
  intro room fits
  rw [Encode.list, Json.depth] at fits
  obtain ⟨room, rfl⟩ : ∃ inner, room = inner + 1 := ⟨room - 1, by omega⟩
  have items : Nested.items? { json := .array (values.map encode), room := room + 1 } =
      some (values.map fun value => { json := encode value, room }) :=
    congrArg some List.map_map
  rw [list, Encode.list, items]
  exact Json.mapM_map_eq_some fun value member => each value member room
    ((Json.depth_le_depthOfItems (List.mem_map_of_mem member)).trans (by omega))

/-- What may be missing is restored when it is restored where it is present and is not null then. -/
theorem restores_nullable {α : Type} {encode : α → Json} {decode : Nested → Option α}
    (value? : Option α) (each : ∀ value ∈ value?, Restores encode decode value)
    (present : ∀ value ∈ value?, encode value ≠ .null) :
    Restores (Encode.nullable encode) (nullable decode) value? := by
  cases value? with
  | none => exact fun _ _ => rfl
  | some value =>
      intro room fits
      simp only [Encode.nullable] at fits ⊢
      rw [nullable, each value rfl room fits]
      cases json : encode value with
      | null => exact absurd json (present value rfl)
      | _ => rfl

/-! ## Records -/

/-- The fields of an object with the room inside it. -/
def within (room : Nat) (fields : List (String × Json)) : Fields :=
  fields.map fun (key, json) => (key, { json, room })

/-- No key of some fields is repeated, and there is room for their values. -/
structure Entered (fields : List (String × Json)) (room : Nat) : Prop where
  distinct : (fields.map Prod.fst).Nodup
  fits : Json.depthOfFields fields ≤ room

/-- An object for which there is room can be entered. -/
theorem exists_entered {fields : List (String × Json)} {room : Nat}
    (fits : (Json.object fields).depth ≤ room) (distinct : (fields.map Prod.fst).Nodup) :
    ∃ inner, room = inner + 1 ∧ Entered fields inner := by
  rw [Json.depth] at fits
  exact ⟨room - 1, by omega, distinct, by omega⟩

/-- A record is given by the fields of its object. -/
theorem record?_object (keys : List String) (fields : List (String × Json)) (room : Nat) :
    record? keys { json := .object fields, room := room + 1 } = some (within room fields) := rfl

/-- The field with a key is found among fields without a repeated key. -/
theorem find?_within {fields : List (String × Json)} (distinct : (fields.map Prod.fst).Nodup)
    {key : String} {json : Json} (member : (key, json) ∈ fields) (room : Nat) :
    find? (within room fields) key = some (some { json, room }) := by
  have only : (within room fields).filter (·.1 == key) = [(key, { json, room })] := by
    induction fields with
    | nil => cases member
    | cons field fields induction =>
        rw [List.map_cons, List.nodup_cons] at distinct
        rw [within, List.map_cons]
        rcases List.mem_cons.mp member with rfl | later
        · rw [List.filter_cons_of_pos (by simp), List.filter_eq_nil_iff.mpr]
          intro other listed
          obtain ⟨field, stored, rfl⟩ := List.mem_map.mp listed
          have different : field.1 ≠ key :=
            fun same => distinct.1 (List.mem_map.mpr ⟨field, stored, same⟩)
          simpa using different
        · have different : field.1 ≠ key :=
            fun same => distinct.1 (same ▸ List.mem_map_of_mem later)
          rw [List.filter_cons_of_neg (by simpa using different)]
          exact induction distinct.2 later
  rw [find?, only]

namespace Entered

variable {fields : List (String × Json)} {room : Nat} {α : Type} {encode : α → Json}
  {decode : Nested → Option α} {value : α}

theorem depth_le (entered : Entered fields room) (key : String) {json : Json}
    (member : (key, json) ∈ fields) : json.depth ≤ room :=
  (Json.depth_le_depthOfFields member).trans entered.fits

/-- The field of a restored value is decoded. -/
theorem required (entered : Entered fields room) (key : String)
    (restores : Restores encode decode value) (member : (key, encode value) ∈ fields) :
    Decode.required (within room fields) key decode = some value := by
  rw [Decode.required, find?_within entered.distinct member]
  exact restores room (entered.depth_le key member)

/-- The field of a restored value is decoded although it has a default. -/
theorem defaulted (entered : Entered fields room) (key : String) (default : α)
    (restores : Restores encode decode value) (member : (key, encode value) ∈ fields) :
    Decode.defaulted (within room fields) key default decode = some value := by
  rw [Decode.defaulted, find?_within entered.distinct member]
  exact restores room (entered.depth_le key member)

end Entered

/-! ## Headers -/

theorem restores_location (place : Location) : Restores Encode.location location place := by
  intro room fits
  obtain ⟨room, rfl, entered⟩ := exists_entered fits
    (show ["path", "line", "column"].Nodup by decide)
  have path := entered.required "path" (restores_string place.path) (by simp)
  have line := entered.defaulted "line" 1 (restores_uint32 place.line) (by simp)
  have column := entered.defaulted "column" 1 (restores_uint32 place.column) (by simp)
  rw [location, Encode.location, record?_object]
  simp [path, line, column]

/-- Giving new keys values one after the other appends them. -/
theorem entries_foldl_insert {entries : List (String × String)} {known : Annotations}
    (distinct : ((known.entries ++ entries).map Prod.fst).Nodup) :
    (entries.foldl (fun known (key, value) => known.insert key value) known).entries =
      known.entries ++ entries := by
  induction entries generalizing known with
  | nil => exact (List.append_nil _).symm
  | cons entry entries induction =>
      have absent : entry.1 ∉ known.entries.map Prod.fst := by
        rw [List.map_append, List.map_cons, List.nodup_append] at distinct
        exact fun listed => distinct.2.2 _ listed _ List.mem_cons_self rfl
      have added : (known.insert entry.1 entry.2).entries = known.entries ++ [(entry.1, entry.2)] :=
        Annotations.insert_entries_of_not_mem absent
      rw [List.foldl_cons, induction, added, List.append_assoc, List.singleton_append]
      rw [added, List.append_assoc, List.singleton_append]
      exact distinct

/-- Annotations are made up of their entries. -/
theorem ofList_entries (notes : Annotations) : Annotations.ofList notes.entries = notes := by
  have same : (Annotations.ofList notes.entries).entries = notes.entries :=
    entries_foldl_insert notes.keys_nodup
  cases made : Annotations.ofList notes.entries
  cases notes
  rw [made] at same
  cases same
  rfl

theorem restores_annotations (notes : Annotations) :
    Restores Encode.annotations annotations notes := by
  intro room fits
  obtain ⟨room, rfl, -⟩ := exists_entered fits (by
    rw [List.map_map]
    exact notes.keys_nodup)
  have fields : Nested.fields? { json := Encode.annotations notes, room := room + 1 } =
      some (notes.entries.map fun entry => (entry.1, { json := .string entry.2, room })) :=
    congrArg some List.map_map
  rw [annotations, fields, Option.bind_eq_bind, Option.bind_some, Json.mapM_map_eq_some]
  · exact congrArg some (ofList_entries notes)
  · exact fun _ _ => rfl

/-- The annotations among the fields of a record. -/
theorem annotationsOf_within {fields : List (String × Json)} {room : Nat}
    (entered : Entered fields room) {notes : Annotations}
    (member : ("annotations", Encode.annotations notes) ∈ fields) :
    annotationsOf (within room fields) = some notes :=
  entered.defaulted "annotations" Annotations.empty (restores_annotations notes) member

section Declarations

variable {header : Header} {own : List (String × Json)} {room : Nat}

/-- The header among the fields of a declaration. -/
theorem headerOf_within (entered : Entered (Encode.headerFields header ++ own) room) :
    headerOf (within room (Encode.headerFields header ++ own)) = some header := by
  have name := entered.required "name" (restores_string header.name)
    (by simp [Encode.headerFields])
  have location := entered.required "location" (restores_location header.location)
    (by simp [Encode.headerFields])
  have documentation := entered.defaulted "documentation" "" (restores_string header.documentation)
    (by simp [Encode.headerFields])
  have annotations : annotationsOf _ = some header.annotations :=
    annotationsOf_within entered (by simp [Encode.headerFields])
  rw [headerOf, name, location, documentation, annotations]
  rfl

theorem isSound_location (place : Location) : (Encode.location place).isSound = true := by
  have small (n : UInt32) : (Json.nat n.toNat).isSound = true :=
    Json.isSound_int (by
      have bound := n.toNat_lt
      have limit : Json.Numeral.significandLimit = 2 ^ 64 - 1 := rfl
      omega)
  apply Json.isSound_object
  simp only [List.forall_mem_cons]
  exact ⟨rfl, small _, small _, fun _ member => nomatch member⟩

theorem isSound_annotations (notes : Annotations) : (Encode.annotations notes).isSound = true := by
  apply Json.isSound_object
  intro field member
  obtain ⟨entry, _, rfl⟩ := List.mem_map.mp member
  rfl

/-- The fields of a header are sound. -/
theorem isSound_headerFields (header : Header) :
    ∀ field ∈ Encode.headerFields header, field.2.isSound = true := by
  simp only [Encode.headerFields, List.forall_mem_cons]
  exact ⟨rfl, isSound_location _, rfl, isSound_annotations _, fun _ member => nomatch member⟩

/-- The fields of a declaration; those of its header are read as a whole. -/
theorem declaration?_object (entered : Entered (Encode.headerFields header ++ own) room) :
    declaration? (own.map Prod.fst)
        { json := .object (Encode.headerFields header ++ own), room := room + 1 } =
      some (within room (Encode.headerFields header ++ own)) := by
  have readable : ∀ field ∈ within room (Encode.headerFields header ++ own),
      ((own.map Prod.fst).contains field.1 || field.2.isReadable) = true := by
    intro field member
    obtain ⟨⟨key, json⟩, listed, rfl⟩ := List.mem_map.mp member
    rcases List.mem_append.mp listed with ahead | behind
    · simp [Nested.isReadable, isSound_headerFields header _ ahead, entered.depth_le key listed]
    · have known : key ∈ own.map Prod.fst := List.mem_map_of_mem behind
      simp [known]
  exact Option.filter_eq_some_iff.mpr ⟨rfl, List.all_eq_true.mpr readable⟩

end Declarations

end Decode
end IdlSchema
