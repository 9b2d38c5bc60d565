import IdlSchema.Proofs.Constants.Nodes

/-!
# What is found at a single node

The functions that check one literal, apart from its parts, find just what it fits, which word or
constant its name stands for, and which field a key names.
-/

namespace IdlSchema

theorem List.findSome?_filter {α β : Type} (p : α → Bool) (f : α → Option β) (list : List α) :
    (list.filter p).findSome? f = list.findSome? fun a => if p a then f a else none := by
  induction list with
  | nil => rfl
  | cons a list induction =>
      rw [List.filter_cons, List.findSome?_cons]
      cases p a with
      | true => rw [if_pos rfl, if_pos rfl, List.findSome?_cons, induction]
      | false => simpa using induction

namespace FileTable

/-- A qualifier of a file has no point in it. -/
theorem plain_qualifier (files : FileTable) (file : FileId) :
    Text.Plain (files.qualifier file) := by
  rw [qualifier]
  cases files.get? file with
  | none => exact List.not_mem_nil
  | some found => exact point_not_mem_fileQualifier found.path

end FileTable

namespace ConstantScope

open TypeGraph

variable {scope : ConstantScope} {file : FileId} {expected actual : TypeId} {name : String}

/-! ## Words and names -/

/-- The parts of a name are those of a member that it spells. -/
theorem memberName?_eq_some_iff {enum : EnumType} {member : String} :
    scope.memberName? enum name = some member ↔
      scope.files.Spells Text.Plain enum member name := by
  constructor
  · intro found
    rw [memberName?] at found
    split at found
    · rename_i split
      obtain ⟨plain, rfl⟩ := Text.splitAll_eq_singleton_iff.mp split
      cases found
      exact .alone plain
    · rename_i split
      obtain ⟨plain, rest, rfl, behind⟩ := Text.splitAll_eq_cons_cons_iff.mp split
      obtain ⟨plain', rfl⟩ := Text.splitAll_eq_singleton_iff.mp behind
      obtain ⟨rfl, same⟩ := Option.ite_none_right_eq_some.mp found
      cases same
      exact .behindEnum plain plain'
    · rename_i split
      obtain ⟨_, rest, rfl, behind⟩ := Text.splitAll_eq_cons_cons_iff.mp split
      obtain ⟨plain, rest, rfl, behind'⟩ := Text.splitAll_eq_cons_cons_iff.mp behind
      obtain ⟨plain', rfl⟩ := Text.splitAll_eq_singleton_iff.mp behind'
      obtain ⟨⟨rfl, rfl⟩, same⟩ := Option.ite_none_right_eq_some.mp found
      cases same
      exact .behindQualifier plain plain'
    · cases found
  · intro spells
    cases spells with
    | alone plain => rw [memberName?, Text.splitAll_of_plain plain]
    | behindEnum plain plain' =>
        rw [memberName?, Text.splitAll_append _ plain, Text.splitAll_of_plain plain']
        exact if_pos rfl
    | behindQualifier plain plain' =>
        rw [memberName?, Text.splitAll_append _ (scope.files.plain_qualifier enum.file),
          Text.splitAll_append _ plain, Text.splitAll_of_plain plain']
        exact if_pos ⟨rfl, rfl⟩

/-- A word is what has a value without a constant. -/
theorem isSome_wordValue?_iff :
    (scope.wordValue? actual name).isSome ↔ scope.IsWord Text.Plain actual name := by
  rw [wordValue?, IsWord]
  split_ifs with yes no
  · exact iff_of_true rfl (.inl ⟨yes.1, .inl yes.2⟩)
  · exact iff_of_true rfl (.inl ⟨no.1, .inr no.2⟩)
  · have no_truth : ¬ (actual = .ofBuiltin .bool ∧ (name = "true" ∨ name = "false")) := by
      rintro ⟨is_bool, named | named⟩
      · exact yes ⟨is_bool, named⟩
      · exact no ⟨is_bool, named⟩
    rw [or_iff_right no_truth, Option.isSome_iff_exists]
    constructor
    · rintro ⟨value, found⟩
      obtain ⟨enum, at_enum, found⟩ := Option.bind_eq_some_iff.mp found
      obtain ⟨word, spelled, found⟩ := Option.bind_eq_some_iff.mp found
      obtain ⟨member, at_member, _⟩ := Option.bind_eq_some_iff.mp found
      rw [EnumType.member?] at at_member
      have named := List.find?_some at_member
      obtain rfl : member.name = word := eq_of_beq named
      exact ⟨enum, at_enum, member, List.mem_of_find?_eq_some at_member,
        memberName?_eq_some_iff.mp spelled⟩
    · rintro ⟨enum, at_enum, member, listed, spells⟩
      have found : (enum.member? member.name).isSome := by
        rw [EnumType.member?, List.find?_isSome]
        exact ⟨member, listed, beq_self_eq_true _⟩
      obtain ⟨first, at_first⟩ := Option.isSome_iff_exists.mp found
      refine ⟨memberValue enum first, ?_⟩
      rw [at_enum, Option.bind_eq_bind, Option.bind_some, memberName?_eq_some_iff.mpr spells,
        Option.bind_eq_bind, Option.bind_some, at_first]
      rfl

/-- Looking a constant up finds the one that is visible. -/
theorem lookup_eq_some_iff {index : Nat} :
    scope.lookup file name = some index ↔ scope.Names file name index := by
  constructor
  · intro found
    rw [lookup.eq_def] at found
    dsimp only at found
    cases split : Text.splitFirst? name with
    | some parts =>
        obtain ⟨plain, rfl⟩ := Text.splitFirst?_eq_some_iff.mp split
        rw [split] at found
        dsimp only at found
        rw [List.findSome?_filter] at found
        obtain ⟨before, included, after, same, at_included, earlier⟩ :=
          List.findSome?_eq_some_iff.mp found
        obtain ⟨qualified, at_included⟩ := Option.ite_none_right_eq_some.mp at_included
        refine .qualified plain same (fun other member qualified => ?_) (eq_of_beq qualified)
          at_included
        have absent := earlier other member
        rwa [if_pos (beq_iff_eq.mpr qualified)] at absent
    | none =>
        have plain := Text.splitFirst?_eq_none_iff.mp split
        rw [split] at found
        rcases Option.or_eq_some_iff.mp found with own | ⟨absent, found⟩
        · exact .own plain own
        · obtain ⟨before, included, after, same, at_included, earlier⟩ :=
            List.findSome?_eq_some_iff.mp found
          exact .included plain absent same earlier at_included
  · intro named
    rw [lookup.eq_def]
    dsimp only
    cases named with
    | qualified plain same earlier at_included found =>
        rw [Text.splitFirst?_append _ plain]
        dsimp only
        rw [List.findSome?_filter]
        refine List.findSome?_eq_some_iff.mpr ⟨_, _, _, same, ?_, fun other member => ?_⟩
        · rw [if_pos (beq_iff_eq.mpr at_included), found]
        · exact ite_eq_right_iff.mpr fun qualified => earlier other member (eq_of_beq qualified)
    | own plain found => rw [Text.splitFirst?_eq_none_iff.mpr plain, found, Option.some_or]
    | included plain absent same earlier found =>
        rw [Text.splitFirst?_eq_none_iff.mpr plain, absent, Option.none_or]
        exact List.findSome?_eq_some_iff.mpr ⟨_, _, _, same, found, earlier⟩

/-- No name stands for two constants. -/
theorem Names.unique {index index' : Nat} (names : scope.Names file name index)
    (names' : scope.Names file name index') : index' = index :=
  Option.some.inj ((lookup_eq_some_iff.mpr names').symm.trans (lookup_eq_some_iff.mpr names))

theorem Names.exists_constant {index : Nat} (names : scope.Names file name index) :
    ∃ constant, scope.model.constants[index]? = some constant :=
  ⟨_, List.getElem?_eq_getElem (lt_length_of_lookup (lookup_eq_some_iff.mpr names))⟩

/-! ## Literals without parts -/

/-- The enums and structs of the model are types of those constructs. -/
structure KeepsKinds (scope : ConstantScope) : Prop where
  wellFormed : scope.graph.WellFormed
  enumKind : ∀ enum ∈ scope.model.enums, scope.graph.kind? enum.id = some .enum
  structKind : ∀ struct ∈ scope.model.structs,
    scope.graph.kind? struct.id = some (.struct struct.kind)

/-- A result tells whether a literal fits a type, and is a mismatch at its position if not. -/
def AnswersFit (scope : ConstantScope) (actual : TypeId) (literal : Literal) :
    Except Diagnostic ConstantValue → Prop
  | .ok _ => scope.Fits actual literal
  | .error problem => ¬ scope.Fits actual literal ∧
      ∃ text, problem = .detailed .typeMismatch literal.location text

theorem answersFit_mismatch {literal : Literal} (unfit : ¬ scope.Fits actual literal) :
    scope.AnswersFit actual literal (.error (scope.mismatch expected literal)) :=
  ⟨unfit, _, rfl⟩

namespace KeepsKinds

variable (keeps : scope.KeepsKinds)

include keeps

theorem kind?_of_enum? {enum : EnumType} (found : scope.model.enum? actual = some enum) :
    scope.graph.kind? actual = some .enum := by
  rw [Model.enum?] at found
  have same := List.find?_some found
  obtain rfl : enum.id = actual := eq_of_beq same
  exact keeps.enumKind enum (List.mem_of_find?_eq_some found)

theorem kind?_of_struct? {struct : StructType Literal}
    (found : scope.model.struct? actual = some struct) :
    scope.graph.kind? actual = some (.struct struct.kind) := by
  rw [Model.struct?] at found
  have same := List.find?_some found
  obtain rfl : struct.id = actual := eq_of_beq same
  exact keeps.structKind struct (List.mem_of_find?_eq_some found)

/-- Built-in types are no enums. -/
theorem enum?_ofBuiltin (builtin : Builtin) :
    scope.model.enum? (.ofBuiltin builtin) = none := by
  rw [Option.eq_none_iff_forall_ne_some]
  intro enum found
  have kind := keeps.kind?_of_enum? found
  rw [kind?_eq_none (keeps.wellFormed.builtin builtin) nofun] at kind
  cases kind

theorem structAt?_eq (actual : TypeId) : scope.structAt? actual = scope.model.struct? actual := by
  rw [structAt?]
  cases at_enum : scope.model.enum? actual with
  | none => rfl
  | some enum =>
      rw [eq_comm, Option.eq_none_iff_forall_ne_some]
      intro struct at_struct
      cases (keeps.kind?_of_enum? at_enum).symm.trans (keeps.kind?_of_struct? at_struct)

theorem ofBuiltin_inj {a b : Builtin} (same : TypeId.ofBuiltin a = .ofBuiltin b) : a = b := by
  have at_b := keeps.wellFormed.builtin b
  rw [← same, keeps.wellFormed.builtin a] at at_b
  cases at_b
  rfl

theorem answersFit_integerAt (builtin : Builtin) (location : Location) (i : Int64) :
    scope.AnswersFit (.ofBuiltin builtin) (.integer location i)
      (scope.integerAt expected builtin location i) := by
  rw [integerAt]
  split_ifs with no yes double
  · exact .bool (no.1 ▸ rfl) (.inl no.2)
  · exact .bool (yes.1 ▸ rfl) (.inr yes.2)
  · exact .wholeDouble (double ▸ rfl)
  · have range_of_fits (fits : scope.Fits (.ofBuiltin builtin) (.integer location i)) :
        ∃ low high, builtin.integerRange? = some (low, high) ∧ low ≤ i.toInt ∧ i.toInt ≤ high := by
      cases fits with
      | bool same bit =>
          obtain rfl := keeps.ofBuiltin_inj same
          exact absurd bit (not_or.mpr ⟨fun zero => no ⟨rfl, zero⟩, fun one => yes ⟨rfl, one⟩⟩)
      | integer same range low high =>
          obtain rfl := keeps.ofBuiltin_inj same
          exact ⟨_, _, range, low, high⟩
      | wholeDouble same => exact absurd (keeps.ofBuiltin_inj same) double
      | member at_enum _ _ =>
          rw [keeps.enum?_ofBuiltin builtin] at at_enum
          cases at_enum
    cases range : builtin.integerRange? with
    | none =>
        refine answersFit_mismatch fun fits => ?_
        obtain ⟨low, high, found, _⟩ := range_of_fits fits
        cases range.symm.trans found
    | some bounds =>
        dsimp only
        split_ifs with inside
        · exact .integer rfl range inside.1 inside.2
        · refine ⟨fun fits => ?_, _, rfl⟩
          obtain ⟨low, high, found, within⟩ := range_of_fits fits
          cases range.symm.trans found
          exact inside within

theorem answersFit_memberAt {enum : EnumType} (at_enum : scope.model.enum? actual = some enum)
    (location : Location) (i : Int64) :
    scope.AnswersFit actual (.integer location i) (scope.memberAt expected enum location i) := by
  rw [memberAt]
  cases found : enum.memberByValue? i.toInt with
  | some member =>
      rw [EnumType.memberByValue?] at found
      have same := List.find?_some found
      exact .member at_enum (List.mem_of_find?_eq_some found) (eq_of_beq same)
  | none =>
      refine ⟨fun fits => ?_, _, rfl⟩
      have no_builtin (builtin : Builtin) : actual ≠ .ofBuiltin builtin := by
        rintro rfl
        rw [keeps.enum?_ofBuiltin builtin] at at_enum
        cases at_enum
      cases fits with
      | bool same _ => exact no_builtin _ same
      | integer same _ _ _ => exact no_builtin _ same
      | wholeDouble same => exact no_builtin _ same
      | member at_enum' listed same =>
          obtain rfl := Option.some.inj (at_enum'.symm.trans at_enum)
          exact List.find?_eq_none.mp found _ listed (beq_iff_eq.mpr same)

/-- A literal without parts is tried at just the types that it may fit. -/
theorem answersFit_scalarAt {literal : Literal}
    (no_list : ∀ location items, literal ≠ .list location items)
    (no_map : ∀ location entries, literal ≠ .map location entries) :
    scope.AnswersFit actual literal (scope.scalarAt expected actual literal) := by
  have builtin_iff (builtin : Builtin) :
      scope.graph.builtin? actual = some builtin ↔ actual = .ofBuiltin builtin :=
    keeps.wellFormed.builtin?_eq_some_iff
  rw [scalarAt.eq_def]
  split
  · rename_i at_builtin
    rw [(builtin_iff _).mp at_builtin]
    exact keeps.answersFit_integerAt _ _ _
  · rename_i at_builtin
    exact .double ((builtin_iff _).mp at_builtin)
  · rename_i at_builtin
    exact .string (.inl ((builtin_iff _).mp at_builtin))
  · rename_i at_builtin
    exact .string (.inr ((builtin_iff _).mp at_builtin))
  · rename_i at_enum
    exact keeps.answersFit_memberAt at_enum _ _
  · rename_i no_integer no_double no_string no_binary no_member
    refine answersFit_mismatch fun fits => ?_
    cases fits with
    | bool same _ => exact no_integer _ _ _ ((builtin_iff _).mpr same) rfl
    | integer same _ _ _ => exact no_integer _ _ _ ((builtin_iff _).mpr same) rfl
    | wholeDouble same => exact no_integer _ _ _ ((builtin_iff _).mpr same) rfl
    | member at_enum _ _ =>
        cases at_builtin : scope.graph.builtin? actual with
        | none => exact no_member _ _ _ at_builtin at_enum rfl
        | some builtin => exact no_integer _ _ _ at_builtin rfl
    | double same => exact no_double _ _ ((builtin_iff _).mpr same) rfl
    | string same =>
        rcases same with same | same
        · exact no_string _ _ ((builtin_iff _).mpr same) rfl
        · exact no_binary _ _ ((builtin_iff _).mpr same) rfl
    | list _ => exact no_list _ _ rfl
    | map _ => exact no_map _ _ rfl
    | struct _ => exact no_map _ _ rfl

end KeepsKinds

/-! ## Literals with parts -/

theorem fits_list_iff {location : Location} {items : List Literal} :
    scope.Fits actual (.list location items) ↔
      ∃ element, scope.elementType? actual = some element := by
  simp only [elementType?_eq_some_iff]
  constructor
  · rintro ⟨⟩
    rename_i at_shape
    exact ⟨_, at_shape⟩
  · rintro ⟨element, at_shape⟩
    exact .list at_shape

theorem KeepsKinds.fits_map_iff (keeps : scope.KeepsKinds) {location : Location}
    {entries : List (Literal × Literal)} : scope.Fits actual (.map location entries) ↔
      (∃ types, scope.entryTypes? actual = some types) ∨
        ∃ struct, scope.structAt? actual = some struct := by
  rw [keeps.structAt?_eq]
  constructor
  · intro fits
    cases fits with
    | map at_shape => exact .inl ⟨_, entryTypes?_eq_some_iff.mpr at_shape⟩
    | struct at_struct => exact .inr ⟨_, at_struct⟩
  · rintro (⟨⟨key, value⟩, found⟩ | ⟨struct, at_struct⟩)
    · exact .map (entryTypes?_eq_some_iff.mp found)
    · exact .struct at_struct

theorem keyField?_of_fieldAt_ok {struct : StructType Literal} {key : Literal}
    {field : Field Literal} (found : scope.fieldAt expected struct key = .ok field) :
    struct.keyField? key = some field := by
  obtain ⟨location, name, rfl, at_name⟩ := field?_of_fieldAt found
  exact at_name

theorem keyField?_of_fieldAt_error {struct : StructType Literal} {key : Literal}
    {problem : Diagnostic} (refused : scope.fieldAt expected struct key = .error problem) :
    struct.keyField? key = none ∧
      ∃ text, problem = .detailed .typeMismatch key.location text := by
  rw [fieldAt.eq_def] at refused
  split at refused
  · rename_i location name
    split at refused
    · cases refused
    · rename_i at_name
      cases refused
      exact ⟨at_name, _, rfl⟩
  · rename_i no_string
    cases refused
    refine ⟨?_, _, rfl⟩
    rw [StructType.keyField?.eq_def]
    split
    · exact absurd rfl (no_string _ _)
    · rfl

end ConstantScope
end IdlSchema
