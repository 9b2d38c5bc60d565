import Mathlib.Data.List.TakeWhile
import Mathlib.Tactic
import IdlSchema.Text.Search

/-!
# Texts between points

A text without a point is in one part.  Otherwise it starts with a part without a point, and a point
behind that; where it is split at every point, the text behind goes on in the same way.
-/

namespace IdlSchema
namespace Text

variable {text part qualifier rest : String} {parts : List String}

theorem splitFirst?_append (name : String) (plain : '.' ∉ qualifier.toList) :
    splitFirst? (qualifier ++ "." ++ name) = some (qualifier, name) := by
  have all : ∀ c ∈ qualifier.toList, (c != '.') = true := by
    intro c member
    exact bne_iff_ne.mpr fun same => plain (same ▸ member)
  have behind : (qualifier ++ "." ++ name).toList.dropWhile (· != '.') = '.' :: name.toList := by
    simp [List.dropWhile_append_of_pos all]
  have before : (qualifier ++ "." ++ name).toList.takeWhile (· != '.') = qualifier.toList := by
    simp [List.takeWhile_append_of_pos all]
  simp only [splitFirst?, behind, before, String.ofList_toList]

/-- A text is split at its first point. -/
theorem splitFirst?_eq_some_iff : splitFirst? text = some (qualifier, rest) ↔
    '.' ∉ qualifier.toList ∧ text = qualifier ++ "." ++ rest := by
  constructor
  · intro split
    rw [splitFirst?] at split
    have whole := List.takeWhile_append_dropWhile (p := (· != '.')) (l := text.toList)
    cases behind : text.toList.dropWhile (· != '.') with
    | nil => simp [behind] at split
    | cons point after =>
        simp only [behind, Option.some.injEq, Prod.mk.injEq] at split
        obtain ⟨rfl, rfl⟩ := split
        obtain rfl : point = '.' := by
          have stops := List.head?_dropWhile_not (· != '.') text.toList
          simpa [behind] using stops
        refine ⟨fun member => ?_, String.toList_injective ?_⟩
        · rw [String.toList_ofList] at member
          simpa using List.mem_takeWhile_imp member
        · rw [behind] at whole
          simpa using whole.symm
  · rintro ⟨plain, rfl⟩
    exact splitFirst?_append rest plain

theorem splitFirst?_eq_none_iff : splitFirst? text = none ↔ '.' ∉ text.toList := by
  have all_iff : '.' ∉ text.toList ↔ ∀ c ∈ text.toList, (c != '.') = true :=
    ⟨fun absent c member => bne_iff_ne.mpr fun same => absent (same ▸ member),
      fun all member => by simpa using all _ member⟩
  rw [all_iff, ← List.dropWhile_eq_nil_iff, splitFirst?]
  cases text.toList.dropWhile (· != '.') <;> simp

/-- A text without a point is in one part. -/
theorem partsBetween_of_plain {α : Type} {separates : α → Bool} {list : List α}
    (plain : ∀ a ∈ list, separates a = false) : partsBetween separates list = [list] := by
  induction list with
  | nil => rfl
  | cons a rest induction =>
      obtain ⟨first, others⟩ := List.forall_mem_cons.mp plain
      rw [partsBetween, induction others]
      simp [first]

theorem partsBetween_append {α : Type} {separates : α → Bool} {list rest : List α} {separator : α}
    (plain : ∀ a ∈ list, separates a = false) (separated : separates separator = true) :
    partsBetween separates (list ++ separator :: rest) = list :: partsBetween separates rest := by
  induction list with
  | nil =>
      rw [List.nil_append, partsBetween]
      cases parts : partsBetween separates rest with
      | nil => exact absurd parts (partsBetween_ne_nil separates rest)
      | cons part others => simp [separated]
  | cons a list induction =>
      obtain ⟨first, others⟩ := List.forall_mem_cons.mp plain
      rw [List.cons_append, partsBetween, induction others]
      simp [first]

/-- The parts of two lists with a separator in the middle are those of the one and of the other. -/
theorem partsBetween_append_separator {α : Type} (separates : α → Bool) {separator : α}
    (separated : separates separator = true) (list rest : List α) :
    partsBetween separates (list ++ separator :: rest) =
      partsBetween separates list ++ partsBetween separates rest := by
  induction list with
  | nil => exact partsBetween_append (fun _ member => absurd member List.not_mem_nil) separated
  | cons a list induction =>
      rw [List.cons_append, partsBetween, partsBetween, induction]
      cases parts : partsBetween separates list with
      | nil => exact absurd parts (partsBetween_ne_nil separates list)
      | cons part others => cases separates a <;> simp

/-- No part has a separator in it. -/
theorem not_mem_of_mem_partsBetween {α : Type} (separates : α → Bool) {separator : α}
    (separated : separates separator = true) {list part : List α}
    (member : part ∈ partsBetween separates list) : separator ∉ part := by
  induction list generalizing part with
  | nil =>
      rw [List.mem_singleton.mp member]
      exact List.not_mem_nil
  | cons a list induction =>
      rw [partsBetween] at member
      cases parts : partsBetween separates list with
      | nil => exact absurd parts (partsBetween_ne_nil separates list)
      | cons next others =>
          simp only [parts] at member induction
          split at member
          · rcases List.mem_cons.mp member with rfl | later
            · exact List.not_mem_nil
            · exact induction later
          · rename_i joined
            rcases List.mem_cons.mp member with rfl | later
            · rw [List.mem_cons, not_or]
              refine ⟨fun same => joined (same ▸ separated), induction List.mem_cons_self⟩
            · exact induction (List.mem_cons_of_mem _ later)

private theorem separates_of_plain (plain : '.' ∉ text.toList) :
    ∀ c ∈ text.toList, (c == '.') = false :=
  fun _ member => beq_false_of_ne fun same => plain (same ▸ member)

theorem splitAll_of_plain (plain : '.' ∉ text.toList) : splitAll text = [text] := by
  rw [splitAll, partsBetween_of_plain (separates_of_plain plain)]
  simp

theorem splitAll_append (rest : String) (plain : '.' ∉ part.toList) :
    splitAll (part ++ "." ++ rest) = part :: splitAll rest := by
  have chars : (part ++ "." ++ rest).toList = part.toList ++ '.' :: rest.toList := by simp
  rw [splitAll, chars, partsBetween_append (separates_of_plain plain) (beq_self_eq_true '.')]
  simp [splitAll]

theorem splitAll_ne_nil (text : String) : splitAll text ≠ [] := by
  rw [splitAll, ne_eq, List.map_eq_nil_iff]
  exact partsBetween_ne_nil _ _

/-- The first part of a text has no point: it is the whole text, or a point stands behind it. -/
theorem splitAll_eq_cons_iff : splitAll text = part :: parts ↔ '.' ∉ part.toList ∧
    (text = part ∧ parts = [] ∨ ∃ rest, text = part ++ "." ++ rest ∧ splitAll rest = parts) := by
  constructor
  · intro split
    cases first : splitFirst? text with
    | none =>
        have plain := splitFirst?_eq_none_iff.mp first
        rw [splitAll_of_plain plain, List.cons.injEq] at split
        obtain ⟨rfl, rfl⟩ := split
        exact ⟨plain, .inl ⟨rfl, rfl⟩⟩
    | some halves =>
        obtain ⟨plain, same⟩ := splitFirst?_eq_some_iff.mp first
        rw [same, splitAll_append _ plain, List.cons.injEq] at split
        obtain ⟨rfl, rfl⟩ := split
        exact ⟨plain, .inr ⟨halves.2, same, rfl⟩⟩
  · rintro ⟨plain, ⟨rfl, rfl⟩ | ⟨rest, rfl, rfl⟩⟩
    · exact splitAll_of_plain plain
    · exact splitAll_append rest plain

theorem splitAll_eq_singleton_iff : splitAll text = [part] ↔ '.' ∉ part.toList ∧ text = part := by
  rw [splitAll_eq_cons_iff]
  refine and_congr_right fun _ => ⟨?_, fun same => .inl ⟨same, rfl⟩⟩
  rintro (⟨same, _⟩ | ⟨rest, _, split⟩)
  · exact same
  · exact absurd split (splitAll_ne_nil rest)

theorem splitAll_eq_cons_cons_iff {next : String} : splitAll text = part :: next :: parts ↔
    '.' ∉ part.toList ∧ ∃ rest, text = part ++ "." ++ rest ∧ splitAll rest = next :: parts := by
  rw [splitAll_eq_cons_iff]
  refine and_congr_right fun _ => ⟨?_, .inr⟩
  rintro (⟨_, absent⟩ | behind)
  · cases absent
  · exact behind

end Text
end IdlSchema
