/-!
# Searching and splitting texts

A text occurs in another when it stands somewhere in it without gaps.  Texts are split at the first
point, or at every point.
-/

namespace IdlSchema
namespace Text

/-- Whether a pattern stands somewhere in a text. -/
def occursIn (pattern : List Char) : List Char → Bool
  | [] => pattern.isEmpty
  | c :: text => pattern.isPrefixOf (c :: text) || occursIn pattern text

/-- The parts of a text before and behind the first point, if it has one. -/
def splitFirst? (text : String) : Option (String × String) :=
  let chars := text.toList
  match chars.dropWhile (· != '.') with
  | [] => none
  | _ :: rest => some (String.ofList (chars.takeWhile (· != '.')), String.ofList rest)

/-- The parts of a list between the elements that separate; there is always one part. -/
def partsBetween {α : Type} (separates : α → Bool) : List α → List (List α)
  | [] => [[]]
  | a :: rest =>
      match partsBetween separates rest with
      | [] => [[a]]
      | part :: parts => if separates a then [] :: part :: parts else (a :: part) :: parts

/-- The parts of a text between its points. -/
def splitAll (text : String) : List String :=
  (partsBetween (· == '.') text.toList).map String.ofList

theorem partsBetween_ne_nil {α : Type} (separates : α → Bool) (list : List α) :
    partsBetween separates list ≠ [] := by
  cases list with
  | nil => simp [partsBetween]
  | cons a rest =>
      simp only [partsBetween]
      split
      · simp
      · split <;> simp

end Text
end IdlSchema
