/-!
# Repetitions in a list

Each element of a list is seen together with those before it.  An element repeats a key when one
before it has the same; the first that has it is the one that counts.
-/

namespace IdlSchema

/-- The elements of a list, each behind those before it, where some stand before the whole list. -/
def withEarlierFrom {α : Type} (earlier : List α) : List α → List (List α × α)
  | [] => []
  | a :: rest => (earlier, a) :: withEarlierFrom (earlier ++ [a]) rest

/-- The elements of a list, each behind those before it. -/
def withEarlier {α : Type} (list : List α) : List (List α × α) :=
  withEarlierFrom [] list

/-- The first of the earlier elements with the same key. -/
def firstWithKey? {α κ : Type} [BEq κ] (key : α → κ) (earlier : List α) (a : α) : Option α :=
  earlier.find? fun other => key other == key a

@[simp]
theorem map_snd_withEarlierFrom {α : Type} (earlier list : List α) :
    (withEarlierFrom earlier list).map Prod.snd = list := by
  induction list generalizing earlier with
  | nil => rfl
  | cons a rest ih => simp [withEarlierFrom, ih]

end IdlSchema
