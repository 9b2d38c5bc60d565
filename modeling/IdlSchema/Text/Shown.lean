import IdlSchema.Text.Columns

/-!
# Characters as they are shown

Text is shown on a fixed grid, so characters without a form of their own are replaced: a tab by four
spaces, a control character by its picture, and one that changes the direction of writing by the
replacement character.  The joiner of zero width is left out.
-/

namespace IdlSchema
namespace Text

/-- Whether a character changes the direction of the text behind it. -/
def isDirectional (c : Char) : Bool :=
  (0x202a ≤ c.toNat && c.toNat ≤ 0x202e) || (0x2066 ≤ c.toNat && c.toNat ≤ 0x2069)

/-- The characters that are shown for one; a line break is kept. -/
def shown (c : Char) : List Char :=
  if c = '\t' then [' ', ' ', ' ', ' ']
  else if c = '\n' then [c]
  else if c.toNat < 0x20 then [Char.ofNat (0x2400 + c.toNat)]
  else if c.toNat = 0x7f then [Char.ofNat 0x2421]
  else if c.toNat = 0x200d then []
  else if isDirectional c then [Char.ofNat 0xfffd]
  else [c]

/-- A text as it is shown. -/
def shownText (text : List Char) : List Char :=
  text.flatMap shown

/-- The number of columns of the characters of a text. -/
def totalColumns : List Char → Nat
  | [] => 0
  | c :: text => columns c + totalColumns text

/-- The number of columns that a text takes when it is shown. -/
def width (text : List Char) : Nat :=
  totalColumns (shownText text)

@[simp]
theorem width_nil : width [] = 0 := rfl

theorem totalColumns_append (a b : List Char) :
    totalColumns (a ++ b) = totalColumns a + totalColumns b := by
  induction a with
  | nil => simp [totalColumns]
  | cons c a ih => simp only [List.cons_append, totalColumns, ih]; omega

theorem width_append (a b : List Char) : width (a ++ b) = width a + width b := by
  simp only [width, shownText, List.flatMap_append, totalColumns_append]

end Text
end IdlSchema
