import IdlSchema.Text.Runs

/-!
# Blank characters

The characters with the Unicode property White_Space, and texts made of nothing else.
-/

namespace IdlSchema
namespace Text

/-- The runs of the property White_Space. -/
def blankRuns : Runs :=
  ⟨[
     9, 5, 18, 1, 100, 1, 26, 1, 5599, 1, 2431, 11, 29, 2, 5, 1, 47, 1, 4000, 1]⟩

/-- Whether a character is white space. -/
def isBlank (c : Char) : Bool :=
  blankRuns.contains c

/-- Whether a text holds nothing but white space. -/
def blank (text : String) : Bool :=
  text.toList.all isBlank

theorem isBlank_of_isWhitespace (c : Char) (white : c.isWhitespace) : isBlank c := by
  simp only [Char.isWhitespace, Bool.or_eq_true, decide_eq_true_eq] at white
  rcases white with ((rfl | rfl) | rfl) | rfl <;> decide

end Text
end IdlSchema
