import IdlSchema.Location
import IdlSchema.Text.WordCharacter

/-!
# The stretch of text at a position

A position points at a word of the source text, or at a single character where no word starts.
Lines and columns that the text does not have count as its end or the end of the line.
-/

namespace IdlSchema

/-- A stretch of a text between two numbers of characters. -/
structure Span where
  start : Nat
  stop : Nat
  deriving DecidableEq

namespace Span

/-- What follows some line breaks; nothing follows those that the text does not have. -/
def dropLines : Nat → List Char → List Char
  | 0, text => text
  | _ + 1, [] => []
  | count + 1, c :: text =>
      if c = '\n' then dropLines count text else dropLines (count + 1) text

/-- The rest of a line from a column on; lines and columns are counted from zero. -/
def restOfLine (line column : Nat) (text : List Char) : List Char :=
  ((dropLines line text).takeWhile (· != '\n')).drop column

/-- Where the rest of a line starts. -/
def startOf (line column : Nat) (text : List Char) : Nat :=
  let fromLine := dropLines line text
  text.length - fromLine.length +
    ((fromLine.takeWhile (· != '\n')).length - (restOfLine line column text).length)

/-- The word at a line and a column, or else the one character there, if there is one. -/
def wordAt (line column : Nat) (text : List Char) : Span :=
  let start := startOf line column text
  match ((restOfLine line column text).takeWhile Text.isWordCharacter).length with
  | 0 => { start, stop := min (start + 1) text.length }
  | length => { start, stop := start + length }

/-- The stretch of the text that a position points at. -/
def ofLocation (location : Location) (text : List Char) : Span :=
  wordAt (location.line.toNat - 1) (location.column.toNat - 1) text

@[simp]
theorem dropLines_nil (count : Nat) : dropLines count [] = [] := by
  cases count <;> rfl

theorem length_dropLines_le (count : Nat) (text : List Char) :
    (dropLines count text).length ≤ text.length := by
  fun_induction dropLines count text <;> simp_all <;> omega

end Span
end IdlSchema
