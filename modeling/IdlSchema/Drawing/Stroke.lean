import IdlSchema.Drawing.Ink

/-!
# Drawings of characters

A drawing is a list of strokes on a grid of cells.  A stroke writes some characters from a cell
to the right, and a later one covers what an earlier one wrote.  A row ends with the last cell that a
stroke reaches; the cells in front of it that none reaches are blank.
-/

namespace IdlSchema

/-- A character in an ink. -/
structure Cell where
  char : Char
  ink : Ink
  deriving DecidableEq, Inhabited

/-- A row of cells, from the left. -/
abbrev Row := List Cell

/-- Some characters from a cell of a grid to the right. -/
structure Stroke where
  row : Nat
  column : Nat
  text : List Char
  ink : Ink

namespace Cell

/-- A cell that nothing is written to. -/
def blank : Cell :=
  { char := ' ', ink := .plain }

/-- Some characters in one ink. -/
def ofChars (ink : Ink) (text : List Char) : List Cell :=
  text.map fun char => { char, ink }

/-- A text in one ink. -/
def ofText (ink : Ink) (text : String) : List Cell :=
  ofChars ink text.toList

end Cell

namespace Row

/-- Writes cells over a row from a column on. -/
def write (row : Row) (column : Nat) (cells : List Cell) : Row :=
  if cells.isEmpty then row
  else
    row.take column ++ List.replicate (column - row.length) .blank ++ cells ++
      row.drop (column + cells.length)

/-- Puts cells in the place of those between two columns, if the row reaches both. -/
def replace (row : Row) (start stop : Nat) (cells : List Cell) : Row :=
  if start = stop || row.length < start || row.length < stop then row
  else row.take start ++ cells ++ row.drop stop

/-- The text of a row without its inks. -/
def plainText (row : Row) : String :=
  String.ofList (row.map Cell.char)

/-- The text of cells, each ink switched on and off around the cells that have it in common. -/
def runsText : Ink → List Char → List Cell → String
  | ink, reversed, [] => ink.wrap (String.ofList reversed.reverse)
  | ink, reversed, cell :: cells =>
      if cell.ink = ink then runsText ink (cell.char :: reversed) cells
      else ink.wrap (String.ofList reversed.reverse) ++ runsText cell.ink [cell.char] cells

/-- The text of a row with its inks. -/
def coloredText (row : Row) : String :=
  runsText .plain [] row

/-- The text of a row, with its inks if they are wanted. -/
def text (colored : Bool) (row : Row) : String :=
  if colored then row.coloredText else row.plainText

theorem length_write (row : Row) (column : Nat) (cells : List Cell) (written : cells ≠ []) :
    (write row column cells).length = max row.length (column + cells.length) := by
  have nonempty : cells.isEmpty = false := by simpa using written
  simp only [write, nonempty, Bool.false_eq_true, if_false, List.length_append, List.length_take,
    List.length_replicate, List.length_drop]
  omega

theorem replace_of_short (row : Row) (start stop : Nat) (cells : List Cell)
    (short : row.length < stop) : row.replace start stop cells = row := by
  simp [replace, short]

end Row

namespace Stroke

/-- Draws a stroke over rows; outside them it leaves no trace. -/
def applyTo (stroke : Stroke) (rows : List Row) : List Row :=
  rows.modify stroke.row fun row =>
    Row.write row stroke.column (Cell.ofChars stroke.ink stroke.text)

/-- The rows of a drawing. -/
def draw (height : Nat) (strokes : List Stroke) : List Row :=
  strokes.foldl (fun rows stroke => stroke.applyTo rows) (List.replicate height [])

@[simp]
theorem length_applyTo (stroke : Stroke) (rows : List Row) :
    (stroke.applyTo rows).length = rows.length := by
  simp [applyTo]

theorem length_draw (height : Nat) (strokes : List Stroke) :
    (draw height strokes).length = height := by
  suffices step : ∀ rows : List Row,
      (strokes.foldl (fun rows stroke => stroke.applyTo rows) rows).length = rows.length by
    simp [draw, step]
  induction strokes with
  | nil => simp
  | cons stroke strokes ih => intro rows; simp [ih]

end Stroke
end IdlSchema
