import IdlSchema.Snippet.Bar
import IdlSchema.Snippet.Window

/-!
# The frame of a snippet

Each row of a snippet starts with room for the number of a line, a line that parts numbers from text,
and room for the bars in front of the text.  The text is seen through a window.
-/

namespace IdlSchema

/-- What the rows of a snippet have in common. -/
structure SnippetFrame where
  /-- The columns that are kept for line numbers. -/
  numberWidth : Nat
  /-- The number of bars in front of the text. -/
  depth : Nat
  window : Window
  /-- The ink of the marks of the problem itself. -/
  primaryInk : Ink

namespace SnippetFrame

/-- The number of columns in which lines are shown. -/
def screenWidth : Nat := 140

/-- The column of the line that parts numbers from text. -/
def gutter (frame : SnippetFrame) : Nat :=
  frame.numberWidth + 1

/-- The column of the first bar. -/
def barStart (frame : SnippetFrame) : Nat :=
  frame.numberWidth + 3

/-- The column of the first character of the text. -/
def textStart (frame : SnippetFrame) : Nat :=
  if frame.depth = 0 then frame.barStart else frame.barStart + frame.depth + 1

/-- The ink of a mark. -/
def ink (frame : SnippetFrame) (mark : Mark) : Ink :=
  if mark.isPrimary then frame.primaryInk else .blue

/-- A row with the gutter alone. -/
def spacer (frame : SnippetFrame) : Row :=
  Row.write [] frame.gutter (Cell.ofText .blue "|")

/-- What stands for text that is cut off. -/
def ellipsis : List Char := ['.', '.', '.']

/-- The number of a line, at the right of its room; one that needs more room reaches over it. -/
def numberText (frame : SnippetFrame) (line : SourceLine) : List Char :=
  let digits := (toString line.number).toList
  List.replicate (frame.numberWidth - digits.length) ' ' ++ digits

/-- A source line with its number, as it is seen. -/
def lineStrokes (frame : SnippetFrame) (line : SourceLine) (excerpt : Excerpt) : List Stroke :=
  let code := excerpt.text
  let rest := if excerpt.cutLeft then Window.dropColumns ellipsis.length code else code
  let restStart :=
    frame.textStart + Text.totalColumns (code.take (code.length - rest.length))
  let kept := (Window.dropColumns ellipsis.length code.reverse).length
  [{ row := 0
     column := frame.textStart
     text := if excerpt.cutLeft then ellipsis else []
     ink := .blue },
    { row := 0, column := restStart, text := rest, ink := .plain },
    { row := 0
      column := restStart + rest.length - (code.length - kept)
      text := if excerpt.cutRight then ellipsis else []
      ink := .blue },
    { row := 0, column := 0, text := frame.numberText line, ink := .blue },
    { row := 0, column := frame.gutter, text := ['|'], ink := .blue }]

/-- The row of a line without marks. -/
def plainLine (frame : SnippetFrame) (line : SourceLine) : List Row :=
  Stroke.draw 1 (frame.lineStrokes line (frame.window.excerpt line))

/-- The row that stands for lines that are left out. -/
def gapRow : Row :=
  Cell.ofChars .blue ellipsis

/-- A row with bars in front of the text. -/
def withBars (frame : SnippetFrame) (bars : Bars) (row : Row) : Row :=
  row.withBars frame.barStart bars

end SnippetFrame
end IdlSchema
