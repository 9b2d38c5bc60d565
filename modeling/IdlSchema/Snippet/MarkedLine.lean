import IdlSchema.Snippet.Frame
import IdlSchema.Snippet.Layout

/-!
# Lines with marks

Below a source line stand its marks and their labels.  A mark of one line that is much longer than
the window is wide is shortened together with the text above it.
-/

namespace IdlSchema
namespace SnippetFrame

/-- The gutter beside a number of rows below the source line. -/
def gutterStrokes (frame : SnippetFrame) (count : Nat) : List Stroke :=
  (List.range count).map fun row =>
    { row := row + 1, column := frame.gutter, text := ['|'], ink := .blue }

/-- The column of the grid at which a column of a line is shown. -/
def column (frame : SnippetFrame) (left column : Nat) : Nat :=
  frame.textStart + column - left

/-- The same character on each of some rows. -/
def vertical (char : Char) (ink : Ink) (column first count : Nat) : List Stroke :=
  (List.range count).map fun row => { row := first + row, column, text := [char], ink }

/-- The line from the bar of a joined mark to the mark. -/
def leadStrokes (frame : SnippetFrame) (left : Nat) (hung : HungMark) : List Stroke :=
  let lead (depth : Nat) : List Stroke :=
    let start := frame.barStart + depth
    [{ row := hung.row + 1
       column := start
       text := List.replicate (frame.column left hung.mark.start - start) '_'
       ink := frame.ink hung.mark }]
  match hung.mark.shape with
  | .within => []
  | .opening depth => lead depth
  | .closing depth => lead depth

/-- The line from a mark down to its label or lead, and the bar of a joined mark. -/
def hangerStrokes (frame : SnippetFrame) (left lastRow : Nat) (hung : HungMark) : List Stroke :=
  let ink := frame.ink hung.mark
  let hanger :=
    if hung.row != 0 && (hung.mark.isLabelled || hung.mark.isJoined) then
      vertical '|' ink (frame.column left hung.mark.start) 1 (hung.row + 1)
    else []
  let bar :=
    match hung.mark.shape with
    | .within => []
    | .opening depth =>
        let column := frame.barStart + depth - 1
        vertical ' ' ink column (hung.row + 1) 1 ++
          vertical '|' ink column (hung.row + 2) (lastRow - hung.row)
    | .closing depth => vertical '|' ink (frame.barStart + depth - 1) 0 (hung.row + 2)
  hanger ++ bar

/-- The label of a mark: behind it on the same row, or below it. -/
def labelStrokes (frame : SnippetFrame) (left : Nat) (hung : HungMark) : List Stroke :=
  let mark := hung.mark
  let text := (mark.label?.map String.toList).getD []
  let behind := if mark.stop = 0 then 2 else mark.stop + 1
  if hung.row = 0 then
    [{ row := 1, column := frame.textStart + (behind - left), text, ink := frame.ink mark }]
  else
    [{ row := hung.row + 2
       column := frame.textStart + (mark.start - left)
       text
       ink := frame.ink mark }]

/-- The mark itself under its columns. -/
def underline (frame : SnippetFrame) (left : Nat) (hung : HungMark) : Stroke :=
  let mark := hung.mark
  let char := if mark.isPrimary then '^' else '-'
  let hasCorner := mark.isJoined || (hung.row != 0 && mark.isLabelled)
  let length := if hasCorner then max mark.length 1 else mark.length
  { row := 1
    column := frame.column left mark.start
    text := List.replicate length char
    ink := frame.ink mark }

/-- The bar in front of a line that opens it alone and has nothing in front of the mark. -/
def shortOpening? (frame : SnippetFrame) (line : SourceLine) (mark : Mark) : Option Stroke :=
  match mark.shape with
  | .opening depth =>
      if ((Text.shownText line.text).take mark.start).all Text.isBlank then
        some {
          row := 0
          column := frame.barStart + depth - 1
          text := ['/']
          ink := frame.ink mark }
      else none
  | _ => none

/-- The columns of the grid between which a long mark and its text are shortened. -/
def shortened? (frame : SnippetFrame) (left : Nat) (mark : Mark) : Option (Nat × Nat) :=
  let width := frame.window.width
  let kept := max (width / 3) 5
  if mark.shape == .within && 2 * width < mark.length && 10 < mark.length then
    some (frame.column left (mark.start + kept), frame.textStart + mark.stop - kept - left)
  else none

/-- The rows of a line with a long mark shortened on those of the text and of the marks. -/
def shorten (frame : SnippetFrame) (left : Nat) (rows : List Row) (mark : Mark) : List Row :=
  match frame.shortened? left mark with
  | some (start, stop) =>
      let shorter (row : Row) : Row := row.replace start stop (Cell.ofChars .blue ellipsis)
      (rows.take 2).map shorter ++ rows.drop 2
  | none => rows

/-- A line with its marks, as it is drawn. -/
structure MarkedLine where
  rows : List Row
  /-- The bars that end or begin at marks of the line. -/
  ends : Bars

/-- The bar of a joined mark. -/
def bar? (frame : SnippetFrame) (mark : Mark) : Option Bar :=
  match mark.shape with
  | .within => none
  | .opening depth => some { depth, ink := frame.ink mark }
  | .closing depth => some { depth, ink := frame.ink mark }

/-- The rows of a line with its marks. -/
def markedLine (frame : SnippetFrame) (line : SourceLine) (marks : List Mark) : MarkedLine :=
  let excerpt := frame.window.excerpt line
  match marks.mapM (frame.shortOpening? line) with
  | some openings =>
      { rows := Stroke.draw 1 (frame.lineStrokes line excerpt ++ openings)
        ends := marks.filterMap frame.bar? }
  | none =>
      let layout := MarkLayout.ofMarks marks
      let left := excerpt.start
      let drawn := Stroke.draw (layout.lastRow + 2)
        (frame.lineStrokes line excerpt ++
          frame.gutterStrokes (layout.lastRow + 1) ++
          layout.hung.flatMap (frame.leadStrokes left) ++
          layout.hung.flatMap (frame.hangerStrokes left layout.lastRow) ++
          layout.hung.flatMap (frame.labelStrokes left) ++
          layout.byLength.map (frame.underline left))
      { rows := layout.untangled.foldl (frame.shorten left) drawn
        ends := (layout.byLength.map (·.mark)).filterMap frame.bar? }

end SnippetFrame
end IdlSchema
