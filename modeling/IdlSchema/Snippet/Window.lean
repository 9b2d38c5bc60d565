import IdlSchema.Snippet.Mark
import IdlSchema.Text.Blank

/-!
# The window on long lines

Source lines are shown through a window of limited width.  Deep common indentation is cut off, and
where the lines still do not fit the window moves to the marks and their labels.
-/

namespace IdlSchema

/-- The columns that are shown, and how many fit. -/
structure Window where
  left : Nat
  right : Nat
  width : Nat

/-- What is seen of a line through a window. -/
structure Excerpt where
  /-- The number of columns of the line in front of what is seen. -/
  start : Nat
  text : List Char
  /-- Whether columns are cut off in front. -/
  cutLeft : Bool
  /-- Whether columns are cut off behind. -/
  cutRight : Bool

namespace Window

/-- Spare columns around what has to be seen. -/
def slack : Nat := 6

/-- Indentation up to this number of columns is shown. -/
def indentLimit : Nat := 20

/-- Columns of indentation that are kept when the rest is cut off. -/
def indentKept : Nat := 16

/-- The number of columns of blanks in front of a text. -/
def indentColumns : List Char → Nat
  | [] => 0
  | c :: text =>
      if Text.isBlank c then (if c = '\t' then 4 else 1) + indentColumns text else 0

/-- The columns of the indentation of a line, unless it is blank. -/
def indent? (line : SourceLine) : Option Nat :=
  if line.text.all Text.isBlank then none
  else some (indentColumns line.text)

/-- The column behind the label of a mark that stands on the same row. -/
def labelEnd (mark : Mark) : Nat :=
  mark.stop + ((mark.label?.map fun label => Text.width label.toList + 1).getD 0)

/--
The window for some lines with their marks.  The columns that have to be seen are those of the code
from its indentation or its first mark on, else those of the marks with their labels, else those of
the marks.
-/
def ofLines (lines : List SourceLine) (marks : List Mark) (width : Nat) : Window :=
  let leftmost := (marks.map fun mark => min mark.start mark.stop).min?.getD 0
  let indent := min ((lines.filterMap indent?).min?.getD 0) leftmost - slack
  let spanLeft := leftmost - slack
  let spanRight := (marks.map fun mark => max mark.start mark.stop).foldl max 0 + slack
  let labelRight := (marks.map labelEnd).foldl max 0 + slack
  let left := if indentLimit < indent then indent - indentKept else 0
  let right := max ((lines.map fun line => Text.width line.text).foldl max 0) left
  if right - left ≤ width then { left, right, width }
  else if labelRight - indent ≤ width then { left := indent, right := indent + width, width }
  else if labelRight - spanLeft ≤ width then
    let left := spanLeft - (width - (labelRight - spanLeft)) / 2
    { left, right := left + width, width }
  else if spanRight - spanLeft ≤ width then
    let left := spanLeft - (width - (spanRight - spanLeft)) / 5 * 2
    { left, right := left + width, width }
  else { left := spanLeft, right := spanRight, width }

/-- The text without the characters at its front that it takes to fill some columns. -/
def dropColumns (count : Nat) : List Char → List Char
  | [] => []
  | c :: text => if count = 0 then c :: text else dropColumns (count - Text.columns c) text

/-- The characters at the front of a text that fit some columns. -/
def takeColumns (count : Nat) : List Char → List Char
  | [] => []
  | c :: text =>
      if Text.columns c ≤ count then c :: takeColumns (count - Text.columns c) text else []

/--
What is seen of a line.  A character that lies across the left edge is not seen, and neither are
those from the first on that does not fit; lines that fit from the left edge on are seen to their end.
-/
def excerpt (window : Window) (line : SourceLine) : Excerpt :=
  let shown := Text.shownText line.text
  let width := Text.totalColumns shown
  let left := min window.left width
  let right := if width - window.left ≤ window.width then width else min width window.right
  let rest := dropColumns left shown
  { start := width - Text.totalColumns rest
    text := takeColumns (right - left) rest
    cutLeft := window.left != 0
    cutRight := right < width }

end Window
end IdlSchema
