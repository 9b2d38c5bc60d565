import IdlSchema.Snippet.MarkedLine

/-!
# Pictures of source lines

A snippet shows the lines that have marks, each with its number in front and its marks and their
labels on the rows below.  A single line between two such lines is shown as well; several are left
out, with an ellipsis in their place.
-/

namespace IdlSchema
namespace SnippetFrame

/-- What is shown for the lines between two marked ones. -/
def gap (frame : SnippetFrame) : List SourceLine → List Row
  | [] => []
  | [line] => frame.plainLine line
  | _ => [gapRow]

/-- The bars that begin at marks of a line. -/
def begunBars (frame : SnippetFrame) (marks : List Mark) : Bars :=
  (marks.filter (·.isOpening)).filterMap frame.bar?

/--
The rows of all lines from the first marked one to the last.  `skipped` are the lines since the last
marked one, from the last on, `bars` run on behind that one, and `gapBars` stand in front of what is shown for the
skipped lines.
-/
def lineRows (frame : SnippetFrame) (marks : Marks) (bars gapBars : Bars)
    (skipped : List SourceLine) : List SourceLine → List Row
  | [] => []
  | line :: rest =>
      match marks.onLine line with
      | [] => lineRows frame marks bars gapBars (line :: skipped) rest
      | own =>
          let drawn := frame.markedLine line own
          let (passing, begun) := bars.through drawn.ends
          (frame.gap skipped).map (frame.withBars gapBars) ++
            drawn.rows.map (frame.withBars passing) ++
            lineRows frame marks (passing ++ begun) (passing ++ frame.begunBars own) [] rest

end SnippetFrame

/-- The number of decimal digits of a number. -/
def decimalWidth (n : Nat) : Nat :=
  (toString n).length

/-- The columns that are kept for line numbers: those of the last line that a remark reaches. -/
def lineNumberWidth (text : List Char) (remarks : List Remark) : Nat :=
  let stop := (remarks.map (·.span.stop)).foldl max 0
  decimalWidth (SourceLine.ofText (text.take stop)).length

/-- The rows of a snippet with remarks on a text: where it is from, and the marked lines. -/
def snippetRows (path : String) (text : List Char) (remarks : List Remark) (primaryInk : Ink) :
    SnippetFrame × List Row :=
  let lines := SourceLine.ofText text
  let marks := Marks.ofRemarks lines remarks
  let marked := lines.filter fun line => !(marks.onLine line).isEmpty
  let numberWidth := lineNumberWidth text remarks
  let outline : SnippetFrame :=
    { numberWidth, depth := marks.depth, window := ⟨0, 0, 0⟩, primaryInk }
  let window :=
    Window.ofLines marked marks.marks (SnippetFrame.screenWidth - outline.textStart)
  let frame := { outline with window }
  let (line, character) := (marks.primaryPlace? lines).getD (1, 0)
  let origin :=
    Cell.ofText .plain (String.ofList (List.replicate numberWidth ' ')) ++
      Cell.ofText .blue "--> " ++
      Cell.ofText .plain path ++
      Cell.ofText .plain (":" ++ toString line ++ ":" ++ toString (character + 1))
  let unmarked (line : SourceLine) : Bool := (marks.onLine line).isEmpty
  (frame,
    origin :: frame.spacer :: frame.lineRows marks [] [] [] (lines.dropWhile unmarked))

end IdlSchema
