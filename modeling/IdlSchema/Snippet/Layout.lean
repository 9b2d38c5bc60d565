import IdlSchema.Snippet.Mark

/-!
# The rows of labels

The label of the rightmost mark stands on the row of the marks.  The labels of marks further to the
left hang on rows of their own below, so that no two labels meet.  Marks have places, counted from
the right.
-/

namespace IdlSchema

/-- A mark with the row of its label; row zero is the row of the marks themselves. -/
structure HungMark where
  mark : Mark
  row : Nat
  /-- Whether the label has left the row of the marks to give way. -/
  isDisplaced : Bool

/-- The marks of a line with the rows of their labels. -/
structure MarkLayout where
  hung : List HungMark
  /-- The number of rows below the source line, without one. -/
  lastRow : Nat
  /-- The places at which marks are found to share columns. -/
  tangled : List Nat

namespace MarkLayout

/-- The columns that the label of a mark takes up. -/
def labelRoom (mark : Mark) : Nat :=
  (mark.label?.map fun label => label.utf8ByteSize + 2).getD 0

/-- Whether a labelled mark has to give way to one further to the left that it covers. -/
def givesWay (mark next : Mark) : Bool :=
  mark.isLabelled && next.overlaps mark 0 && !(next.coincides mark && !next.isLabelled)

/-- Whether the label of a mark further to the left has to hang below that of a mark in some row. -/
def crowds (row : Nat) (mark next : Mark) : Bool :=
  let meets := next.overlaps mark (labelRoom next)
  (meets && mark.isLabelled && next.isLabelled) ||
    (mark.isJoined && next.isLabelled) ||
    (mark.isLabelled && next.isJoined) ||
    (mark.isJoined && next.isJoined) ||
    (meets && next.stop ≤ mark.stop && next.isLabelled && row == 0)

/-- Hangs marks, from right to left, on a row and those below, and tells the last row in use. -/
def hang : Nat → List Mark → List HungMark × Nat
  | _, [] => ([], 0)
  | row, mark :: rest =>
      let isDisplaced := row = 0 && rest.any (givesWay mark)
      let own := if isDisplaced then 1 else row
      let next := if rest.any (crowds own mark) then own + 1 else own
      let (hung, last) := hang next rest
      ({ mark, row := own, isDisplaced } :: hung, max next last)

/-- Whether a mark stands further to the right than another, or at least as far. -/
def isRightOf (a b : Mark) : Bool :=
  b.start < a.start || (a.start == b.start && b.character ≤ a.character)

/--
The marks, with their places, that the mark at a place is compared with: those up to the first to
which it gives way, or all.
-/
def compared (marks : List Mark) (place : Nat) (hung : HungMark) : List (Mark × Nat) :=
  let stops : Mark × Nat → Bool := fun (next, nextPlace) =>
    place < nextPlace && givesWay hung.mark next
  if hung.isDisplaced then marks.zipIdx.take (marks.zipIdx.findIdx stops + 1) else marks.zipIdx

/-- Shared columns are looked for with the marks from this place on, and those share with themselves. -/
def tangledFrom : Nat := 2

/-- The places with which the mark at a place is found to share columns, and its own if there are any. -/
def tangledWith (marks : List Mark) (place : Nat) (hung : HungMark) : List Nat :=
  let met := (compared marks place hung).filter fun (next, nextPlace) =>
    tangledFrom ≤ nextPlace && next.overlaps hung.mark 0
  if met.isEmpty then [] else place :: met.map (·.2)

/--
The layout of the marks of a line.  Where all of them open a bar the rows are turned around, so that
no bar crosses another.
-/
def ofMarks (marks : List Mark) : MarkLayout :=
  let sorted := marks.mergeSort isRightOf
  let (hung, last) := hang 0 sorted
  let last := if last = 0 then 0 else last + 1
  let tangled := hung.zipIdx.flatMap fun (hung, place) => tangledWith sorted place hung
  if hung.all (·.mark.isOpening) then
    let deepest := (hung.map (·.row)).foldl max 0
    { hung := hung.map fun hung => { hung with row := deepest - hung.row }
      lastRow := last - 1
      tangled }
  else { hung, lastRow := last, tangled }

/-- The marks from the longest to the shortest; of equal ones those of the problem come last. -/
def byLength (layout : MarkLayout) : List HungMark :=
  layout.hung.mergeSort fun a b =>
    b.mark.length < a.mark.length ||
      (a.mark.length == b.mark.length && (!a.mark.isPrimary || b.mark.isPrimary))

/--
The marks that may be shortened, from the longest on: where columns are shared at a place, the mark
with that rank in length keeps its columns.
-/
def untangled (layout : MarkLayout) : List Mark :=
  (layout.byLength.zipIdx.filter fun (_, rank) => !layout.tangled.contains rank).map (·.1.mark)

end MarkLayout
end IdlSchema
