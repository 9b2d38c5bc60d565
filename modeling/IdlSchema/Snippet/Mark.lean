import IdlSchema.Snippet.SourceLine

/-!
# Marks on source lines

A remark on a stretch of text becomes a mark under the line that the stretch lies on.  A stretch that
runs over the end of its line is opened on that line and closed on the next; the bar that joins the
two marks stands in front of the text, at a depth of its own if several bars would meet.
-/

namespace IdlSchema

/-- Whether a remark tells of the problem itself or of what has to do with it. -/
inductive RemarkRole where
  | primary
  | secondary
  deriving DecidableEq

/-- Something to be said of a stretch of the text. -/
structure Remark where
  role : RemarkRole
  span : Span
  label : String

/-- How a mark lies on its line. -/
inductive MarkShape where
  | within
  | opening (depth : Nat)
  | closing (depth : Nat)
  deriving DecidableEq

/-- A mark under some columns of a line. -/
structure Mark where
  role : RemarkRole
  shape : MarkShape
  line : Nat
  /-- The number of characters on the line in front of the mark. -/
  character : Nat
  /-- The number of characters on the line up to the end of the mark. -/
  characterStop : Nat
  start : Nat
  stop : Nat
  label? : Option String

namespace Mark

/-- Whether there is something to say at the mark. -/
def isLabelled (mark : Mark) : Bool :=
  mark.label?.any (!·.isEmpty)

/-- Whether the mark is joined to another by a bar in front of the text. -/
def isJoined (mark : Mark) : Bool :=
  mark.shape != .within

/-- Whether the mark belongs to the problem itself. -/
def isPrimary (mark : Mark) : Bool :=
  mark.role == .primary

/-- Whether the mark opens a stretch that runs over the end of the line. -/
def isOpening (mark : Mark) : Bool :=
  match mark.shape with
  | .opening _ => true
  | _ => false

/-- The number of columns under which the mark stands. -/
def length (mark : Mark) : Nat :=
  mark.stop - mark.start

/-- Whether two marks have a column in common when the first is wider by some padding. -/
def overlaps (first second : Mark) (padding : Nat) : Bool :=
  (second.start ≤ first.start && first.start < second.stop) ||
    (first.start ≤ second.start && second.start < first.stop + padding)

/-- Whether two marks stand under the same characters and the same columns. -/
def coincides (first second : Mark) : Bool :=
  first.character == second.character && first.characterStop == second.characterStop &&
    first.start == second.start && first.stop == second.stop

end Mark

/-- A remark on a stretch that runs over the end of a line. -/
structure Crossing where
  remark : Remark
  start : Place
  stop : Place
  /-- How far from the text the bar stands, from one. -/
  depth : Nat
  /-- Whether another remark on the same stretch is drawn in its place. -/
  repeated : Bool

namespace Crossing

/-- Whether two crossings lie on a common line. -/
def meets (a b : Crossing) : Bool :=
  (b.start.line ≤ a.start.line && a.start.line ≤ b.stop.line) ||
    (a.start.line ≤ b.start.line && b.start.line ≤ a.stop.line)

/-- Whether two crossings are remarks on the same stretch. -/
def coincides (a b : Crossing) : Bool :=
  a.remark.span == b.remark.span

/-- The crossing as one of the problem itself, if it lies on the stretch of one that is. -/
def promoted (primary : List Span) (crossing : Crossing) : Crossing :=
  if primary.contains crossing.remark.span then
    { crossing with remark := { crossing.remark with role := .primary } }
  else crossing

/--
What the crossing at an index does to those from another index on: it pushes those aside that it
meets and replaces those on its own stretch, up to the first that is left as it is.
-/
def pushAside (outer : Crossing) (index : Nat) (primary : List Span) :
    Nat → List Crossing → List Crossing
  | _, [] => []
  | place, inner :: rest =>
      if !outer.coincides inner && outer.meets inner then
        { inner with depth := inner.depth + 1 } :: pushAside outer index primary (place + 1) rest
      else if outer.coincides inner && place != index then
        { inner with repeated := true } :: pushAside outer index primary (place + 1) rest
      else inner.promoted primary :: rest

/-- The crossings in order of their lines with the depths of their bars. -/
def arranged (crossings : List Crossing) : List Crossing :=
  let sorted := crossings.mergeSort fun a b => a.start.line ≤ b.start.line
  let primary := (sorted.filter (·.remark.role == .primary)).map (·.remark.span)
  let pushed := sorted.zipIdx.foldl
    (fun current (outer, index) => pushAside outer index primary 0 current) sorted
  let deepest := (pushed.map (·.depth)).foldl max 0
  pushed.map fun crossing => { crossing with depth := deepest - crossing.depth + 1 }

/-- The mark at the end of the first line. -/
def openingMark (crossing : Crossing) : Mark :=
  { role := crossing.remark.role
    shape := .opening crossing.depth
    line := crossing.start.line
    character := crossing.start.character
    characterStop := crossing.start.character + 1
    start := crossing.start.column
    stop := crossing.start.column + 1
    label? := none }

/-- The mark at the start of the second line, which has the label. -/
def closingMark (crossing : Crossing) : Mark :=
  { role := crossing.remark.role
    shape := if crossing.repeated then .within else .closing crossing.depth
    line := crossing.stop.line
    character := crossing.stop.character - 1
    characterStop := crossing.stop.character
    start := crossing.stop.column - 1
    stop := crossing.stop.column
    label? := some crossing.remark.label }

/-- The marks of a crossing. -/
def marks (crossing : Crossing) : List Mark :=
  if crossing.repeated then [crossing.closingMark]
  else [crossing.openingMark, crossing.closingMark]

end Crossing

namespace Remark

/-- A remark on a stretch of one line as a mark; an empty stretch is marked by one column. -/
def mark? (lines : List SourceLine) (remark : Remark) : Option Mark :=
  let (start, stop) := Place.ofSpan lines remark.span
  if start.line = stop.line then
    some {
      role := remark.role
      shape := .within
      line := start.line
      character := start.character
      characterStop := stop.character
      start := start.column
      stop := if start.column = stop.column then start.column + 1 else stop.column
      label? := some remark.label }
  else none

/-- A remark on a stretch that runs over the end of a line. -/
def crossing? (lines : List SourceLine) (remark : Remark) : Option Crossing :=
  let (start, stop) := Place.ofSpan lines remark.span
  if start.line = stop.line then none
  else some { remark, start, stop, depth := 1, repeated := false }

end Remark

/-- The marks of some remarks, and the number of bars that stand side by side. -/
structure Marks where
  marks : List Mark
  depth : Nat

namespace Marks

/-- The marks of some remarks on the lines of a text. -/
def ofRemarks (lines : List SourceLine) (remarks : List Remark) : Marks :=
  let crossings := Crossing.arranged (remarks.filterMap (·.crossing? lines))
  { marks := remarks.filterMap (·.mark? lines) ++ crossings.flatMap (·.marks)
    depth := (crossings.map (·.depth)).foldl max 0 }

/-- The marks under a line. -/
def onLine (marks : Marks) (line : SourceLine) : List Mark :=
  marks.marks.filter (·.line == line.number)

/-- Where the problem itself is: the first line with a mark of it and the first mark there. -/
def primaryPlace? (marks : Marks) (lines : List SourceLine) : Option (Nat × Nat) :=
  let primary (line : SourceLine) : List Mark := (marks.onLine line).filter (·.isPrimary)
  (lines.find? fun line => !(primary line).isEmpty).bind fun line =>
    ((primary line).map (·.character)).min?.map fun character => (line.number, character)

end Marks
end IdlSchema
