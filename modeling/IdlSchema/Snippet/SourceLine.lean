import IdlSchema.Snippet.Span
import IdlSchema.Text.Search
import IdlSchema.Text.Shown

/-!
# The lines of a source text

Lines end with a line feed, alone or behind a carriage return.  Nothing behind the last line break is
no line, except that an empty text has one empty line.
-/

namespace IdlSchema

/-- A line of a source text. -/
structure SourceLine where
  /-- The number of the line, from one. -/
  number : Nat
  /-- The characters in front of the line break. -/
  text : List Char
  /-- The position of the first character in the whole text. -/
  start : Nat
  /-- The position behind the line break. -/
  stop : Nat

namespace SourceLine

/-- What stands in front of the line feed of a line, without a carriage return at its end. -/
def withoutReturn (part : List Char) : List Char :=
  if part.getLast? = some '\r' then part.dropLast else part

/-- The lines of the parts between line feeds. -/
def ofParts (number start : Nat) : List (List Char) → List SourceLine
  | [] => []
  | [last] =>
      if last.isEmpty && number != 1 then []
      else [{ number, text := last, start, stop := start + last.length }]
  | part :: parts =>
      { number, text := withoutReturn part, start, stop := start + part.length + 1 } ::
        ofParts (number + 1) (start + part.length + 1) parts

/-- The lines of a text. -/
def ofText (text : List Char) : List SourceLine :=
  ofParts 1 0 (Text.partsBetween (· == '\n') text)

end SourceLine

/-- A position in a text as a place on a line; characters and columns are counted from zero. -/
structure Place where
  line : Nat
  character : Nat
  column : Nat
  deriving DecidableEq

namespace Place

/-- The start of a text. -/
def first : Place :=
  { line := 1, character := 0, column := 0 }

/--
The place of a position on a line that holds it.  All of a line break is behind the last character.
-/
def onLine (line : SourceLine) (position : Nat) : Place :=
  let before := line.text.take (position - line.start)
  { line := line.number, character := before.length, column := Text.width before }

/-- The line that holds a position; the end of the text belongs to the last line. -/
def lineOf? (lines : List SourceLine) (position : Nat) : Option SourceLine :=
  let holds (line : SourceLine) : Bool := line.start ≤ position && position < line.stop
  (lines.find? holds).or lines.getLast?

/-- The place of a position. -/
def ofPosition (lines : List SourceLine) (position : Nat) : Place :=
  match lineOf? lines position with
  | some line => onLine line position
  | none => first

/--
The place of a position at which a stretch starts.  Within a line break or behind it, it counts as
one character further.
-/
def ofStart (lines : List SourceLine) (position : Nat) : Place :=
  match lineOf? lines position with
  | some line =>
      let place := onLine line position
      if line.start + line.text.length < position then
        { place with character := place.character + 1 }
      else place
  | none => first

/-- The places at which a stretch starts and ends; one without characters ends where it starts. -/
def ofSpan (lines : List SourceLine) (span : Span) : Place × Place :=
  let start := ofStart lines span.start
  (start, if span.start = span.stop then start else ofPosition lines span.stop)

end Place
end IdlSchema
