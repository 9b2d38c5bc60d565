import IdlSchema.Location
import IdlSchema.Text.WordCharacter

/-!
# The range of bytes at a position

The stretch of a source text at a position, found in the bytes of the text.  A text can be cut only
between its characters, so every cut is one that may fail.  A picture of the text is drawn from the
same stretch in numbers of characters.
-/

namespace IdlSchema

namespace Text

/-- The number of bytes of some characters. -/
def byteLength : List Char → Nat
  | [] => 0
  | c :: text => c.utf8Size + byteLength text

/-- What stands before and behind a number of bytes, if they end with a character of the text. -/
def splitBytes? : Nat → List Char → Option (List Char × List Char)
  | 0, text => some ([], text)
  | _ + 1, [] => none
  | bytes + 1, c :: text =>
      if c.utf8Size ≤ bytes + 1 then
        (splitBytes? (bytes + 1 - c.utf8Size) text).map fun (before, behind) =>
          (c :: before, behind)
      else none

/-- What stands between two numbers of bytes, if both end with a character and are in order. -/
def slice? (text : List Char) (start stop : Nat) : Option (List Char) :=
  if start ≤ stop then do
    let (_, behind) ← splitBytes? start text
    let (slice, _) ← splitBytes? (stop - start) behind
    return slice
  else none

/-- The number of bytes in front of the first character with a property. -/
def findByte? (p : Char → Bool) : List Char → Option Nat
  | [] => none
  | c :: text => if p c then some 0 else (findByte? p text).map (c.utf8Size + ·)

/-- The number of bytes in front of a character, which are counted from zero. -/
def byteOfChar? (text : List Char) (index : Nat) : Option Nat :=
  if index < text.length then some (byteLength (text.take index)) else none

/-- The lines of a text, each with the line feed that ends it. -/
def linesWithBreaks : List Char → List (List Char)
  | [] => []
  | c :: text =>
      if c = '\n' then [c] :: linesWithBreaks text
      else
        match linesWithBreaks text with
        | [] => [[c]]
        | line :: lines => (c :: line) :: lines

end Text

namespace Location

/--
The range of bytes of the word at a position, or of the one character there.  There is no result if
the text is cut within a character or outside.
-/
def byteRange? (location : Location) (text : List Char) : Option (Nat × Nat) := do
  let linesBefore := (Text.linesWithBreaks text).take (location.line.toNat - 1)
  let lineStart := Text.byteLength linesBefore.flatten
  let fromLine ← Text.slice? text lineStart (Text.byteLength text)
  let lineEnd := (Text.findByte? (· == '\n') fromLine).elim (Text.byteLength text) (lineStart + ·)
  let line ← Text.slice? text lineStart lineEnd
  let start := (Text.byteOfChar? line (location.column.toNat - 1)).elim lineEnd (lineStart + ·)
  let rest ← Text.slice? text start lineEnd
  let wordLength := (Text.findByte? (!Text.isWordCharacter ·) rest).getD (lineEnd - start)
  if wordLength = 0 then
    let behind ← Text.slice? text start (Text.byteLength text)
    return (start, start + (behind.head?.map Char.utf8Size).getD 0)
  else return (start, start + wordLength)

end Location
end IdlSchema
