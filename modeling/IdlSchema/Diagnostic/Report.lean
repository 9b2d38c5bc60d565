import IdlSchema.Diagnostic.Basic
import IdlSchema.Snippet.Picture

/-!
# Problems for a reader

A problem in a file whose text is known is shown with the lines that it is about, its hints below; any
other is told on one line.
-/

namespace IdlSchema

namespace Severity

/-- The ink of what is marked as an error or a warning. -/
def ink : Severity → Ink
  | error => .red
  | warning => .yellow

end Severity

namespace Diagnostic

/-- A word in an ink with a text behind it; further lines of the text stand below its start. -/
def captionRows (wordInk textInk : Ink) (word : String) (colon : List Cell) (text : List Char) :
    List Row :=
  match Text.partsBetween (· == '\n') text with
  | [] => []
  | first :: others =>
      (Cell.ofText wordInk word ++ colon ++ Cell.ofChars textInk first) ::
        others.map fun line =>
          List.replicate (word.length + colon.length) Cell.blank ++ Cell.ofChars textInk line

/-- What is wrong, on top of the snippet. -/
def titleRows (diagnostic : Diagnostic) : List Row :=
  captionRows diagnostic.severity.ink .bold diagnostic.severity.text (Cell.ofText .bold ": ")
    (Text.shownText diagnostic.message.toList)

/-- A hint below the snippet. -/
def hintRows (hint : String) : List Row :=
  captionRows .cyan .plain "help" (Cell.ofText .plain ": ") hint.toList

/-- What there is to say of the text of the file: the message, and what is related to it there. -/
def remarks (diagnostic : Diagnostic) (text : List Char) : List Remark :=
  let here := diagnostic.related.filter fun related =>
    related.location.path == diagnostic.location.path
  { role := .primary
    span := .ofLocation diagnostic.location text
    label := diagnostic.message } ::
    here.map fun related =>
      { role := .secondary
        span := .ofLocation related.location text
        label := related.message }

/-- The rows of a problem in a file with a given text. -/
def snippetReport (diagnostic : Diagnostic) (text : List Char) : List Row :=
  let (frame, rows) :=
    snippetRows diagnostic.location.path text (diagnostic.remarks text) diagnostic.severity.ink
  diagnostic.titleRows ++ rows ++
    (if diagnostic.hints.isEmpty then [] else frame.spacer :: diagnostic.hints.flatMap hintRows)

/-- A problem for a reader, given the texts of files. -/
def report (colored : Bool) (source? : String → Option String) (diagnostic : Diagnostic) : String :=
  match source? diagnostic.location.path with
  | some text => "\n".intercalate ((diagnostic.snippetReport text.toList).map (Row.text colored))
  | none => diagnostic.text

end Diagnostic

namespace Diagnostics

/-- Problems for a reader, one below the other. -/
def report (diagnostics : Diagnostics) (colored : Bool) (source? : String → Option String) :
    String :=
  "\n".intercalate (diagnostics.map (Diagnostic.report colored source?))

end Diagnostics
end IdlSchema
