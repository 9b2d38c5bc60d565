import IdlSchema.Json.Magnitude

/-!
# JSON text

Values are written without blanks, or with one field or item on a line and two spaces for each
level.  In strings only the quotation mark, the backslash and control characters are escaped.  What is
no text cannot be written and becomes null.
-/

namespace IdlSchema
namespace Json

/-- The lower-case hexadecimal digit of a number below sixteen. -/
def hexDigit (n : Nat) : Char :=
  Nat.digitChar n

/-- A character inside a string. -/
def escape (c : Char) : List Char :=
  if c = '"' then ['\\', '"']
  else if c = '\\' then ['\\', '\\']
  else if c = '\x08' then ['\\', 'b']
  else if c = '\x0c' then ['\\', 'f']
  else if c = '\n' then ['\\', 'n']
  else if c = '\r' then ['\\', 'r']
  else if c = '\t' then ['\\', 't']
  else if c.toNat < 32 then
    ['\\', 'u', '0', '0', hexDigit (c.toNat / 16), hexDigit (c.toNat % 16)]
  else [c]

/-- A string with its quotation marks. -/
def quote (text : String) : String :=
  "\"" ++ String.ofList (text.toList.flatMap escape) ++ "\""

namespace Numeral

/-- The text of a numeral. -/
def text (numeral : Numeral) : String :=
  let sign := if numeral.negative then "-" else ""
  let fraction :=
    if numeral.fraction.isEmpty then ""
    else "." ++ String.ofList (numeral.fraction.map Nat.digitChar)
  let exponent := (numeral.exponent.map floatLayout.exponentText).getD ""
  sign ++ toString numeral.whole ++ fraction ++ exponent

end Numeral

mutual

/-- The text of a value without blanks. -/
def compact : Json → String
  | .null => "null"
  | .bool true => "true"
  | .bool false => "false"
  | .number numeral => numeral.text
  | .string text => quote text
  | .array items => "[" ++ ",".intercalate (compactItems items) ++ "]"
  | .object fields => "\x7b" ++ ",".intercalate (compactFields fields) ++ "\x7d"
  | .illFormed => "null"

/-- The texts of the items of an array. -/
def compactItems : List Json → List String
  | [] => []
  | item :: items => item.compact :: compactItems items

/-- The texts of the fields of an object. -/
def compactFields : List (String × Json) → List String
  | [] => []
  | (key, value) :: fields => (quote key ++ ":" ++ value.compact) :: compactFields fields

end

/-- A line break followed by two spaces for each level. -/
def lineBreak (level : Nat) : String :=
  "\n" ++ String.ofList (List.replicate (2 * level) ' ')

/-- Parts between an opening and a closing mark, each on a line of its own. -/
def indented (level : Nat) (opening closing : String) (parts : List String) : String :=
  if parts.isEmpty then opening ++ closing
  else
    opening ++ lineBreak (level + 1) ++ ("," ++ lineBreak (level + 1)).intercalate parts ++
      lineBreak level ++ closing

mutual

/-- The text of a value at an indentation level, with one field or item on a line. -/
def prettyAt (level : Nat) : Json → String
  | .array items => indented level "[" "]" (prettyItems (level + 1) items)
  | .object fields => indented level "\x7b" "\x7d" (prettyFields (level + 1) fields)
  | .null => "null"
  | .bool true => "true"
  | .bool false => "false"
  | .number numeral => numeral.text
  | .string text => quote text
  | .illFormed => "null"

/-- The texts of the items of an array at a level. -/
def prettyItems (level : Nat) : List Json → List String
  | [] => []
  | item :: items => item.prettyAt level :: prettyItems level items

/-- The texts of the fields of an object at a level. -/
def prettyFields (level : Nat) : List (String × Json) → List String
  | [] => []
  | (key, value) :: fields =>
      (quote key ++ ": " ++ value.prettyAt level) :: prettyFields level fields

end

/-- The text of a value with one field or item on a line. -/
def pretty (json : Json) : String :=
  json.prettyAt 0

end Json
end IdlSchema
