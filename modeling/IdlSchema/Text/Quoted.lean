import IdlSchema.Text.Extending
import IdlSchema.Text.Printable

/-!
# Quoted text

Text between quotation marks in which every character can be told: marks and backslashes are
escaped, and characters that do not show, or that would merge with the one before, are
given by their code.
-/

namespace IdlSchema
namespace Text

/-- A character by its code in hexadecimal. -/
def codeEscape (c : Char) : List Char :=
  ['\\', 'u', '\x7b'] ++ Nat.toDigits 16 c.toNat ++ ['\x7d']

/-- A character between quotation marks. -/
def quoteChar (c : Char) : List Char :=
  if c = '"' then ['\\', '"']
  else if c = '\\' then ['\\', '\\']
  else if c = '\n' then ['\\', 'n']
  else if c = '\r' then ['\\', 'r']
  else if c = '\t' then ['\\', 't']
  else if c = '\x00' then ['\\', '0']
  else if isExtending c || !isPrintable c then codeEscape c
  else [c]

/-- A text with its quotation marks. -/
def quoted (text : String) : String :=
  "\"" ++ String.ofList (text.toList.flatMap quoteChar) ++ "\""

end Text
end IdlSchema
