import IdlSchema.Json.Basic

/-!
# Reading JSON text

A text is read from left to right into a value and what is left of it.  The first character that
cannot go on is the error, with its line and its column; columns count bytes.
-/

namespace IdlSchema
namespace Json

/-- Why a text is not JSON. -/
inductive Fault where
  | endOfInput
  | expectedValue
  | expectedKey
  | expectedColon
  | expectedCommaOrEnd
  | invalidNumber
  | invalidEscape
  | controlCharacter
  | trailingCharacters
  deriving DecidableEq

namespace Fault

/-- What is wrong, in words. -/
def message : Fault → String
  | endOfInput => "EOF while parsing a value"
  | expectedValue => "expected value"
  | expectedKey => "key must be a string"
  | expectedColon => "expected ':'"
  | expectedCommaOrEnd => "expected ',' or a closing bracket"
  | invalidNumber => "invalid number"
  | invalidEscape => "invalid escape"
  | controlCharacter => "control character found while parsing a string"
  | trailingCharacters => "trailing characters"

end Fault

/-- A fault and where it was met. -/
structure ReadError where
  fault : Fault
  line : Nat
  column : Nat
  deriving DecidableEq

namespace ReadError

/-- The error as text. -/
def message (error : ReadError) : String :=
  error.fault.message ++ " at line " ++ toString error.line ++ " column " ++ toString error.column

end ReadError

/-- What reading a part of a text gives: the part and the rest, or a fault and where it stands. -/
abbrev Reading (α : Type) := Except (Fault × List Char) (α × List Char)

/-- Goes on with a part that was read and the rest behind it. -/
def Reading.andThen {α β : Type} (reading : Reading α) (next : α → List Char → Reading β) :
    Reading β :=
  match reading with
  | .error fault => .error fault
  | .ok (value, rest) => next value rest

/-- Whether a character is blank between the parts of a text. -/
def isGap (c : Char) : Bool :=
  c == ' ' || c == '\n' || c == '\t' || c == '\r'

/-- What is left behind blanks. -/
def skipGaps (text : List Char) : List Char :=
  text.dropWhile isGap

/-- The fault where something is missing: at the end of the text, that it ends. -/
def missing {α : Type} (fault : Fault) (rest : List Char) : Reading α :=
  .error (if rest.isEmpty then .endOfInput else fault, rest)

/-- The number of a hexadecimal digit. -/
def hexValue? (c : Char) : Option Nat :=
  if '0' ≤ c && c ≤ '9' then some (c.toNat - '0'.toNat)
  else if 'a' ≤ c && c ≤ 'f' then some (c.toNat - 'a'.toNat + 10)
  else if 'A' ≤ c && c ≤ 'F' then some (c.toNat - 'A'.toNat + 10)
  else none

/-- The number of four hexadecimal digits. -/
def hexValue4? (a b c d : Char) : Option Nat := do
  let a ← hexValue? a
  let b ← hexValue? b
  let c ← hexValue? c
  let d ← hexValue? d
  return ((a * 16 + b) * 16 + c) * 16 + d

/-- The character behind a backslash, unless it starts a code unit. -/
def escaped? : Char → Option Char
  | '"' => some '"'
  | '\\' => some '\\'
  | '/' => some '/'
  | 'b' => some '\x08'
  | 'f' => some '\x0c'
  | 'n' => some '\n'
  | 'r' => some '\r'
  | 't' => some '\t'
  | _ => none

/-- Whether a code unit is the first of a pair. -/
def isLeading (unit : Nat) : Bool :=
  0xD800 ≤ unit && unit < 0xDC00

/-- Whether a code unit is the second of a pair. -/
def isTrailing (unit : Nat) : Bool :=
  0xDC00 ≤ unit && unit < 0xE000

/-- The character that two code units stand for together. -/
def pairedChar (leading trailing : Nat) : Char :=
  Char.ofNat (0x10000 + (leading - 0xD800) * 0x400 + (trailing - 0xDC00))

/-- What a string is written with: characters, and code units given by their numbers. -/
inductive StringPart where
  | char (c : Char)
  | unit (code : Nat)
  deriving DecidableEq

/-- Reads the parts of a string behind its opening mark; `seen` holds those before in reverse. -/
def readParts (seen : List StringPart) : List Char → Reading (List StringPart)
  | '"' :: rest => .ok (seen.reverse, rest)
  | '\\' :: 'u' :: a :: b :: c :: d :: rest =>
      match hexValue4? a b c d with
      | some code => readParts (.unit code :: seen) rest
      | none => .error (.invalidEscape, '\\' :: 'u' :: a :: b :: c :: d :: rest)
  | '\\' :: c :: rest =>
      match escaped? c with
      | some plain => readParts (.char plain :: seen) rest
      | none => .error (.invalidEscape, '\\' :: c :: rest)
  | c :: rest =>
      if c.toNat < 32 then .error (.controlCharacter, c :: rest)
      else readParts (.char c :: seen) rest
  | [] => .error (.endOfInput, [])

/-- The characters of some parts, unless a code unit of a pair stands alone. -/
def charsOfParts? : List StringPart → Option (List Char)
  | [] => some []
  | .char c :: parts => (charsOfParts? parts).map (c :: ·)
  | .unit leading :: .unit trailing :: parts =>
      if isLeading leading then
        if isTrailing trailing then
          (charsOfParts? parts).map (pairedChar leading trailing :: ·)
        else none
      else if isTrailing leading then none
      else (charsOfParts? (.unit trailing :: parts)).map (Char.ofNat leading :: ·)
  | .unit code :: parts =>
      if isLeading code || isTrailing code then none
      else (charsOfParts? parts).map (Char.ofNat code :: ·)

/-- Reads a string behind its opening mark; there is no text if half a character is escaped. -/
def readString (text : List Char) : Reading (Option String) :=
  (readParts [] text).map fun (parts, rest) => ((charsOfParts? parts).map String.ofList, rest)

/-- A string as a value. -/
def ofString? : Option String → Json
  | some text => .string text
  | none => .illFormed

/-- An object as a value. -/
def ofFields (fields : List (Option String × Json)) : Json :=
  match fields.mapM fun (key?, value) => key?.map fun key => (key, value) with
  | some fields => .object fields
  | none => .illFormed

/-- The number of a decimal digit. -/
def digitValue (c : Char) : Nat :=
  c.toNat - '0'.toNat

/-- Reads one digit or more. -/
def readDigits (text : List Char) : Reading (List Nat) :=
  let digits := text.takeWhile Char.isDigit
  if digits.isEmpty then missing .invalidNumber text
  else .ok (digits.map digitValue, text.dropWhile Char.isDigit)

/-- Reads the digits before the point; only zero itself starts with a zero. -/
def readWhole (text : List Char) : Reading Nat :=
  (readDigits text).andThen fun digits rest =>
    match digits with
    | 0 :: _ :: _ => .error (.invalidNumber, text.drop 1)
    | _ => .ok (digits.foldl (fun n digit => 10 * n + digit) 0, rest)

/-- Reads the digits behind a point, if one follows. -/
def readFraction : List Char → Reading (List Nat)
  | '.' :: rest => readDigits rest
  | rest => .ok ([], rest)

/-- Reads the sign and the digits of an exponent. -/
def readSignedExponent (text : List Char) : Reading Int :=
  let (negative, text) :=
    match text with
    | '-' :: rest => (true, rest)
    | '+' :: rest => (false, rest)
    | rest => (false, rest)
  (readDigits text).andThen fun digits rest =>
    let size : Nat := digits.foldl (fun n digit => 10 * n + digit) 0
    .ok (if negative then -size else size, rest)

/-- Reads an exponent, if one follows. -/
def readExponent : List Char → Reading (Option Int)
  | c :: rest =>
      if c == 'e' || c == 'E' then
        (readSignedExponent rest).map fun (exponent, rest) => (some exponent, rest)
      else .ok (none, c :: rest)
  | [] => .ok (none, [])

/-- Reads a number. -/
def readNumeral (text : List Char) : Reading Numeral :=
  let (negative, text) :=
    match text with
    | '-' :: rest => (true, rest)
    | rest => (false, rest)
  (readWhole text).andThen fun whole rest =>
    (readFraction rest).andThen fun fraction rest =>
      (readExponent rest).andThen fun exponent rest =>
        .ok ({ negative, whole, fraction, exponent }, rest)

/-- Reads the rest of a word. -/
def readWord (json : Json) : List Char → List Char → Reading Json
  | [], rest => .ok (json, rest)
  | c :: word, d :: rest => if c = d then readWord json word rest else missing .expectedValue (d :: rest)
  | _ :: _, [] => .error (.endOfInput, [])

/-- Reads the mark between a key and its value. -/
def readColon (text : List Char) : Reading Unit :=
  match skipGaps text with
  | ':' :: rest => .ok ((), rest)
  | rest => missing .expectedColon rest

/-- Reads a key and the mark behind it. -/
def readKey (text : List Char) : Reading (Option String) :=
  match skipGaps text with
  | '"' :: rest =>
      (readString rest).andThen fun key rest =>
        (readColon rest).andThen fun _ rest => .ok (key, rest)
  | rest => missing .expectedKey rest

mutual

/--
Reads a value.  `fuel` bounds the number of values, items and fields that are entered; each has
a character of its own, so twice the length of the text is enough.
-/
def readValue : Nat → List Char → Reading Json
  | 0, text => .error (.endOfInput, text)
  | fuel + 1, text =>
      match skipGaps text with
      | 'n' :: rest => readWord .null ['u', 'l', 'l'] rest
      | 't' :: rest => readWord (.bool true) ['r', 'u', 'e'] rest
      | 'f' :: rest => readWord (.bool false) ['a', 'l', 's', 'e'] rest
      | '"' :: rest => (readString rest).map fun (text?, rest) => (ofString? text?, rest)
      | '[' :: rest =>
          match skipGaps rest with
          | ']' :: rest => .ok (.array [], rest)
          | rest => (readItems fuel rest).map fun (items, rest) => (.array items, rest)
      | '\x7b' :: rest =>
          match skipGaps rest with
          | '\x7d' :: rest => .ok (.object [], rest)
          | rest => (readFields fuel rest).map fun (fields, rest) => (ofFields fields, rest)
      | c :: rest =>
          if c == '-' || c.isDigit then
            (readNumeral (c :: rest)).map fun (numeral, rest) => (.number numeral, rest)
          else .error (.expectedValue, c :: rest)
      | [] => .error (.endOfInput, [])

/-- Reads one item or more and the end of their array. -/
def readItems : Nat → List Char → Reading (List Json)
  | 0, text => .error (.endOfInput, text)
  | fuel + 1, text =>
      (readValue fuel text).andThen fun item rest =>
        match skipGaps rest with
        | ',' :: rest => (readItems fuel rest).map fun (items, rest) => (item :: items, rest)
        | ']' :: rest => .ok ([item], rest)
        | rest => missing .expectedCommaOrEnd rest

/-- Reads one field or more and the end of their object. -/
def readFields : Nat → List Char → Reading (List (Option String × Json))
  | 0, text => .error (.endOfInput, text)
  | fuel + 1, text =>
      (readKey text).andThen fun key rest =>
        (readValue fuel rest).andThen fun value rest =>
          match skipGaps rest with
          | ',' :: rest =>
              (readFields fuel rest).map fun (fields, rest) => ((key, value) :: fields, rest)
          | '\x7d' :: rest => .ok ([(key, value)], rest)
          | rest => missing .expectedCommaOrEnd rest

end

/-- The number of bytes of some characters. -/
def byteCount (text : List Char) : Nat :=
  text.foldl (fun n c => n + c.utf8Size) 0

/-- The line and column of what is left of a text. -/
def errorAt (text : List Char) (fault : Fault) (rest : List Char) : ReadError :=
  let before := text.take (text.length - rest.length)
  let inLine := (before.reverse.takeWhile (· != '\n')).reverse
  { fault
    line := before.count '\n' + 1
    column := byteCount inLine + (if rest.isEmpty then 0 else 1) }

/-- The value of a whole text. -/
def read (text : String) : Except ReadError Json :=
  let chars := text.toList
  match readValue (2 * chars.length + 2) chars with
  | .error (fault, rest) => .error (errorAt chars fault rest)
  | .ok (json, rest) =>
      match skipGaps rest with
      | [] => .ok json
      | rest => .error (errorAt chars .trailingCharacters rest)

end Json
end IdlSchema
