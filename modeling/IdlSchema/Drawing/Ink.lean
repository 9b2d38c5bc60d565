/-!
# Inks

What is written to a terminal is plain, bold, or bold in a color.  An ink is switched on by escape
sequences in front of the text and off by one behind it.
-/

namespace IdlSchema

/-- The ways in which text is set off from its surroundings. -/
inductive Ink where
  | plain
  | bold
  | red
  | yellow
  | blue
  | cyan
  deriving DecidableEq, Inhabited

namespace Ink

/-- An escape sequence that sets an attribute of the text behind it. -/
def sequence (code : String) : String :=
  "\x1b[" ++ code ++ "m"

/-- What switches an ink on. -/
def opening : Ink → String
  | plain => ""
  | bold => sequence "1"
  | red => sequence "1" ++ sequence "91"
  | yellow => sequence "1" ++ sequence "33"
  | blue => sequence "1" ++ sequence "94"
  | cyan => sequence "1" ++ sequence "96"

/-- What switches an ink off. -/
def closing : Ink → String
  | plain => ""
  | _ => sequence "0"

/-- A text in an ink. -/
def wrap (ink : Ink) (text : String) : String :=
  ink.opening ++ text ++ ink.closing

end Ink
end IdlSchema
