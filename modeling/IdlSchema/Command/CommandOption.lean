import IdlSchema.Command.Basic

/-!
# Options

Each option has a long name, a short one or both, and belongs to one command or to all.  It may take a
value, and only some may be given more than once.
-/

namespace IdlSchema

/-- The commands by name. -/
inductive CommandName where
  | check
  | dump
  deriving DecidableEq

namespace CommandName

/-- The word for a command. -/
def text : CommandName → String
  | check => "check"
  | dump => "dump"

/-- The command with a given word. -/
def ofText? (text : String) : Option CommandName :=
  [check, dump].find? (·.text == text)

end CommandName

/-- The options of the commands. -/
inductive CommandOption where
  | help
  | includeDir
  | noDeprecationWarnings
  | maxIncludeDepth
  | color
  | verbose
  | strict
  | format
  | annotations
  | output
  deriving DecidableEq

namespace CommandOption

/-- All options. -/
def all : List CommandOption :=
  [help, includeDir, noDeprecationWarnings, maxIncludeDepth, color, verbose, strict, format,
    annotations, output]

/-- The name behind two dashes. -/
def long? : CommandOption → Option String
  | help => some "help"
  | includeDir => some "include-dir"
  | noDeprecationWarnings => some "no-deprecation-warnings"
  | maxIncludeDepth => some "max-include-depth"
  | color => some "color"
  | verbose => none
  | strict => some "strict"
  | format => some "format"
  | annotations => some "annotations"
  | output => some "output"

/-- The name behind one dash. -/
def short? : CommandOption → Option Char
  | help => some 'h'
  | includeDir => some 'I'
  | verbose => some 'v'
  | output => some 'o'
  | _ => none

/-- Whether the option comes with a value. -/
def takesValue : CommandOption → Bool
  | includeDir | maxIncludeDepth | color | format | output => true
  | _ => false

/-- Whether the option may be given more than once. -/
def isRepeatable : CommandOption → Bool
  | includeDir | verbose => true
  | _ => false

/-- Whether a command has the option. -/
def belongsTo (option : CommandOption) (command : CommandName) : Bool :=
  match option with
  | strict | format => command == .check
  | annotations | output => command == .dump
  | _ => true

/-- The options of a command. -/
def ofCommand (command : CommandName) : List CommandOption :=
  all.filter (·.belongsTo command)

/-- The option of a command with a long name. -/
def ofLong? (command : CommandName) (name : String) : Option CommandOption :=
  (ofCommand command).find? (·.long? == some name)

/-- The option of a command with a short name. -/
def ofShort? (command : CommandName) (name : Char) : Option CommandOption :=
  (ofCommand command).find? (·.short? == some name)

end CommandOption

/-- Why arguments make no command. -/
inductive UsageError where
  | noArguments
  | helpWanted
  | unknownCommand (word : String)
  | unknownArgument (argument : String)
  | missingFile
  | missingValue (option : CommandOption)
  | emptyPath
  | notAllowed (value : String)
  | notANumber (value : String)
  | repeated (option : CommandOption)
  | unexpectedValue (option : CommandOption)
  deriving DecidableEq

namespace UsageError

/-- The name of an option as it is written. -/
def optionText (option : CommandOption) : String :=
  match option.long?, option.short? with
  | some name, _ => "--" ++ name
  | none, some name => "-" ++ String.singleton name
  | none, none => ""

/-- How the program is called. -/
def usage : String :=
  "usage: idlschema check FILE... [--strict] [--format text|json] [OPTIONS]\n" ++
    "       idlschema dump FILE... [--annotations] [-o FILE] [OPTIONS]\n" ++
    "options: -I DIR, --no-deprecation-warnings, --max-include-depth N,\n" ++
    "         --color auto|always|never, -v"

/-- The message of a usage error. -/
def message : UsageError → String
  | noArguments => usage
  | helpWanted => usage
  | unknownCommand word => "error: unknown command '" ++ word ++ "'"
  | unknownArgument argument => "error: unexpected argument '" ++ argument ++ "'"
  | missingFile => "error: no input file"
  | missingValue option => "error: a value is required for '" ++ optionText option ++ "'"
  | emptyPath => "error: a path is empty"
  | notAllowed value => "error: invalid value '" ++ value ++ "'"
  | notANumber value => "error: invalid number '" ++ value ++ "'"
  | repeated option => "error: '" ++ optionText option ++ "' is given more than once"
  | unexpectedValue option => "error: '" ++ optionText option ++ "' takes no value"

end UsageError
end IdlSchema
