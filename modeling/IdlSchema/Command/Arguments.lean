import IdlSchema.Command.CommandOption

/-!
# Commands from arguments

Arguments are read from the left.  A value stands in the argument of its option or in the next one, and
is judged only when something else follows, so an unknown option is found before a bad value in
front of it.  Behind two dashes alone every argument is a file.
-/

namespace IdlSchema

/-- What has been given so far. -/
structure GivenOptions where
  files : List String
  includeDirs : List String
  verbosity : Nat
  /-- The options met so far that may be given only once. -/
  seen : List CommandOption
  maxIncludeDepth? : Option UInt32
  color? : Option ColorChoice
  format? : Option ReportFormat
  output? : Option String

/-- What has been met but not judged yet. -/
inductive PendingArgument where
  | nothing
  | files (paths : List String)
  | option (option : CommandOption) (value? : Option String)

namespace GivenOptions

/-- Nothing has been given. -/
def initial : GivenOptions :=
  { files := [], includeDirs := [], verbosity := 0, seen := [], maxIncludeDepth? := none
    color? := none, format? := none, output? := none }

/-- The largest number of times that an option is counted. -/
def verbosityLimit : Nat := 255

/-- A path, which must not be empty. -/
def path (text : String) : Except UsageError String :=
  if text.isEmpty then .error .emptyPath else .ok text

/-- The number of some decimal digits. -/
def digits? (chars : List Char) : Option Nat :=
  if chars.isEmpty || !chars.all Char.isDigit then none
  else some (chars.foldl (fun n c => 10 * n + (c.toNat - '0'.toNat)) 0)

/-- A number of 32 bits with an optional sign. -/
def uint32? (text : String) : Option UInt32 :=
  let number? : Option Nat :=
    match text.toList with
    | '+' :: chars => digits? chars
    | '-' :: chars => (digits? chars).filter (· == 0)
    | chars => digits? chars
  (number?.filter (· < UInt32.size)).map UInt32.ofNat

/-- One of the words of a choice. -/
def choice {α : Type} (ofText? : String → Option α) (text : String) : Except UsageError α :=
  match ofText? text with
  | some value => .ok value
  | none => .error (.notAllowed text)

/-- Takes in an option that has no value. -/
def withFlag (given : GivenOptions) : CommandOption → GivenOptions
  | .verbose => { given with verbosity := min (given.verbosity + 1) verbosityLimit }
  | _ => given

/-- Takes in an option with its value. -/
def withValue (given : GivenOptions) (option : CommandOption) (value : String) :
    Except UsageError GivenOptions :=
  match option with
  | .includeDir => do
      let dir ← path value
      return { given with includeDirs := given.includeDirs ++ [dir] }
  | .maxIncludeDepth =>
      match uint32? value with
      | some depth => .ok { given with maxIncludeDepth? := some depth }
      | none => .error (.notANumber value)
  | .color => do
      let color ← choice ColorChoice.ofText? value
      return { given with color? := some color }
  | .format => do
      let format ← choice ReportFormat.ofWord? value
      return { given with format? := some format }
  | .output => do
      let output ← path value
      return { given with output? := some output }
  | _ => .error (.unexpectedValue option)

/-- The options as met, with one more. -/
def noting (given : GivenOptions) (option : CommandOption) : Except UsageError GivenOptions :=
  if option.isRepeatable then .ok given
  else if given.seen.contains option then .error (.repeated option)
  else .ok { given with seen := option :: given.seen }

/-- Takes in an option. -/
def accept (given : GivenOptions) (option : CommandOption) (value? : Option String) :
    Except UsageError GivenOptions :=
  match option, option.takesValue, value? with
  | .help, _, _ => .error .helpWanted
  | option, true, some value => do (← given.noting option).withValue option value
  | option, true, none => .error (.missingValue option)
  | option, false, _ => do return (← given.noting option).withFlag option

/-- Judges what was pending. -/
def settle (given : GivenOptions) : PendingArgument → Except UsageError GivenOptions
  | .nothing => .ok given
  | .files paths => do
      let paths ← paths.mapM path
      return { given with files := given.files ++ paths }
  | .option option value? => given.accept option value?

end GivenOptions

/-- How far arguments have been read. -/
structure ArgumentState where
  given : GivenOptions
  pending : PendingArgument

namespace ArgumentState

/-- Nothing has been read. -/
def initial : ArgumentState :=
  { given := .initial, pending := .nothing }

/-- Judges what was pending and takes in an option. -/
def take (state : ArgumentState) (option : CommandOption) (value? : Option String) :
    Except UsageError ArgumentState := do
  let given ← state.given.settle state.pending
  return { given := ← given.accept option value?, pending := .nothing }

/-- Judges what was pending and waits for the value of an option. -/
def await (state : ArgumentState) (option : CommandOption) : Except UsageError ArgumentState := do
  return { given := ← state.given.settle state.pending, pending := .option option none }

/-- Reads an option by its long name, with the value behind an equality sign, if there is one. -/
def long (command : CommandName) (state : ArgumentState) (name : String)
    (value? : Option String) : Except UsageError ArgumentState :=
  match CommandOption.ofLong? command name with
  | none => .error (.unknownArgument ("--" ++ name))
  | some option =>
      match option.takesValue, value? with
      | true, some value => state.take option (some value)
      | true, none => state.await option
      | false, some _ => .error (.unexpectedValue option)
      | false, none => state.take option none

/-- Reads options by their short names; the first that takes a value takes the rest as its value. -/
def shorts (command : CommandName) (state : ArgumentState) :
    List Char → Except UsageError ArgumentState
  | [] => .ok state
  | name :: rest =>
      match CommandOption.ofShort? command name with
      | none => .error (.unknownArgument (String.ofList ['-', name]))
      | some option =>
          match option.takesValue, rest with
          | true, [] => state.await option
          | true, '=' :: value => state.take option (some (String.ofList value))
          | true, value => state.take option (some (String.ofList value))
          | false, rest => do shorts command (← state.take option none) rest

/-- Reads an argument that is no option: the value of the last option, or a file. -/
def word (state : ArgumentState) (text : String) : Except UsageError ArgumentState :=
  match state.pending with
  | .option option none => .ok { state with pending := .option option (some text) }
  | .files paths => .ok { state with pending := .files (paths ++ [text]) }
  | pending => do
      return { given := ← state.given.settle pending, pending := .files [text] }

/-- Reads an argument behind two dashes alone. -/
def file (state : ArgumentState) (text : String) : Except UsageError ArgumentState :=
  match state.pending with
  | .files paths => .ok { state with pending := .files (paths ++ [text]) }
  | pending => do
      return { given := ← state.given.settle pending, pending := .files [text] }

/-- The name and the value of a text in which they stand around an equality sign. -/
def nameAndValue (chars : List Char) : String × Option String :=
  match chars.dropWhile (· != '=') with
  | [] => (String.ofList chars, none)
  | _ :: value => (String.ofList (chars.takeWhile (· != '=')), some (String.ofList value))

/-- Reads the arguments of a command. -/
def readAll (command : CommandName) : ArgumentState → List String → Except UsageError ArgumentState
  | state, [] => .ok state
  | state, argument :: rest =>
      match argument.toList with
      | ['-', '-'] => rest.foldlM file state
      | '-' :: '-' :: chars => do
          let (name, value?) := nameAndValue chars
          readAll command (← state.long command name value?) rest
      | '-' :: c :: chars => do readAll command (← state.shorts command (c :: chars)) rest
      | _ => do readAll command (← state.word argument) rest

end ArgumentState

namespace GivenOptions

/-- What a command is to do. -/
def task (given : GivenOptions) : CommandName → CommandTask
  | .check => .check (given.seen.contains .strict) (given.format?.getD .text)
  | .dump => .dump (given.seen.contains .annotations) given.output?

/-- How many includes may follow one another unless it is said otherwise. -/
def standardDepth : UInt32 := 64

/-- The command with the given options. -/
def command (given : GivenOptions) (name : CommandName) : Command :=
  { task := given.task name
    files := given.files
    includeDirs := given.includeDirs
    warnDeprecated := !given.seen.contains .noDeprecationWarnings
    maxIncludeDepth := given.maxIncludeDepth?.getD standardDepth
    color := given.color?.getD .auto
    verbosity := given.verbosity }

end GivenOptions

namespace Command

/-- The command of a given name with its arguments. -/
def ofOptions (name : CommandName) (arguments : List String) : Except UsageError Command := do
  let state ← ArgumentState.readAll name .initial arguments
  let given ← state.given.settle state.pending
  if given.files.isEmpty then .error .missingFile else .ok (given.command name)

/-- Whether a word is a command, one that asks for help included. -/
def isCommandWord (word : String) : Bool :=
  word == "help" || (CommandName.ofText? word).isSome

/-- What asking for help with some words comes to. -/
def helpOn : List String → UsageError
  | [] => .helpWanted
  | [word] => if isCommandWord word then .helpWanted else .unknownCommand word
  | word :: next :: _ => .unknownCommand (if isCommandWord word then next else word)

/-- Why an argument that starts with a dash cannot stand in front of the command. -/
def strayOption (chars : List Char) : UsageError :=
  match chars with
  | '-' :: '-' :: name =>
      match ArgumentState.nameAndValue name with
      | ("help", none) => .helpWanted
      | ("help", some _) => .unexpectedValue .help
      | (name, _) => .unknownArgument ("--" ++ name)
  | ['-'] => .unknownCommand "-"
  | '-' :: 'h' :: _ => .helpWanted
  | chars => .unknownArgument (String.ofList chars)

/-- Why arguments behind two dashes alone make no command. -/
def behindDashes : List String → UsageError
  | [] => .noArguments
  | word :: _ => if isCommandWord word then .unknownArgument word else .unknownCommand word

/-- The command that some arguments ask for. -/
def ofArguments : List String → Except UsageError Command
  | [] => .error .noArguments
  | word :: rest =>
      match CommandName.ofText? word, word.toList with
      | some name, _ => ofOptions name rest
      | none, ['-', '-'] => .error (behindDashes rest)
      | none, '-' :: chars => .error (strayOption ('-' :: chars))
      | none, _ =>
          if word = "help" then .error (helpOn rest) else .error (.unknownCommand word)

end Command
end IdlSchema
