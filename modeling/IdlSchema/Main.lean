import IdlSchema.Command.Arguments
import IdlSchema.Command.Run

/-!
# The program

Reads a command from the arguments, runs it on the file system of the machine, and prints what it leaves
behind.
-/

namespace IdlSchema

/-- Why an operation of the machine failed. -/
def failureOf : IO.Error → FileFailure
  | .noFileOrDirectory _ _ _ => .notFound
  | .inappropriateType _ code _ => if code = 21 then .isADirectory else .notADirectory
  | .invalidArgument _ code _ => if code = 22 then .nulInName else .nameTooLong
  | .permissionDenied _ _ _ => .other "Permission denied (os error 13)"
  | .userError _ => .other "stream did not contain valid UTF-8"
  | error => .other (toString error)

/-- The result of an operation of the machine. -/
def attempt {α : Type} (operation : IO α) : IO (Except FileFailure α) := do
  try return .ok (← operation)
  catch error => return .error (failureOf error)

/-- The file system of the machine. -/
def machine : FileSystem IO :=
  { read := fun path => attempt (IO.FS.readFile path)
    isFile := fun path => do
      match ← attempt (IO.FS.readBinFile path) with
      | .ok _ => return true
      | .error _ => return false
    write := fun path text => attempt (IO.FS.writeFile path text) }

/-- Prints what a run leaves behind. -/
def Outcome.print (outcome : Outcome) : IO UInt32 := do
  IO.eprint outcome.errors
  IO.print outcome.output
  return outcome.exitCode.toUInt32

/-- Runs the command that some arguments ask for. -/
def runArguments (arguments : List String) : IO UInt32 := do
  match Command.ofArguments arguments with
  | .ok command =>
      let terminal ← (← IO.getStderr).isTty
      (← command.run machine terminal).print
  | .error error => error.outcome.print

end IdlSchema

/-- Runs the program and returns its exit code. -/
def main (arguments : List String) : IO UInt32 :=
  IdlSchema.runArguments arguments
