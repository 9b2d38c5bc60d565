/-!
# Commands

What the program is asked to do: to check some files or to dump their schema.  Both commands say how
the schema is built and how problems are shown.
-/

namespace IdlSchema

/-- When problems are shown in color. -/
inductive ColorChoice where
  | auto
  | always
  | never
  deriving DecidableEq

namespace ColorChoice

/-- The word for a choice. -/
def text : ColorChoice → String
  | auto => "auto"
  | always => "always"
  | never => "never"

/-- The choice with a given word. -/
def ofText? (text : String) : Option ColorChoice :=
  [auto, always, never].find? (·.text == text)

/-- Whether to use color, on a terminal or elsewhere. -/
def applies (choice : ColorChoice) (terminal : Bool) : Bool :=
  match choice with
  | auto => terminal
  | always => true
  | never => false

end ColorChoice

/-- How problems are shown. -/
inductive ReportFormat where
  | text
  | json
  deriving DecidableEq

namespace ReportFormat

/-- The word for a format. -/
def word : ReportFormat → String
  | text => "text"
  | json => "json"

/-- The format with a given word. -/
def ofWord? (word : String) : Option ReportFormat :=
  [text, json].find? (·.word == word)

end ReportFormat

/-- What is done with a schema. -/
inductive CommandTask where
  | check (strict : Bool) (format : ReportFormat)
  | dump (annotations : Bool) (output? : Option String)
  deriving DecidableEq

/-- A command with its settings. -/
structure Command where
  task : CommandTask
  files : List String
  includeDirs : List String
  warnDeprecated : Bool
  maxIncludeDepth : UInt32
  color : ColorChoice
  verbosity : Nat
  deriving DecidableEq

namespace Command

/-- Whether warnings count as errors. -/
def isStrict (command : Command) : Bool :=
  match command.task with
  | .check strict _ => strict
  | .dump _ _ => false

end Command
end IdlSchema
