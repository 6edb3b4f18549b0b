/-!
Command lines: what a program with commands, options and arguments takes, and how each of them is
shown to the user.
-/

namespace PrivatePresentation.CommandLine

/-- A value that an option or an argument takes. -/
structure ValueSpec where
  /-- What the value is called. -/
  name : String
  mayBeEmpty : Bool := false
  default : Option String := none
deriving DecidableEq, Repr, Inhabited

/-- An option. Without a value it is a switch that may be repeated. -/
structure OptionSpec where
  long : String
  short : Option Char := none
  value : Option ValueSpec := none
  help : String := ""
  required : Bool := false
deriving DecidableEq, Repr, Inhabited

/-- An argument that is told by its place. -/
structure ArgumentSpec where
  value : ValueSpec
  help : String := ""
  required : Bool := true
deriving DecidableEq, Repr, Inhabited

/-- A command: it takes options, at most one argument, and may have commands of its own, of which
one has to be chosen. -/
structure CommandSpec where
  name : String
  about : String
  options : List OptionSpec := []
  argument : Option ArgumentSpec := none
  commands : List CommandSpec := []
deriving Repr, Inhabited

/-- Something that a command takes. -/
inductive Item where
  | option (o : OptionSpec)
  | argument (a : ArgumentSpec)
deriving DecidableEq, Repr

/-- An option as it is shown. -/
def OptionSpec.text (o : OptionSpec) : String :=
  "--" ++ o.long ++
    (match o.value with
      | some v => " <" ++ v.name ++ ">"
      | none => "...")

/-- An argument as it is shown: in angle brackets where it is given or has to be. -/
def ArgumentSpec.text (a : ArgumentSpec) (given : Bool) : String :=
  if given || a.required then "<" ++ a.value.name ++ ">" else "[" ++ a.value.name ++ "]"

namespace Item

/-- An item as it is shown. -/
def text : Item → String
  | .option o => o.text
  | .argument a => a.text true

/-- What the value of an item is like. -/
def value? : Item → Option ValueSpec
  | .option o => o.value
  | .argument a => some a.value

end Item

/-- The options that every command has. -/
def helpOption : String := "help"

/-- The command that every program with commands has. -/
def helpCommand : String := "help"

/-- The option that only the program itself has. -/
def versionOption : String := "version"

namespace CommandSpec

/-- The items that have to be given. -/
def required (c : CommandSpec) : List Item :=
  (c.options.filter (·.required)).map .option ++
    (match c.argument with
      | some a => if a.required then [.argument a] else []
      | none => [])

/-- The command of a name. -/
def command? (c : CommandSpec) (name : String) : Option CommandSpec :=
  c.commands.find? (·.name == name)

/-- The option of a long name. -/
def option? (c : CommandSpec) (long : String) : Option OptionSpec :=
  c.options.find? (·.long == long)

/-- How a command is used, when some items have been given. Without any, the options that may be
left out are summed up. -/
def usage (c : CommandSpec) (path : String) (given : List Item) : String :=
  let optional := c.options.any (!·.required)
  let required := c.options.filter (·.required)
  let more := given.filterMap fun
    | .option o => if required.contains o then none else some o
    | .argument _ => none
  let argument := c.argument.map fun a => a.text (given.contains (.argument a))
  " ".intercalate ([path] ++
    (if given.isEmpty && optional then ["[OPTIONS]"] else []) ++
    (required ++ more).map (·.text) ++ argument.toList ++
    (if c.commands.isEmpty then [] else ["<COMMAND>"]))

end CommandSpec
end PrivatePresentation.CommandLine
