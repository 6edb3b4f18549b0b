import PrivatePresentation.CommandLine.Spec

/-!
The help of a command: what it is for, how it is used, and a table of its commands, its argument and
its options.
-/

namespace PrivatePresentation.CommandLine

/-- A line of a table: what it is about, as wide as the widest, and what is said of it. -/
def tableLine (start : String) (left : String) (width : Nat) (right : String) : String :=
  "  " ++ start ++ left ++ "".pushn ' ' (width - left.length) ++ "  " ++ right

/-- A table under a heading. -/
def table (heading : String) (rows : List (String × String × String)) : String :=
  let width := (rows.map fun row => row.2.1.length).foldl max 0
  heading ++ ":" ++
    "".intercalate (rows.map fun (start, left, right) => "\n" ++ tableLine start left width right)

/-- What is said of a value, with its default. -/
def valueHelp (help : String) (value : Option ValueSpec) : String :=
  match value.bind (·.default) with
  | some d => (if help.isEmpty then "" else help ++ " ") ++ "[default: " ++ d ++ "]"
  | none => help

/-- What a short name is followed by. -/
def shortStart : Option Char → String
  | some c => "-" ++ String.singleton c ++ ", "
  | none => "    "

/-- The row of an option. -/
def OptionSpec.row (o : OptionSpec) : String × String × String :=
  (shortStart o.short, o.text, valueHelp o.help o.value)

namespace CommandSpec

/-- The options in the order in which they are shown: the first own option, the switches for all
commands, then the others. -/
def shownOptions (c : CommandSpec) : List OptionSpec :=
  let shared := c.options.filter (·.value.isNone)
  let own := c.options.filter (·.value.isSome)
  own.take 1 ++ shared ++ own.drop 1

/-- The table of commands. -/
def commandTable (c : CommandSpec) : List String :=
  if c.commands.isEmpty then []
  else
    [table "Commands" ((c.commands.map fun s => ("", s.name, s.about)) ++
      [("", helpCommand, "Print this message or the help of the given subcommand(s)")])]

/-- The table of the argument. -/
def argumentTable (c : CommandSpec) : List String :=
  match c.argument with
  | some a => [table "Arguments" [("", a.text false, valueHelp a.help (some a.value))]]
  | none => []

/-- The table of options. -/
def optionTable (c : CommandSpec) (isProgram : Bool) : String :=
  table "Options" (c.shownOptions.map OptionSpec.row ++
    [(shortStart (some 'h'), "--" ++ helpOption, "Print help")] ++
    (if isProgram then [(shortStart (some 'V'), "--" ++ versionOption, "Print version")] else []))

/-- The help of a command. -/
def help (c : CommandSpec) (path : String) (isProgram : Bool) : String :=
  "\n\n".intercalate ([c.about, "Usage: " ++ c.usage path []] ++ c.commandTable ++ c.argumentTable ++
    [c.optionTable isProgram]) ++ "\n"

end CommandSpec
end PrivatePresentation.CommandLine
