import PrivatePresentation.CommandLine.Help
import PrivatePresentation.Text.Similarity

/-!
Reading a command line. The words are read from left to right; a word may name a command, be an
option with or without its value, or fill the place of the argument. Reading ends with what was
chosen, with a text that was asked for, or with a refusal that says how the command is used.
-/

namespace PrivatePresentation.CommandLine

/-- Why a command line is refused. -/
inductive Misuse where
  | unknownCommand (name : String)
  | unknownWord (word : String)
  | missingCommand (path : String) (commands : List String)
  | missingItems (items : List String)
  | missingValue (item : String)
  | repeated (item : String)
  | unneededValue (value item : String)
  | needlessEscape (command : String)
deriving DecidableEq, Repr

/-- The text of a misuse. -/
def Misuse.message : Misuse → String
  | .unknownCommand name => "unrecognized subcommand '" ++ name ++ "'"
  | .unknownWord word => "unexpected argument '" ++ word ++ "' found"
  | .missingCommand path commands =>
    "'" ++ path ++ "' requires a subcommand but one was not provided\n  [subcommands: " ++
      ", ".intercalate commands ++ "]"
  | .missingItems items =>
    "the following required arguments were not provided:" ++
      "".intercalate (items.map ("\n  " ++ ·))
  | .missingValue item => "a value is required for '" ++ item ++ "' but none was supplied"
  | .repeated item => "the argument '" ++ item ++ "' cannot be used multiple times"
  | .unneededValue value item =>
    "unexpected value '" ++ value ++ "' for '" ++ item ++ "' found; no more were expected"
  | .needlessEscape command =>
    "subcommand '" ++ command ++ "' exists; to use it, remove the '--' before it"

/-- What a user may have meant. -/
inductive Hint where
  | similarCommands (names : List String)
  | similarOption (long : String)
  | asValue (word : String)
  | inCommand (command long : String)
deriving DecidableEq, Repr

/-- The text of a hint. -/
def Hint.message : Hint → String
  | .similarCommands [name] => "a similar subcommand exists: '" ++ name ++ "'"
  | .similarCommands names =>
    "some similar subcommands exist: " ++ ", ".intercalate (names.map fun n => "'" ++ n ++ "'")
  | .similarOption long => "a similar argument exists: '--" ++ long ++ "'"
  | .asValue word => "to pass '" ++ word ++ "' as a value, use '-- " ++ word ++ "'"
  | .inCommand command long => "'" ++ command ++ " --" ++ long ++ "' exists"

/-- Why reading a command line ends before a command is chosen. -/
inductive Ending where
  /-- A text that was asked for. -/
  | asked (text : String)
  /-- The help of a command that cannot do without words. -/
  | helped (text : String)
  | refused (cause : Misuse) (hints : List Hint) (usage : Option String)
deriving Repr

/-- The text of an ending. -/
def Ending.text : Ending → String
  | .asked text => text
  | .helped text => text
  | .refused cause hints usage =>
    "error: " ++ cause.message ++
      (if hints.isEmpty then "" else "\n") ++
      "".intercalate (hints.map fun h => "\n  tip: " ++ h.message) ++
      (match usage with
        | some usage => "\n\nUsage: " ++ usage
        | none => "") ++ "\n\nFor more information, try '--help'.\n"

/-- What was chosen: the commands from the outside in, and the values of options and argument. -/
structure Choice where
  commands : List String
  options : List (String × String) := []
  argument : Option String := none
deriving DecidableEq, Repr, Inhabited

/-- Where a reading is: the command, how it is called, and what has been read for it. -/
structure Reading where
  program : CommandSpec
  command : CommandSpec
  chosen : List String := []
  given : List Item := []
  values : List (Item × String) := []
  /-- An item whose value is still to come or still to be taken. -/
  pending : Option (Item × Option String) := none
  /-- Only arguments may follow. -/
  escaped : Bool := false

namespace Reading

/-- How the command is called. -/
def path (r : Reading) : String := " ".intercalate (r.program.name :: r.chosen)

/-- The reading is at the program itself. -/
def isProgram (r : Reading) : Bool := r.chosen.isEmpty

/-- The help of the command. -/
def help (r : Reading) : String := r.command.help r.path r.isProgram

/-- A refusal that tells how the command is used. -/
def refuse {α : Type} (r : Reading) (cause : Misuse) (hints : List Hint := [])
    (given : List Item := []) : Except Ending α :=
  .error (.refused cause hints (some (r.command.usage r.path given)))

/-- Notes that an item is given. -/
def note (r : Reading) (item : Item) : Reading :=
  if r.given.contains item then r else { r with given := r.given ++ [item] }

/-- Takes the value of the pending item. -/
def settle (r : Reading) : Except Ending Reading :=
  let rest := { r with pending := none }
  match r.pending with
  | none => .ok r
  | some (item, none) => .error (.refused (.missingValue item.text) [] none)
  | some (item, some value) =>
    if r.given.contains item then r.refuse (.repeated item.text)
    else if value.isEmpty && !((item.value?.map (·.mayBeEmpty)).getD true) then
      .error (.refused (.missingValue item.text) [] none)
    else .ok { rest.note item with values := r.values ++ [(item, value)] }

/-- Takes the value of the pending item if it can be taken. -/
def settled (r : Reading) : Reading := r.settle.toOption.getD { r with pending := none }

/-- The long names that may be given. -/
def longs (c : CommandSpec) (isProgram : Bool) : List String :=
  c.options.map (·.long) ++ [helpOption] ++ (if isProgram then [versionOption] else [])

/-- The option of a command below that a word may be a slip of, where the command follows later. -/
def slipBelow (r : Reading) (word : String) (rest : List String) : Option (String × String) :=
  let found := r.command.commands.filterMap fun c => do
    let long ← (Text.slipsOf word (longs c false)).getLast?
    let place ← rest.idxOf? c.name
    return (place, c.name, long)
  (found.mergeSort fun a b => decide (a.1 ≤ b.1)).head?.map (·.2)

/-- The refusal of a long option that the command does not have. -/
def refuseLong (r : Reading) (long : String) (rest : List String) : Except Ending Reading :=
  let r := r.settled
  let asValue := if r.command.argument.isSome then [Hint.asValue ("--" ++ long)] else []
  let cause := Misuse.unknownWord ("--" ++ long)
  match (Text.slipsOf long (longs r.command r.isProgram)).getLast? with
  | some similar =>
    let r := match r.command.option? similar with
      | some o => r.note (.option o)
      | none => r
    r.refuse cause [.similarOption similar] r.given
  | none =>
    match slipBelow r long rest with
    | some (command, similar) => r.refuse cause [.inCommand command similar] r.given
    | none => r.refuse cause asValue r.given

/-- Reads a long option. -/
def readLong (version : String) (r : Reading) (long : String) (value : Option String)
    (rest : List String) : Except Ending Reading := do
  match r.command.option? long with
  | some o =>
    match o.value, value with
    | some _, some v => ({ ← r.settle with pending := some (.option o, some v) } : Reading).settle
    | some _, none => return { ← r.settle with pending := some (.option o, none) }
    | none, none => return (← r.settle).note (.option o)
    | none, some v =>
      let r := r.settled
      r.refuse (.unneededValue v o.text) [] r.given
  | none =>
    if long == helpOption || (r.isProgram && long == versionOption) then
      match value with
      | some v =>
        let r := r.settled
        r.refuse (.unneededValue v ("--" ++ long)) [] r.given
      | none => throw (.asked (if long == helpOption then r.help else version))
    else refuseLong r long rest

/-- Reads switches of one letter each. -/
def readShorts (version : String) : Reading → List Char → Except Ending Reading
  | r, [] => .ok r
  | r, c :: rest => do
    match r.command.options.find? (·.short == some c) with
    | some o => readShorts version ((← r.settle).note (.option o)) rest
    | none =>
      if c = 'h' then throw (.asked r.help)
      else if c = 'V' && r.isProgram then throw (.asked version)
      else
        let word := "-" ++ String.singleton c
        r.refuse (.unknownWord word)
          (if r.command.argument.isSome then [.asValue word] else [])

/-- Reads a word in the place of an argument. -/
def readArgument (r : Reading) (word : String) : Except Ending Reading := do
  let free := r.command.argument.filter fun a =>
    !r.given.contains (.argument a) && (r.pending.map (·.1)) != some (.argument a)
  match free with
  | some a => return { ← r.settle with pending := some (.argument a, some word) }
  | none =>
    if r.escaped && (r.command.command? word).isSome then r.refuse (.needlessEscape word)
    else if r.command.commands.isEmpty then r.refuse (.unknownWord word)
    else
      match Text.slipsOf word (r.command.commands.map (·.name) ++ [helpCommand]) with
      | [] => r.refuse (.unknownCommand word)
      | similar => r.refuse (.unknownCommand word) [.similarCommands similar]

/-- The help that the words after the help command ask for. -/
def readHelp : Reading → List String → Ending
  | r, [] => .asked r.help
  | r, word :: rest =>
    match r.command.command? word with
    | some c => readHelp { r with command := c, chosen := r.chosen ++ [word] } rest
    | none => .refused (.unknownCommand word) [] (some (r.command.usage r.path []))

/-- What was chosen, at the end of the words. -/
def finish (r : Reading) : Except Ending Choice := do
  let r ← r.settle
  if !r.command.commands.isEmpty then
    if r.given.isEmpty then throw (.helped r.help)
    r.refuse (.missingCommand r.path (r.command.commands.map (·.name) ++ [helpCommand]))
  else
    let missing := r.command.required.filter fun i => !r.given.contains i
    if !missing.isEmpty then
      r.refuse (.missingItems (missing.map Item.text)) [] (r.given ++ missing)
    else
      return {
        commands := r.chosen
        options := r.values.filterMap fun
          | (.option o, v) => some (o.long, v)
          | _ => none
        argument := (r.values.find? fun
          | (.argument _, _) => true
          | _ => false).map (·.2) }

/-- Reads the words that follow. -/
def read (version : String) : Reading → List String → Except Ending Choice
  | r, [] => r.finish
  | r, word :: rest => do
    let awaits := (r.pending.map (·.2)) == some none
    let plain := r.escaped || !word.startsWith "-" || word == "-"
    if r.escaped then read version (← r.readArgument word) rest
    else if !awaits && !r.command.commands.isEmpty && word == helpCommand then
      throw (r.readHelp rest)
    else
      match if awaits then none else r.command.command? word with
      | some c =>
        let r ← r.settle
        read version { program := r.program, command := c, chosen := r.chosen ++ [word] } rest
      | none =>
        if word == "--" then read version { r with escaped := true } rest
        else if !plain && word.startsWith "--" then
          let body := word.toList.drop 2
          let long := String.ofList (body.takeWhile (· != '='))
          let value := match body.dropWhile (· != '=') with
            | _ :: v => some (String.ofList v)
            | [] => none
          read version (← r.readLong version long value rest) rest
        else if !plain then read version (← r.readShorts version (word.toList.drop 1)) rest
        else
          match r.pending with
          | some (item, none) => read version { r with pending := some (item, some word) } rest
          | _ => read version (← r.readArgument word) rest

end Reading

/-- Reads the words of a command line. -/
def parse (program : CommandSpec) (version : String) (words : List String) :
    Except Ending Choice :=
  Reading.read version { program, command := program } words

end PrivatePresentation.CommandLine
