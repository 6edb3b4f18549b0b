import PrivatePresentation.CommandLine.Parse

/-!
The interface of the tool: its commands with what they take. A command line that can be read names
one command with its values.
-/

namespace PrivatePresentation.Tool

open CommandLine

/-- A file that is named by its path. -/
def fileValue : ValueSpec := { name := "FILE" }

/-- A switch of every command. -/
def verbose : OptionSpec :=
  { long := "verbose", short := some 'v',
    help := "Enable verbose output. Repeat for more verbosity (-v, -vv, -vvv)" }

/-- An option that names a file and has to be given. -/
def fileOption (long help : String) : OptionSpec :=
  { long, value := some fileValue, help, required := true }

/-- The command that looks at a schema. -/
def schemaSpec : CommandSpec where
  name := "schema"
  about := "Validate schemas or print a built-in one"
  options := [verbose]
  commands := [
    { name := "check",
      about := "Validate a schema and print its hash, slot layout and constraint count",
      options := [verbose],
      argument := some { value := fileValue } },
    { name := "builtin",
      about := "Print a built-in schema as canonical, pretty-printed JSON",
      options := [verbose],
      argument := some {
        value := { name := "NAME", mayBeEmpty := true, default := some "age_over_18" },
        required := false } }]

/-- The command that makes keys. -/
def setupSpec : CommandSpec where
  name := "setup"
  about := "Generate proving and verifying keys for a schema"
  options := [
    fileOption "schema" "Schema file",
    { long := "out-dir", value := some { name := "DIR", default := some "." },
      help := "Directory for `proving.key`, `verifying.key` and `schema.json`" },
    verbose]

/-- The command that makes a proof. -/
def proveSpec : CommandSpec where
  name := "prove"
  about := "Prove a set of inputs against a schema"
  options := [
    fileOption "schema" "",
    fileOption "pk" "Proving key written by `zkattest setup`",
    fileOption "inputs" "JSON object with a value for every schema field",
    { long := "out", value := some fileValue,
      help := "Write the base64 envelope here instead of stdout" },
    verbose]

/-- The command that checks a proof. -/
def verifySpec : CommandSpec where
  name := "verify"
  about := "Verify a proof envelope offline"
  options := [
    fileOption "schema" "",
    fileOption "vk" "",
    fileOption "blob" "File holding the base64 envelope",
    { long := "public-inputs", value := some fileValue,
      help := "JSON object with the expected public values" },
    verbose]

/-- The command that answers a request. -/
def presentSpec : CommandSpec where
  name := "present"
  about := "Answer a presentation request as the wallet"
  options := [
    { long := "descriptor-url", value := some { name := "URL", mayBeEmpty := true },
      help := "Descriptor URL, as carried in the wallet deeplink", required := true },
    fileOption "inputs" "JSON object with the holder's private values",
    verbose]

/-- The tool. -/
def spec : CommandSpec where
  name := "zkattest"
  about := "CLI for zkattest: schema validation, offline key setup, proving and verification, " ++
    "and the wallet side of the presentation flow."
  options := [verbose]
  commands := [schemaSpec, setupSpec, proveSpec, verifySpec, presentSpec]

/-- What the tool tells of its version. -/
def version : String := "zkattest 0.1.0\n"

/-- What the tool is told to do. -/
inductive Command where
  | checkSchema (file : String)
  | printSchema (name : String)
  | setup (schema directory : String)
  | prove (schema key inputs : String) (output : Option String)
  | verify (schema key blob : String) (publicInputs : Option String)
  | present (descriptorUrl inputs : String)
deriving DecidableEq, Repr

/-- The command of a choice. -/
def Command.ofChoice? (c : Choice) : Option Command :=
  match c.commands with
  | ["schema", "check"] => c.argument.map .checkSchema
  | ["schema", "builtin"] => some (.printSchema (c.argument.getD "age_over_18"))
  | ["setup"] => do
    return .setup (← c.options.lookup "schema") ((c.options.lookup "out-dir").getD ".")
  | ["prove"] => do
    return .prove (← c.options.lookup "schema") (← c.options.lookup "pk")
      (← c.options.lookup "inputs") (c.options.lookup "out")
  | ["verify"] => do
    return .verify (← c.options.lookup "schema") (← c.options.lookup "vk")
      (← c.options.lookup "blob") (c.options.lookup "public-inputs")
  | ["present"] => do
    return .present (← c.options.lookup "descriptor-url") (← c.options.lookup "inputs")
  | _ => none

end PrivatePresentation.Tool
