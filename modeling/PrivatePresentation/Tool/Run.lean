import PrivatePresentation.Groth16.Draw
import PrivatePresentation.Http.Url
import PrivatePresentation.Presentation.Wallet
import PrivatePresentation.Schema.Builtin
import PrivatePresentation.Text.Quoted
import PrivatePresentation.Tool.Interface
import PrivatePresentation.Tool.Report
import PrivatePresentation.Tool.Trouble

/-!
What the tool does. A run ends with an exit code, 0 for success, 1 for trouble and 2 for a proof that
is turned down or a command line that cannot be read, and with what is said on the two outputs.
-/

namespace PrivatePresentation.Tool

/-- How a run ends. -/
structure Outcome where
  code : Nat
  stdout : String := ""
  stderr : String := ""
deriving DecidableEq, Repr, Inhabited

namespace Outcome

/-- A run that ends well and says a line. -/
def said (line : String) : Outcome := ⟨0, line ++ "\n", ""⟩

/-- A proof that is turned down. -/
def rejected (line : String) : Outcome := ⟨2, "REJECT: " ++ line ++ "\n", ""⟩

/-- Trouble. -/
def failed (t : Trouble) : Outcome := ⟨1, "", "error: " ++ t.message ++ "\n"⟩

/-- A command line that names no command. -/
def ofEnding (e : CommandLine.Ending) : Outcome :=
  match e with
  | .asked text => ⟨0, text, ""⟩
  | e => ⟨2, "", e.text⟩

end Outcome

/-- What a run draws at random. -/
structure Chance where
  trapdoor : Groth16.Trapdoor
  blinding : Groth16.Blinding
deriving Inhabited

/-- What is drawn from a seed. -/
def Chance.ofSeed (seed : Bytes) : Chance := ⟨.ofSeed seed, .ofSeed seed⟩

/-- The file that a proving key is written to. -/
def provingKeyFile : String := "proving.key"

/-- The file that a verifying key is written to. -/
def verifyingKeyFile : String := "verifying.key"

/-- The file that a schema is written to beside its keys. -/
def schemaFile : String := "schema.json"

/-- A path below a directory. -/
def pathIn (directory name : String) : String :=
  if directory.isEmpty || directory.endsWith "/" then directory ++ name
  else directory ++ "/" ++ name

namespace Attempt

/-- Reads the text of a schema. -/
def readSchemaText (path : String) : Attempt String :=
  within ("failed to read schema: " ++ path) (readText path)

/-- Reads a schema. -/
def readSchema (path : String) : Attempt Schema := do
  let text ← readSchemaText path
  within ("invalid schema: " ++ path) (ofExcept SchemaError.texts (Schema.parse text))

/-- Reads the bytes of a file. -/
def readBytes (path : String) : Attempt Bytes :=
  within ("failed to read file: " ++ path) (read path)

/-- Reads a file that holds an object. -/
def readObject (path : String) : Attempt Json.Members := do
  let text ← within ("failed to read file: " ++ path) (readText path)
  let v ← within ("failed to parse JSON: " ++ path)
    (ofExcept (fun f => [f.locatedMessage (Text.utf8 text)]) (Json.parse text))
  match v.members? with
  | some members => return members
  | none => fail (path ++ " must contain a JSON object")

/-- Reads a proving key. -/
def readProvingKey (path : String) : Attempt ProvingKey := do
  let bytes ← readBytes path
  within ("invalid proving key: " ++ path)
    (ofExcept CodecError.texts (Artifact.decodeProvingKey bytes))

/-- Reads a verifying key. -/
def readVerifyingKey (path : String) : Attempt VerifyingKey := do
  let bytes ← readBytes path
  within ("invalid verifying key: " ++ path)
    (ofExcept CodecError.texts (Artifact.decodeVerifyingKey bytes))

/-- Writes a file, and says which one if it cannot. -/
def writeNamed (path : String) (contents : Bytes) : Attempt Unit :=
  within ("failed to write " ++ path) (write path contents)

/-- Sends a request to an address of the web. -/
def fetch (method url : String) (contentType : Option String := none) (body : String := "") :
    Attempt Http.Response :=
  match Http.Url.scheme url with
  | .error e => throw ⟨(FetchError.invalidUrl e).texts⟩
  | .ok scheme =>
    let url := Http.Url.shown url
    if scheme = "http" ∨ scheme = "https" then exchange ⟨method, url, contentType, body⟩
    else throw ⟨(FetchError.notOfTheWeb url).texts⟩

/-- Takes a response only if the request was carried out. -/
def successful (url unavailable : String) (r : Http.Response) : Attempt Http.Response :=
  if r.status < 400 then return r
  else
    throw ⟨[unavailable, "HTTP status " ++ (if r.status < 500 then "client" else "server") ++
      " error (" ++ Http.statusText r.status ++ ") for url (" ++ Http.Url.shown url ++ ")"]⟩

/-- What a response carries, as a text. -/
def textOf (r : Http.Response) : String := (Text.ofUtf8? r.content.bytes).getD ""

end Attempt

open Attempt

/-- Checks a schema and says what became of it. -/
def checkSchema (file : String) : Attempt Outcome := do
  match Schema.parse (← readSchemaText file) with
  | .error e =>
    let lines := match e with
      | .structural violations => violations.map fun v => "  - " ++ v ++ "\n"
      | _ => []
    return ⟨1, "FAIL: " ++ e.message ++ "\n" ++ "".intercalate lines, ""⟩
  | .ok schema =>
    match report schema with
    | .ok text => return ⟨0, text, ""⟩
    | .error e => return ⟨1, "FAIL: " ++ e.message ++ "\n", ""⟩

/-- Prints a schema at hand. -/
def printSchema (name : String) : Attempt Outcome := do
  match Schema.builtin? name with
  | none =>
    fail ("unknown built-in schema " ++ Text.quoted name ++ "; available: " ++
      ", ".intercalate Schema.builtinNames)
  | some parsed =>
    let schema ← ofExcept SchemaError.texts parsed
    return .said (((Json.parse? schema.canonical.text).getD .null).pretty)

/-- Makes keys for a schema and writes them into a directory. -/
def setup (ps : ProofSystem) (t : Groth16.Trapdoor) (schemaPath directory : String) :
    Attempt Outcome := do
  let schema ← readSchema schemaPath
  let compiled ← ofExcept PipelineError.texts (Pipeline.compile schema)
  let keyed ← within "key generation failed" (ofExcept PipelineError.texts (compiled.setup ps t))
  within ("failed to create directory: " ++ directory) (makeDirectories directory)
  writeNamed (pathIn directory provingKeyFile) keyed.keys.encode
  writeNamed (pathIn directory verifyingKeyFile) keyed.keys.verifying.encode
  writeNamed (pathIn directory schemaFile) (Text.utf8 schema.canonical.text)
  return .said ("OK: keys for " ++ schema.hash.text ++ " written to " ++ directory)

/-- Makes a proof. -/
def prove (ps : ProofSystem) (b : Groth16.Blinding) (schemaPath keyPath inputsPath : String)
    (output : Option String) : Attempt Outcome := do
  let schema ← readSchema schemaPath
  let keys ← readProvingKey keyPath
  let values ← readObject inputsPath
  let blob ← within "proving failed"
    (ofExcept ProtocolError.texts (Wallet.proveBlob ps schema keys values b))
  match output with
  | some path =>
    writeNamed path (Text.utf8 blob)
    return .said ("OK: proof written to " ++ path)
  | none => return .said blob

/-- Checks a proof against a key and public values. -/
def judge (ps : ProofSystem) (schema : Schema) (key : VerifyingKey) (r : ProofResult)
    (inputs : List Scalar) : Outcome :=
  match ps.verify key r.proof inputs with
  | .ok true => .said ("OK: proof verified for " ++ schema.hash.text)
  | .ok false => .rejected "proof does not verify"
  | .error e => .rejected e.message

/-- Checks a proof. The key that comes with the proof is not trusted; its public values are taken
only if no others are given. -/
def verify (ps : ProofSystem) (schemaPath keyPath blobPath : String)
    (publicInputs : Option String) : Attempt Outcome := do
  let schema ← readSchema schemaPath
  let key ← readVerifyingKey keyPath
  let text ← within ("failed to read file: " ++ blobPath) (readText blobPath)
  match Artifact.decodeText text with
  | .error e => return .rejected ("bad blob: " ++ e.message)
  | .ok result =>
    match publicInputs with
    | none => return judge ps schema key result result.publicWitness
    | some path =>
      let values ← readObject path
      let circuit ← ofExcept CompilationError.texts (Circuit.compile schema)
      match circuit.publicInputsFrom values with
      | .ok inputs => return judge ps schema key result inputs
      | .error e => return .rejected ("public inputs invalid: " ++ e.message)

/-- A served schema, if it is the one that a descriptor names. -/
def servedSchema (d : PresentationDescriptor) (text : String) : Attempt Schema := do
  let schema ← within "served schema is invalid" (ofExcept SchemaError.texts (Schema.parse text))
  if schema.hash = d.schemaHash then return schema
  else
    fail ("schema hash mismatch: descriptor names " ++ d.schemaHash.text ++ ", server sent " ++
      schema.hash.text)

/-- Answers a request as its holder. -/
def present (ps : ProofSystem) (b : Groth16.Blinding) (url inputsPath : String) :
    Attempt Outcome := do
  let holder ← readObject inputsPath
  let response ← within "descriptor request failed" (fetch "GET" url)
  let response ← successful url "descriptor unavailable" response
  let some d := (Json.parse? (textOf response)).bind PresentationDescriptor.ofJson?
    | throw ⟨["invalid descriptor", "error decoding response body"]⟩
  let response ← successful d.schemaUri "schema unavailable" (← fetch "GET" d.schemaUri)
  let schema ← servedSchema d (textOf response)
  let response ← successful d.provingKeyUrl "proving key unavailable" (← fetch "GET" d.provingKeyUrl)
  let keys ← within "invalid proving key"
    (ofExcept CodecError.texts (Artifact.decodeProvingKey response.content.bytes))
  let submission ← within "proving failed"
    (ofExcept ProtocolError.texts (Wallet.buildSubmission ps d schema keys holder b))
  let response ← within "submission failed"
    (fetch "POST" d.submitUrl (some "application/json") submission.toJson.compact)
  let line := textOf response ++ "\n"
  if response.isSuccess then return ⟨0, line, ""⟩
  else if response.status = 401 then return ⟨2, line, ""⟩
  else return ⟨1, line, "error: verifier returned " ++ Http.statusText response.status ++ "\n"⟩

/-- Does what a command says. -/
def Command.run (ps : ProofSystem) (chance : Chance) : Command → Attempt Outcome
  | .checkSchema file => Tool.checkSchema file
  | .printSchema name => Tool.printSchema name
  | .setup schema directory => Tool.setup ps chance.trapdoor schema directory
  | .prove schema key inputs output => Tool.prove ps chance.blinding schema key inputs output
  | .verify schema key blob publicInputs => Tool.verify ps schema key blob publicInputs
  | .present url inputs => Tool.present ps chance.blinding url inputs

/-- Does what the words of a command line say. -/
def run (ps : ProofSystem) (chance : Chance) (words : List String) : Script Outcome :=
  match CommandLine.parse spec version words with
  | .error ending => .done (.ofEnding ending)
  | .ok choice =>
    match Command.ofChoice? choice with
    | none => .done ⟨2, "", ""⟩
    | some command => do
      match ← (command.run ps chance).run with
      | .ok outcome => return outcome
      | .error trouble => return .failed trouble

end PrivatePresentation.Tool
