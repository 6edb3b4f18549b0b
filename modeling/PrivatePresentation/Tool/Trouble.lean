import PrivatePresentation.Groth16.Codec
import PrivatePresentation.Presentation.Refusal
import PrivatePresentation.Tool.Script

/-!
Trouble: why a command ends without a result, told from the outside in. Each text is what happened in
the view of one layer, and the next text is its cause.
-/

namespace PrivatePresentation

/-- The texts of the error, from the outside in. -/
def SchemaError.texts (e : SchemaError) : List String :=
  e.message ::
    match e with
    | .invalidJson text => [text]
    | .canonicalization cause => [cause.message]
    | _ => []

/-- The texts of the error, from the outside in. -/
def CompilationError.texts (e : CompilationError) : List String :=
  e.message ::
    match e with
    | .fingerprint cause => [cause.message]
    | _ => []

/-- The texts of the error, from the outside in. -/
def PipelineError.texts : PipelineError → List String
  | .compilation cause => cause.texts
  | .synthesis cause => [(PipelineError.synthesis cause).message, cause.message]
  | .assignment cause => [cause.message]
  | .proof cause => [cause.message]

/-- The texts of the error, from the outside in. -/
def CodecError.texts (e : CodecError) : List String :=
  e.message ::
    match e with
    | .envelope cause => [cause.message]
    | .encoding _ cause => [cause.message]
    | .trailing _ _ => []
    | .base64 cause => [cause.message]

/-- The texts of the error, from the outside in. -/
def ProtocolError.texts (e : ProtocolError) : List String :=
  match e with
  | .schema cause => cause.texts
  | .compilation cause => e.message :: cause.texts
  | .setup cause => [e.message, cause.message]
  | .serialization cause => e.message :: cause.texts
  | .pipeline cause => e.message :: cause.texts
  | .publicInput _ cause => [e.message, cause.message]

namespace Tool

/-- The texts of the error, from the outside in. -/
def FetchError.texts : FetchError → List String
  | .invalidUrl cause => ["builder error", cause.message]
  | .notOfTheWeb url => ["builder error for url (" ++ url ++ ")", "URL scheme is not allowed"]
  | .unreachable url =>
    ["error sending request for url (" ++ url ++ ")", "client error (Connect)",
      "tcp connect error", "Network is unreachable (os error 101)"]

/-- Why a command ends without a result, from the outside in. -/
structure Trouble where
  texts : List String
deriving DecidableEq, Repr

/-- All texts with a colon between each two. -/
def Trouble.message (t : Trouble) : String := ": ".intercalate t.texts

/-- Trouble in the view of an outer layer. -/
def Trouble.within (t : Trouble) (text : String) : Trouble := ⟨text :: t.texts⟩

/-- A script that may end in trouble. -/
abbrev Attempt := ExceptT Trouble Script

namespace Attempt

variable {α ε : Type}

/-- Ends in trouble that has one text. -/
def fail (text : String) : Attempt α := throw ⟨[text]⟩

/-- A result, or trouble. -/
def ofExcept (texts : ε → List String) (r : Except ε α) : Attempt α :=
  match r with
  | .ok v => pure v
  | .error e => throw ⟨texts e⟩

/-- Tells trouble in the view of an outer layer. -/
def within (text : String) (a : Attempt α) : Attempt α := a.adapt (Trouble.within · text)

/-- Reads a file. -/
def read (path : String) : Attempt Bytes := do
  ofExcept (fun e : FileError => [e.message]) (← (Script.read path .done : Script _))

/-- Reads a file that is a text. -/
def readText (path : String) : Attempt String := do
  match Text.ofUtf8? (← read path) with
  | some s => return s
  | none => fail FileError.notText.message

/-- Writes a file. -/
def write (path : String) (contents : Bytes) : Attempt Unit := do
  ofExcept (fun e : FileError => [e.message]) (← (Script.write path contents .done : Script _))

/-- Makes a directory and those that it lies in. -/
def makeDirectories (path : String) : Attempt Unit := do
  ofExcept (fun e : FileError => [e.message]) (← (Script.makeDirectories path .done : Script _))

/-- Sends a request to the machine that its target names. -/
def exchange (r : Http.Request) : Attempt Http.Response := do
  ofExcept FetchError.texts (← (Script.exchange r .done : Script _))

end Attempt
end Tool
end PrivatePresentation
