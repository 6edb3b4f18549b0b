import PrivatePresentation.Tool.Run

/-!
The tool as a program: scripts are performed on the files of the system, with secrets from its source
of randomness. There is no network: every other machine is out of reach.
-/

namespace PrivatePresentation.Tool

/-- What the system says of a file. -/
def fileError : IO.Error → FileError
  | .noFileOrDirectory .. => .notFound
  | .alreadyExists .. => .alreadyExists
  | .inappropriateType _ code _ => if code = 21 then .isADirectory else .notADirectory
  | e => .other (toString e)

/-- The outcome of a deed on a file. -/
def outcome {α : Type} (deed : IO α) : IO (Except FileError α) := do
  match ← deed.toBaseIO with
  | .ok v => return .ok v
  | .error e => return .error (fileError e)

/-- Performs a script. -/
def Script.performOnSystem {α : Type} : Script α → IO α
  | .done v => pure v
  | .read path next => do
    let r ← outcome (IO.FS.readBinFile path)
    (next (r.map fun bytes => bytes.data.toList)).performOnSystem
  | .write path contents next => do
    let r ← outcome (IO.FS.writeBinFile path ⟨contents.toArray⟩)
    (next r).performOnSystem
  | .makeDirectories path next => do
    let r ← outcome (IO.FS.createDirAll path)
    (next r).performOnSystem
  | .exchange request next => (next (.error (.unreachable request.target))).performOnSystem

end PrivatePresentation.Tool

open PrivatePresentation in
/-- Does what the words of the command line say. -/
def main (words : List String) : IO UInt32 := do
  let seed ← IO.getRandomBytes 32
  let o ← (Tool.run .groth16 (.ofSeed seed.data.toList) words).performOnSystem
  IO.print o.stdout
  IO.eprint o.stderr
  return o.code.toUInt32
