import PrivatePresentation.Service.State

/-!
Making keys while others do. Whoever needs the keys of a schema looks for them; if they are not there,
the caller takes the guard, looks again, makes and keeps them, and lets go of the guard. Each of these
is one atomic step, and between two steps of one caller there may be steps of others. A caller who
finds the guard taken waits.
-/

namespace PrivatePresentation

/-- What a caller who needs the keys of a schema has still to do. -/
inductive KeyTask where
  /-- Look for the keys. -/
  | look (schema : Schema) (trapdoor : Groth16.Trapdoor)
  /-- Take the guard. -/
  | enter (schema : Schema) (trapdoor : Groth16.Trapdoor)
  /-- Look for keys that may have come before the guard was free. -/
  | lookAgain (schema : Schema) (trapdoor : Groth16.Trapdoor)
  /-- Make the keys and keep them. -/
  | make (schema : Schema) (trapdoor : Groth16.Trapdoor)
  /-- Let go of the guard. -/
  | leave (outcome : Except ProtocolError SchemaKeys)
  /-- Nothing. -/
  | done (outcome : Except ProtocolError SchemaKeys)

/-- What the callers share. -/
structure KeyRoom where
  keys : Store ContentDigest SchemaKeys := ∅
  /-- Somebody holds the guard. -/
  isGuarded : Bool := false
  /-- All keys that have been made, the latest first. -/
  made : List SchemaKeys := []
deriving Inhabited

namespace KeyTask

/-- The next step of a caller; none while the guard is in the way or nothing is left to do. -/
def step? (ps : ProofSystem) (room : KeyRoom) : KeyTask → Option (KeyTask × KeyRoom)
  | .look schema t =>
    match room.keys.get? schema.hash with
    | some keys => some (.done (.ok keys), room)
    | none => some (.enter schema t, room)
  | .enter schema t =>
    if room.isGuarded then none else some (.lookAgain schema t, { room with isGuarded := true })
  | .lookAgain schema t =>
    match room.keys.get? schema.hash with
    | some keys => some (.leave (.ok keys), room)
    | none => some (.make schema t, room)
  | .make schema t =>
    match Service.makeKeys ps schema t with
    | .error e => some (.leave (.error e), room)
    | .ok keys =>
      some (.leave (.ok keys),
        { room with keys := room.keys.insert schema.hash keys, made := keys :: room.made })
  | .leave outcome => some (.done outcome, { room with isGuarded := false })
  | .done _ => none

end KeyTask
end PrivatePresentation
