import PrivatePresentation.Presentation.Request

/-!
Verdicts. Every request is settled by one verdict: verified, failed or expired. Whoever asks for the
result sees a part of the verdict; the asker's callback is told in a payload of its own.
-/

namespace PrivatePresentation

/-- How a request was settled. -/
inductive VerdictState where
  | verified
  | failed
  | expired
deriving DecidableEq, Repr, Inhabited

namespace VerdictState

/-- The name of a state. -/
def name : VerdictState → String
  | .verified => "verified"
  | .failed => "failed"
  | .expired => "expired"

/-- Every state. -/
def all : List VerdictState := [.verified, .failed, .expired]

/-- The state of a name. -/
def ofName? (s : String) : Option VerdictState := all.find? (·.name == s)

end VerdictState

/-- The settlement of a request. -/
structure Verdict where
  requestId : RequestId
  schemaHash : ContentDigest
  state : VerdictState
  ok : Bool
  reason : Option String
  verifiedAt : Option Timestamp
  recordedAt : Timestamp
deriving DecidableEq, Repr, Inhabited

/-- A member that is left out when there is no value. -/
def Json.optionalMember (key : String) : Option Json → List (String × Json)
  | some v => [(key, v)]
  | none => []

/-- The written form of an instant. -/
def Timestamp.toJson (t : Timestamp) : Json := .string t.exactText

namespace Verdict

/-- The written form; what is absent is left out. -/
def toJson (v : Verdict) : Json :=
  .ofMembers ([
    ("request_id", .string v.requestId.text),
    ("schema_hash", .string v.schemaHash.text),
    ("state", .string v.state.name),
    ("ok", .bool v.ok),
    ("recorded_at", v.recordedAt.toJson)] ++
    Json.optionalMember "reason" (v.reason.map .string) ++
    Json.optionalMember "verified_at" (v.verifiedAt.map Timestamp.toJson))

/-- The fields of the written form. -/
def record : Json.Record where
  name := "Verdict"
  fields := [
    ⟨"request_id", .requestId, false, none⟩,
    ⟨"schema_hash", .digest, false, none⟩,
    ⟨"state", .variant (VerdictState.all.map VerdictState.name), false, none⟩,
    ⟨"ok", .flag, false, none⟩,
    ⟨"reason", .text, true, some .null⟩,
    ⟨"verified_at", .instant, true, some .null⟩,
    ⟨"recorded_at", .instant, false, none⟩]

/-- An instant, or none for null. -/
def instant? : Json → Option (Option Timestamp)
  | .null => some none
  | .string s =>
    match Timestamp.parseStored s with
    | .ok t => some (some t)
    | .error _ => none
  | _ => none

/-- The verdict with given fields. -/
def ofValues? : List Json → Option Verdict
  | [.string id, .string hash, .string state, .bool ok, reason, verifiedAt, recordedAt] => do
    let id ← (RequestId.parse id).toOption
    let hash ← (ContentDigest.parse hash).toOption
    let state ← VerdictState.ofName? state
    let verifiedAt ← instant? verifiedAt
    let recordedAt ← (← instant? recordedAt)
    return ⟨id, hash, state, ok, reason.text?, verifiedAt, recordedAt⟩
  | _ => none

/-- Reads the written form. -/
def parse (document : Bytes) : Except Json.Fault Verdict := do
  match ofValues? (← record.parse document) with
  | some v => return v
  | none => throw .unmatched

/-- The verdict on a request at an instant; only a verified one has an instant of verification. -/
def settling (r : PresentationRequest) (state : VerdictState) (reason : Option String)
    (now : Timestamp) : Verdict where
  requestId := r.id
  schemaHash := r.schemaHash
  state := state
  ok := state == .verified
  reason := reason
  verifiedAt := if state = .verified then some now else none
  recordedAt := now

/-- The text that a callback is told, its members in a fixed order and none left out. -/
def payload (v : Verdict) : String :=
  String.ofList ('{' :: Json.writeMembers [
    ("request_id", .string v.requestId.text),
    ("schema_hash", .string v.schemaHash.text),
    ("state", .string v.state.name),
    ("ok", .bool v.ok),
    ("reason", Json.ofText? v.reason),
    ("verified_at", (v.verifiedAt.map Timestamp.toJson).getD .null)] ++ ['}'])

end Verdict

/-- What a poller learns of a request alone. -/
inductive RequestStatus where
  | pending
  | expired
  | unknownOrConsumed
deriving DecidableEq, Repr, Inhabited

/-- The name of a status. -/
def RequestStatus.name : RequestStatus → String
  | .pending => "pending"
  | .expired => "expired"
  | .unknownOrConsumed => "unknown_or_consumed"

/-- The state that a poller for the result is told. -/
inductive ResultState where
  | pending
  | settled (state : VerdictState)
  | unknown
deriving DecidableEq, Repr, Inhabited

/-- The name of a state. -/
def ResultState.name : ResultState → String
  | .pending => "pending"
  | .settled state => state.name
  | .unknown => "unknown"

/-- What a poller for the result is told. -/
structure ResultView where
  state : ResultState
  ok : Option Bool := none
  reason : Option String := none
  verifiedAt : Option Timestamp := none
deriving DecidableEq, Repr, Inhabited

namespace ResultView

/-- The part of a verdict that is told. -/
def ofVerdict (v : Verdict) : ResultView :=
  ⟨.settled v.state, some v.ok, v.reason, v.verifiedAt⟩

/-- The written form; what is absent is left out. -/
def toJson (v : ResultView) : Json :=
  .ofMembers ([("state", .string v.state.name)] ++
    Json.optionalMember "ok" (v.ok.map .bool) ++
    Json.optionalMember "reason" (v.reason.map .string) ++
    Json.optionalMember "verified_at" (v.verifiedAt.map Timestamp.toJson))

end ResultView

/-- How a wait for the verdict ends. -/
inductive WaitOutcome where
  | completed (verdict : Verdict)
  | timedOut
deriving DecidableEq, Repr, Inhabited

end PrivatePresentation
