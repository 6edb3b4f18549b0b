import PrivatePresentation.Json.Access
import PrivatePresentation.Schema.Description
import PrivatePresentation.Service.Callback
import PrivatePresentation.Service.Task

/-!
What a service holds and hands over as JSON values, for tools that show them.
-/

namespace PrivatePresentation

/-- A verdict handed over for delivery: where it goes, and what is told. -/
def Delivery.toJson (d : Delivery) : Json :=
  .ofMembers [("callback", .orNull (d.request.callback.map (·.toJson))),
    ("payload", .orNull (Json.parse? d.verdict.payload))]

/-- The members that describe a verdict, with what is told of it and signed with a secret. -/
def Verdict.details (v : Verdict) (secret : String) : List (String × Json) :=
  [("state", .string v.state.name), ("view", (ResultView.ofVerdict v).toJson), ("wire", v.toJson),
    ("body", .string v.payload),
    ("signature", .string (Callback.sign secret (Text.utf8 v.payload)))]

/-- How a wait ended. -/
def WaitOutcome.toJson : WaitOutcome → Json
  | .completed v => .ofMembers [("completed", v.toJson)]
  | .timedOut => .string "timed_out"

/-- The members that describe the keys of a schema. -/
def SchemaKeys.details (k : SchemaKeys) : List (String × Json) :=
  [("hash", .string k.hash.text), ("schema_id", .string k.schema.id),
    ("layout", .string k.fingerprint.text), ("constraints", .nat k.constraints),
    ("vk_bytes", .nat k.verifyingKeyBytes.length),
    ("vk_inputs", .nat k.keys.verifying.inputs.length)]

/-- How much a service holds. -/
def Service.counts (s : Service) : Json :=
  .ofMembers [("pending", .nat s.requests.size), ("keys", .nat s.keys.size),
    ("verdicts", .nat s.verdicts.size)]

/-- The lines of the counters in ascending order. -/
def Counters.toJson (c : Counters) : Json :=
  .texts ((Counters.lines c).mergeSort fun a b => decide (a ≤ b))

end PrivatePresentation
