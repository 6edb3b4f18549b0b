import PrivatePresentation.Hash.Sha256
import PrivatePresentation.Service.State

/-!
Callbacks: how a verdict is told to whoever asked. The body is signed when the asker has given a
secret; what becomes of the delivery is counted.
-/

namespace PrivatePresentation.Callback

/-- The lower-case digits of the keyed hash of a body. -/
def sign (secret : String) (body : Bytes) : String :=
  Hex.encode (Sha256.authenticate (Text.utf8 secret) body)

/-- The headers of a delivery, by lower-case name. -/
def headers (c : Callback) (v : Verdict) : List (String × String) :=
  [("content-type", "application/json"), ("x-zkp-request-id", v.requestId.text)] ++
    (match c.secret with
      | some secret => [("x-zkp-signature", sign secret (Text.utf8 v.payload))]
      | none => [])

/-- What becomes of a delivery. -/
inductive Delivered where
  /-- The other side answered with a status. -/
  | answered (status : Nat)
  /-- There was no answer. -/
  | unanswered
  /-- There was nobody to carry it. -/
  | dropped
deriving DecidableEq, Repr

/-- The word for what becomes of a delivery; only a status from 200 to 299 counts as delivered. -/
def Delivered.outcome : Delivered → String
  | .answered status => if 200 ≤ status ∧ status ≤ 299 then "delivered" else "rejected"
  | .unanswered => "failed"
  | .dropped => "dropped"

end PrivatePresentation.Callback
